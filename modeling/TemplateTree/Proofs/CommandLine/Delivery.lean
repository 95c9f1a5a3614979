import TemplateTree.Proofs.CommandLine.Output
import TemplateTree.Proofs.FileSystem.Way

/-!
# What becomes of the output of a run

A run that finds its text and has an output writes the text there. It is to tell if that fails, as it tells
what is wrong with a document. This file says when it keeps to that.

* `deliver_eq_ok_iff`: a text is delivered exactly if the path can hold a file and the text has bytes.
* `AccountsFor`: a run succeeds and the output holds the text, or it tells an error.
* `run_accountsFor_iff`: a run accounts for its output exactly if its text can be delivered. Where it cannot,
  nothing is told and the run crashes.
-/

namespace TemplateTree.CommandLine

/-! ## 1. Delivery -/

/-- **A text is delivered exactly if the path can hold a file and the text has bytes.** -/
theorem deliver_eq_ok_iff (fs : FileSystem) (out : FilePath) (text : Text) :
    (deliver fs out text).2 = .ok () ↔ fs.CanHoldFile out ∧ text.Encodable := by
  rw [fs.canHoldFile_iff_write out ((encodeFile? text).getD []), ← isSome_encodeFile?_iff]
  unfold deliver
  cases hmade : fs.provideDirectories out.parent out.parent.names.length with
  | mk made result =>
    cases result with
    | error e =>
      refine iff_of_false (fun h => by cases h) fun h => ?_
      obtain ⟨⟨_, _, hprovide, -⟩, -⟩ := h
      cases hprovide
    | ok done =>
      cases hwrite : made.write out ((encodeFile? text).getD []) with
      | error e =>
        simp only [hwrite]
        refine iff_of_false (fun h => by cases h) fun h => ?_
        obtain ⟨⟨_, _, hprovide, hwritten⟩, -⟩ := h
        obtain ⟨rfl, -⟩ := Prod.mk.inj hprovide
        cases hwrite.symm.trans hwritten
      | ok written =>
        simp only [hwrite]
        have hheld : ∃ made' fs', (made, (Except.ok done : Except FileSystem.WriteError Unit))
            = (made', .ok ()) ∧ made'.write out ((encodeFile? text).getD []) = .ok fs' :=
          ⟨made, written, rfl, hwrite⟩
        rw [and_iff_right hheld]
        split <;> simp_all

/-! ## 2. Runs -/

/-- **A run accounts for its output**: it succeeds, and the output holds the text and every other file is as
    it was, or it ends with an error that it tells. -/
def AccountsFor (fs : FileSystem) (out : FilePath) (text : Text) (r : Outcome) : Prop :=
  (r.ending.exitCode = 0 ∧ ∃ bytes, encodeFile? text = some bytes ∧ fs.Written r.files out bytes) ∨
    r.ending = .error ∧ ∃ message, r.errors = Terminal.errorText ("Error: " ++ message ++ "\n")

/-- A run whose text is not delivered crashes, and tells nothing. -/
theorem crash_of_deliver {fs : FileSystem} (debug : Bool) {o : Options} {tree out : FilePath} {text : Text}
    (hversion : o.version = false) (htree : o.tree = some tree) (houtput : o.output = some out)
    (h : Produces fs o tree text) (hfails : (deliver fs out text).2 ≠ .ok ()) :
    ∃ c, (runOptions fs debug o).ending = .crash c ∧ (runOptions fs debug o).errors = [] := by
  obtain ⟨log, hrun⟩ := h.exists_run
  simp only [runOptions, hversion, htree, hrun, houtput, Bool.false_eq_true, if_false]
  cases hdeliver : deliver fs out text with
  | mk files result =>
    rw [hdeliver] at hfails
    cases result with
    | error c => exact ⟨c, rfl, rfl⟩
    | ok done => exact absurd rfl hfails

/-- **A run accounts for its output exactly if the path of the output can hold a file and the text has
    bytes.** Otherwise the run crashes and tells nothing, whatever stands in the way. -/
theorem run_accountsFor_iff {fs : FileSystem} {debug : Bool} {arguments : List Text} {o : Options}
    {tree out : FilePath} {text : Text} (hparse : Options.parse arguments = .ok o)
    (hversion : o.version = false) (htree : o.tree = some tree) (houtput : o.output = some out)
    (hproduces : Produces fs o tree text) :
    (AccountsFor fs out text (run fs debug arguments) ↔
      fs.CanHoldFile out ∧ (o.expression = true ∨ tree.text.Encodable)) ∧
    (¬AccountsFor fs out text (run fs debug arguments) →
      ∃ c, (run fs debug arguments).ending = .crash c ∧ (run fs debug arguments).errors = []) := by
  rw [run_eq hparse, ← hproduces.encodable_iff, ← deliver_eq_ok_iff]
  obtain ⟨hfiles, -, hexit⟩ := runOptions_of_deliver debug hversion htree houtput hproduces
  by_cases hdeliver : (deliver fs out text).2 = .ok ()
  · have haccounts : AccountsFor fs out text (runOptions fs debug o) := by
      obtain ⟨bytes, hbytes⟩ := Option.isSome_iff_exists.mp
        ((isSome_encodeFile?_iff text).mpr ((deliver_eq_ok_iff fs out text).mp hdeliver).2)
      refine .inl ⟨hexit.mpr hdeliver, bytes, hbytes, ?_⟩
      rcases deliver_cases fs out text with ⟨hundone, -⟩ | ⟨-, hwritten⟩
      · exact absurd hdeliver hundone
      · rw [hbytes] at hwritten
        rw [hfiles]
        exact hwritten
    exact ⟨iff_of_true haccounts hdeliver, fun h => absurd haccounts h⟩
  · obtain ⟨c, hcrash, hsilent⟩ := crash_of_deliver debug hversion htree houtput hproduces hdeliver
    refine ⟨iff_of_false (fun h => ?_) hdeliver, fun _ => ⟨c, hcrash, hsilent⟩⟩
    rcases h with ⟨hzero, -⟩ | ⟨herror, -⟩
    · exact hdeliver (hexit.mp hzero)
    · cases hcrash.symm.trans herror

/-- A fresh path that goes down and up again on its way can hold the output. -/
theorem run_accountsFor_fresh :
    let fs : FileSystem := ⟨[([Text.ofString "t"], .file [0x78])], []⟩
    let arguments := ["t", "-o", "a/../b/o"].map Text.ofString
    ∃ o tree out text, Options.parse arguments = .ok o ∧ o.version = false ∧ o.tree = some tree ∧
      o.output = some out ∧ Produces fs o tree text ∧ AccountsFor fs out text (run fs false arguments) := by
  intro fs arguments
  let o : Options := { tree := some ⟨.none, ["t"]⟩, output := some ⟨.none, ["a", "..", "b", "o"]⟩ }
  have hparse : Options.parse arguments = .ok o := rfl
  have hsucceeds : (runOptions fs false o).ending.exitCode = 0 := by decide +kernel
  obtain ⟨text, htext⟩ : ∃ text, Produces fs o ⟨.none, ["t"]⟩ text := by
    refine Classical.byContradiction fun hnone => ?_
    exact (runOptions_of_stop false rfl rfl fun text htext => hnone ⟨text, htext⟩).1 hsucceeds
  have hholds : fs.CanHoldFile ⟨.none, ["a", "..", "b", "o"]⟩ :=
    ⟨by decide, ⟨by decide, by decide, by decide⟩, "o", rfl, by decide, by decide, by decide, by decide⟩
  exact ⟨o, _, _, text, hparse, rfl, rfl, rfl, htext,
    (run_accountsFor_iff hparse rfl rfl rfl htext).1.mpr ⟨hholds, .inr (by decide)⟩⟩

/-- A run that cannot write its output does not tell: not where a directory stands, nor below a file, nor at
    the empty path. -/
theorem run_untold :
    let fs : FileSystem := ⟨[([Text.ofString "t"], .file [0x78]), ([Text.ofString "d"], .directory)], []⟩
    let r (out : String) := run fs false (["t", "-o", out].map Text.ofString)
    (r "d").ending = .crash (.unwritable .isDirectory) ∧ (r "d").errors = [] ∧
      (r "t/o").ending = .crash (.unwritable .fileExists) ∧ (r "t/o").errors = [] ∧
      (r "").ending = .crash (.unwritable .isDirectory) ∧ (r "").errors = [] := by
  decide +kernel

end TemplateTree.CommandLine
