import TemplateTree.Expr.Basic

/-!
# Induction over expressions

Expressions stand in lists, in pairs and in options inside other expressions. `Expr.induction` gives
the hypothesis for every one of them, so that a proof has one case for each kind of node.
-/

namespace TemplateTree.Expr

section

variable {motive : Expr → Prop}
  (string : ∀ value, motive (.string value))
  (command : ∀ line name arguments, motive name → (∀ e ∈ arguments, motive e) →
    motive (.command line name arguments))
  (block : ∀ first rest, motive first → (∀ e ∈ rest, motive e) → motive (.block first rest))
  (condition : ∀ negated operands, (∀ e ∈ operands, motive e) →
    motive (.condition negated operands))
  (choice : ∀ clauses, (∀ c ∈ clauses, motive c.1 ∧ motive c.2) → motive (.choice clauses))
  (forEach : ∀ line iterable body element position, motive iterable → motive body →
    (∀ e ∈ element, motive e) → (∀ e ∈ position, motive e) →
    motive (.forEach line iterable body element position))
  (whileLoop : ∀ test body, motive test → motive body → motive (.whileLoop test body))

include string command block condition choice forEach whileLoop

/-- **Induction over the kinds of nodes**, with the hypothesis for everything that stands in a
    node. -/
@[elab_as_elim, induction_eliminator]
theorem induction (e : Expr) : motive e := by
  refine @Expr.rec motive (fun es => ∀ e ∈ es, motive e)
    (fun cs => ∀ c ∈ cs, motive c.1 ∧ motive c.2) (fun o => ∀ e ∈ o, motive e)
    (fun c => motive c.1 ∧ motive c.2) string command block condition choice forEach whileLoop
    ?nil ?cons ?noClause ?clause ?none ?some ?pair e
  case nil => simp
  case cons =>
    intro e es he hes x hx
    rcases List.mem_cons.mp hx with rfl | hx
    · exact he
    · exact hes x hx
  case noClause => simp
  case clause =>
    intro c cs hc hcs x hx
    rcases List.mem_cons.mp hx with rfl | hx
    · exact hc
    · exact hcs x hx
  case none => simp
  case some =>
    intro e he x hx
    obtain rfl : e = x := by simpa using hx
    exact he
  case pair => exact fun c b hc hb => ⟨hc, hb⟩

end

end TemplateTree.Expr
