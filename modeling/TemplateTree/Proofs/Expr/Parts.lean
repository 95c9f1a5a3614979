import TemplateTree.Proofs.Code.Binding

/-!
# What stands in an expression

`Expr.Within` says that an expression stands somewhere in another one. A property of the kind "some
part has it" is decided by a recursion over the nodes (`Expr.exists_within_iff`); the two recursions
that look for loops are of this kind (`Expr.loopInCondition_iff`).
-/

namespace TemplateTree.Expr

/-! ## 1. Parts -/

/-- The expressions right below a node. -/
def children : Expr → List Expr
  | string _ => []
  | command _ name arguments => name :: arguments
  | block first rest => first :: rest
  | condition _ operands => operands
  | choice clauses => clauses.flatMap fun c => [c.1, c.2]
  | forEach _ iterable body element position =>
    iterable :: body :: (element.toList ++ position.toList)
  | whileLoop test body => [test, body]

/-- An expression is another one, or stands somewhere in it. -/
inductive Within : Expr → Expr → Prop
  | refl (e : Expr) : Within e e
  | child {a b e : Expr} (mem : b ∈ e.children) (within : Within a b) : Within a e

/-- Induction with one case for all kinds of nodes. -/
theorem children_induction {motive : Expr → Prop}
    (node : ∀ e, (∀ c ∈ e.children, motive c) → motive e) (e : Expr) : motive e := by
  induction e with
  | string value => exact node _ (by simp [children])
  | command line name arguments hname harguments =>
    exact node _ (by simpa [children] using ⟨hname, harguments⟩)
  | block first rest hfirst hrest => exact node _ (by simpa [children] using ⟨hfirst, hrest⟩)
  | condition negated operands hoperands => exact node _ (by simpa [children] using hoperands)
  | choice clauses hclauses =>
    refine node _ fun c hc => ?_
    obtain ⟨clause, hclause, hmem⟩ := List.mem_flatMap.mp hc
    obtain ⟨htest, hbranch⟩ := hclauses clause hclause
    rcases List.mem_cons.mp hmem with rfl | hmem
    · exact htest
    · rw [List.mem_singleton.mp hmem]
      exact hbranch
  | forEach line iterable body element position hiterable hbody helement hposition =>
    refine node _ fun c hc => ?_
    simp only [children, List.mem_cons, List.mem_append, Option.mem_toList] at hc
    rcases hc with rfl | rfl | hc | hc
    · exact hiterable
    · exact hbody
    · exact helement c hc
    · exact hposition c hc
  | whileLoop test body htest hbody => exact node _ (by simpa [children] using ⟨htest, hbody⟩)

/-- **A test that asks a node and then everything below it** asks everything that stands in it. -/
theorem exists_within_iff {p own : Expr → Bool}
    (h : ∀ e, p e = (own e || e.children.any p)) (e : Expr) :
    p e = true ↔ ∃ a, Within a e ∧ own a = true := by
  constructor
  · intro he
    induction e using children_induction with
    | node e ih =>
      rw [h, Bool.or_eq_true, List.any_eq_true] at he
      rcases he with he | ⟨c, hc, hp⟩
      · exact ⟨e, .refl e, he⟩
      · obtain ⟨a, ha, hown⟩ := ih c hc hp
        exact ⟨a, .child hc ha, hown⟩
  · rintro ⟨a, ha, hown⟩
    induction ha with
    | refl => rw [h, hown, Bool.true_or]
    | child hc _ ih =>
      rw [h, Bool.or_eq_true, List.any_eq_true]
      exact Or.inr ⟨_, hc, ih⟩

/-! ## 2. Loops -/

/-- Whether a node is a loop. -/
def isLoop : Expr → Bool
  | forEach .. => true
  | whileLoop .. => true
  | _ => false

/-- Some loop stands inside the condition of some `whileLoop` of the tree. -/
def LoopInTest (e : Expr) : Prop :=
  ∃ test body loop, Within (.whileLoop test body) e ∧ Within loop test ∧ loop.isLoop = true

theorem hasLoop_eq (e : Expr) : e.hasLoop = (e.isLoop || e.children.any hasLoop) := by
  cases e <;> simp [hasLoop, isLoop, children, anyLoop_eq_any, anyClauseLoop_eq_any, List.any_flatMap]

theorem hasLoop_iff (e : Expr) : e.hasLoop = true ↔ ∃ loop, Within loop e ∧ loop.isLoop = true :=
  exists_within_iff hasLoop_eq e

/-- Whether a node is a `whileLoop` with a loop inside its condition. -/
def testHasLoop : Expr → Bool
  | whileLoop test _ => hasLoop test
  | _ => false

theorem loopInCondition_eq (e : Expr) :
    e.loopInCondition = (e.testHasLoop || e.children.any loopInCondition) := by
  cases e with
  | forEach line iterable body element position =>
    cases element <;> cases position <;>
      simp [loopInCondition, testHasLoop, children, optionLoopInCondition, Bool.or_assoc]
  | _ => simp [loopInCondition, testHasLoop, children, anyLoopInCondition_eq_any,
      clauseLoopInCondition_eq_any, List.any_flatMap, Bool.or_assoc]

/-- **The check finds a loop in a condition exactly where there is one.** -/
theorem loopInCondition_iff (e : Expr) : e.loopInCondition = true ↔ e.LoopInTest := by
  rw [exists_within_iff loopInCondition_eq]
  constructor
  · rintro ⟨a, ha, htest⟩
    cases a with
    | whileLoop test body =>
      obtain ⟨loop, hloop, hl⟩ := (hasLoop_iff test).mp htest
      exact ⟨test, body, loop, ha, hloop, hl⟩
    | _ => cases htest
  · rintro ⟨test, body, loop, hwhile, hloop, hl⟩
    exact ⟨_, hwhile, (hasLoop_iff test).mpr ⟨loop, hloop, hl⟩⟩

end TemplateTree.Expr
