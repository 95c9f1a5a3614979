import TemplateTree.Proofs.Code.Term
import TemplateTree.Proofs.Expr.Induction
import TemplateTree.Proofs.Target.Evaluation
import TemplateTree.Expr.Check

/-!
# Where generated code binds names

Only loops bind names, so the code of an expression binds a name in the source of a comprehension
exactly where a loop stands in the condition of a loop (`Expr.bindsInSource_term`). A loop binds its
result inside a lambda of its own, so that no code binds a name in the function around it
(`Expr.assigned_term`).
-/

namespace TemplateTree

/-! ## 1. The pieces -/

namespace Target.Term

theorem anyBinding_eq_any (ts : List Term) : anyBinding ts = ts.any hasBinding := by
  induction ts with
  | nil => rfl
  | cons t ts ih => simp [anyBinding, ih]

theorem anyBindsInSource_eq_any (ts : List Term) :
    anyBindsInSource ts = ts.any bindsInSource := by
  induction ts with
  | nil => rfl
  | cons t ts ih => simp [anyBindsInSource, ih]

/-- A property that an expression without comprehensions has as soon as a part of it has it. -/
structure Collects (p : Term → Bool) : Prop where
  none : p .none = false
  bool (b : Bool) : p (.bool b) = false
  number (m : Nat) : p (.number m) = false
  name (x : Text) : p (.name x) = false
  member (t : Term) (a : Text) : p (.member t a) = p t
  index (t k : Term) : p (.index t k) = (p t || p k)
  call (f : Term) (ts : List Term) : p (.call f ts) = (p f || ts.any p)
  thunk (t : Term) : p (.lambda [] [] t) = p t
  tuple (ts : List Term) : p (.tuple ts) = ts.any p
  negative (t : Term) : p (.negative t) = p t
  not (t : Term) : p (.not t) = p t
  conditional (c t u : Term) : p (.conditional c t u) = (p c || p t || p u)

theorem hasBinding_collects : Collects hasBinding where
  none := rfl
  bool _ := rfl
  number _ := rfl
  name _ := rfl
  member _ _ := rfl
  index _ _ := rfl
  call _ ts := by rw [hasBinding, anyBinding_eq_any]
  thunk _ := rfl
  tuple ts := by rw [hasBinding, anyBinding_eq_any]
  negative _ := rfl
  not _ := rfl
  conditional _ _ _ := rfl

theorem bindsInSource_collects : Collects bindsInSource where
  none := rfl
  bool _ := rfl
  number _ := rfl
  name _ := rfl
  member _ _ := rfl
  index _ _ := rfl
  call _ ts := by rw [bindsInSource, anyBindsInSource_eq_any]
  thunk _ := rfl
  tuple ts := by rw [bindsInSource, anyBindsInSource_eq_any]
  negative _ := rfl
  not _ := rfl
  conditional _ _ _ := rfl

namespace Collects

variable {p : Term → Bool} (hp : Collects p) (n : RuntimeNames)

include hp

theorem integer (z : Int) : p (.integer z) = false := by
  unfold Term.integer
  split
  · rw [hp.negative, hp.number]
  · exact hp.number _

theorem runtimeMember (a : Text) : p (.runtimeMember n a) = false := by
  rw [Term.runtimeMember, hp.member, hp.name]

theorem commandCall (line : Int) (t : Term) (ts : List Term) :
    p (.commandCall n line t ts) = (p t || ts.any p) := by
  simp [Term.commandCall, hp.call, hp.index, hp.runtimeMember, hp.integer]

theorem sequence (ts : List Term) : p (.sequence ts) = ts.any p := by
  simp [Term.sequence, hp.call, hp.thunk, hp.index, hp.tuple, hp.negative, hp.number]

theorem test (negated : Bool) (ts : List Term) : p (.test n negated ts) = ts.any p := by
  match ts with
  | [] => exact hp.bool _
  | [t] => cases negated <;> simp [Term.test, hp.not, hp.call, hp.runtimeMember]
  | t :: u :: ts => cases negated <;> simp [Term.test, hp.not, hp.call, hp.runtimeMember]

theorem branches (cs : List (Term × Term)) :
    p (.branches cs) = cs.any fun c => p c.1 || p c.2 := by
  induction cs with
  | nil => exact hp.none
  | cons c cs ih => simp [Term.branches, hp.conditional, ih]

theorem chain (cs : List (Term × Term)) : p (.chain cs) = cs.any fun c => p c.1 || p c.2 := by
  simp [Term.chain, hp.call, hp.thunk, hp.branches]

theorem any_bindStep (line : Int) (bound? : Option Term) {value : Term} (hv : p value = false) :
    (bindStep n line bound? value).any p = bound?.any p := by
  cases bound? <;> simp [bindStep, hp.call, hp.member, hp.runtimeMember, hp.integer, hv]

end Collects

theorem bindsInSource_overElements (n : RuntimeNames) (line : Int) (iterable body : Term)
    (element? position? : Option Term) :
    (overElements n line iterable body element? position?).bindsInSource
      = (iterable.bindsInSource || body.bindsInSource || element?.any bindsInSource
        || position?.any bindsInSource) := by
  have hposition : ((name Code.position).bindsInSource) = false := rfl
  have helement : (index (name Code.items) (name Code.position)).bindsInSource = false := rfl
  simp only [overElements, loop, positions, turn, loopSteps, runtimeMember, bindsInSource, hasBinding, anyBinding,
    anyBindsInSource, anyBindsInSource_eq_any, List.any_append, List.any_cons, List.any_nil,
    bindsInSource_collects.any_bindStep n line _ hposition,
    bindsInSource_collects.any_bindStep n line _ helement, Bool.or_false, Bool.false_or]
  ac_rfl

theorem bindsInSource_whileHolds (test body : Term) :
    (whileHolds test body).bindsInSource
      = (test.hasBinding || test.bindsInSource || body.bindsInSource) := by
  simp [whileHolds, loop, polls, bindsInSource, hasBinding, anyBinding, anyBindsInSource]

theorem assignedAll_append (ts us : List Term) :
    assignedAll (ts ++ us) = assignedAll ts ++ assignedAll us := by
  induction ts with
  | nil => rfl
  | cons t ts ih => simp [assignedAll, ih]

theorem assignedAll_eq_nil {ts : List Term} (h : ∀ t ∈ ts, t.assigned = []) :
    assignedAll ts = [] := by
  induction ts with
  | nil => rfl
  | cons t ts ih => simp [assignedAll, h t (by simp), ih fun u hu => h u (by simp [hu])]

theorem assigned_integer (z : Int) : (integer z).assigned = [] := by
  unfold integer
  split <;> rfl

theorem assigned_test (n : RuntimeNames) (negated : Bool) (ts : List Term) :
    (test n negated ts).assigned = assignedAll ts := by
  match ts with
  | [] => rfl
  | [t] => cases negated <;> simp [test, runtimeMember, assigned]
  | t :: u :: ts => cases negated <;> simp [test, runtimeMember, assigned]

theorem assigned_branches {cs : List (Term × Term)}
    (h : ∀ c ∈ cs, c.1.assigned = [] ∧ c.2.assigned = []) : (branches cs).assigned = [] := by
  induction cs with
  | nil => rfl
  | cons c cs ih =>
    obtain ⟨htest, hbranch⟩ := h c (by simp)
    simp [branches, assigned, htest, hbranch, ih fun d hd => h d (by simp [hd])]

theorem assignedAll_bindStep (n : RuntimeNames) (line : Int) {bound? : Option Term} {value : Term}
    (hbound : ∀ t ∈ bound?, t.assigned = []) (hvalue : value.assigned = []) :
    assignedAll (bindStep n line bound? value) = [] := by
  cases bound? with
  | none => rfl
  | some bound =>
    simp [bindStep, runtimeMember, assigned, assignedAll, assigned_integer, hbound bound rfl, hvalue]

/-- The steps of a loop bind its result. -/
theorem assignedAll_loopSteps (n : RuntimeNames) (line : Int) {body : Term}
    {element? position? : Option Term} (hbody : body.assigned = [])
    (helement : ∀ t ∈ element?, t.assigned = []) (hposition : ∀ t ∈ position?, t.assigned = []) :
    assignedAll (loopSteps n line body element? position?) = [Code.result] := by
  rw [loopSteps, assignedAll_append, assignedAll_append, assignedAll_bindStep n line hposition rfl,
    assignedAll_bindStep n line helement rfl]
  simp [assigned, assignedAll, hbody]

end Target.Term

/-! ## 2. The syntax tree of a tree -/

namespace Expr

open Target

theorem anyLoop_eq_any (es : List Expr) : anyLoop es = es.any hasLoop := by
  induction es with
  | nil => rfl
  | cons e es ih => simp [anyLoop, ih]

theorem anyClauseLoop_eq_any (cs : List (Expr × Expr)) :
    anyClauseLoop cs = cs.any fun c => hasLoop c.1 || hasLoop c.2 := by
  induction cs with
  | nil => rfl
  | cons c cs ih => simp [anyClauseLoop, ih]

theorem anyLoopInCondition_eq_any (es : List Expr) :
    anyLoopInCondition es = es.any loopInCondition := by
  induction es with
  | nil => rfl
  | cons e es ih => simp [anyLoopInCondition, ih]

theorem clauseLoopInCondition_eq_any (cs : List (Expr × Expr)) :
    clauseLoopInCondition cs = cs.any fun c => loopInCondition c.1 || loopInCondition c.2 := by
  induction cs with
  | nil => rfl
  | cons c cs ih => simp [clauseLoopInCondition, ih]

theorem any_congr_left {α : Type} {xs : List α} {p q : α → Bool} (h : ∀ x ∈ xs, p x = q x) :
    xs.any p = xs.any q := by
  induction xs with
  | nil => rfl
  | cons x xs ih => simp [h x (by simp), ih fun y hy => h y (by simp [hy])]

/-- The code of an expression binds a name exactly where the expression has a loop. -/
theorem hasBinding_term (n : RuntimeNames) (e : Expr) : (e.term n).hasBinding = e.hasLoop := by
  have hc := Term.hasBinding_collects
  induction e with
  | string value => rfl
  | command line name arguments hname harguments =>
    simp [term, hasLoop, hc.commandCall, terms_eq_map, anyLoop_eq_any, hname, Function.comp_def,
      any_congr_left harguments]
  | block first rest hfirst hrest =>
    simp [term, hasLoop, hc.sequence, terms_eq_map, anyLoop_eq_any, hfirst, Function.comp_def,
      any_congr_left hrest]
  | condition negated operands hoperands =>
    simp [term, hasLoop, hc.test, terms_eq_map, anyLoop_eq_any, Function.comp_def,
      any_congr_left hoperands]
  | choice clauses hclauses =>
    have h : ∀ c ∈ clauses, ((c.1.term n).hasBinding || (c.2.term n).hasBinding)
        = (c.1.hasLoop || c.2.hasLoop) := fun c hmem => by
      rw [(hclauses c hmem).1, (hclauses c hmem).2]
    simp [term, hasLoop, hc.chain, clauseTerms_eq_map, anyClauseLoop_eq_any, Function.comp_def,
      any_congr_left h]
  | forEach line iterable body element position _ _ _ _ =>
    simp [term, hasLoop, Term.overElements, Term.loop, Term.turn, Term.loopSteps, Term.hasBinding,
      Term.anyBinding_eq_any]
  | whileLoop test body _ _ => simp [term, hasLoop, Term.whileHolds, Term.loop, Term.hasBinding]

/-- **The code of an expression binds a name in the source of a comprehension exactly where the
    expression has a loop in the condition of a loop.** -/
theorem bindsInSource_term (n : RuntimeNames) (e : Expr) :
    (e.term n).bindsInSource = e.loopInCondition := by
  have hc := Term.bindsInSource_collects
  induction e with
  | string value => rfl
  | command line name arguments hname harguments =>
    simp [term, loopInCondition, hc.commandCall, terms_eq_map, anyLoopInCondition_eq_any, hname,
      Function.comp_def, any_congr_left harguments]
  | block first rest hfirst hrest =>
    simp [term, loopInCondition, hc.sequence, terms_eq_map, anyLoopInCondition_eq_any, hfirst,
      Function.comp_def, any_congr_left hrest]
  | condition negated operands hoperands =>
    simp [term, loopInCondition, hc.test, terms_eq_map, anyLoopInCondition_eq_any,
      Function.comp_def, any_congr_left hoperands]
  | choice clauses hclauses =>
    have h : ∀ c ∈ clauses, ((c.1.term n).bindsInSource || (c.2.term n).bindsInSource)
        = (c.1.loopInCondition || c.2.loopInCondition) := fun c hmem => by
      rw [(hclauses c hmem).1, (hclauses c hmem).2]
    simp [term, loopInCondition, hc.chain, clauseTerms_eq_map, clauseLoopInCondition_eq_any,
      Function.comp_def, any_congr_left h]
  | forEach line iterable body element position hiterable hbody helement hposition =>
    have hoption : ∀ {o : Option Expr},
        (∀ e ∈ o, (e.term n).bindsInSource = e.loopInCondition) →
        (optionTerm n o).any Term.bindsInSource = optionLoopInCondition o := by
      intro o ho
      cases o with
      | none => rfl
      | some e => exact ho e rfl
    rw [term, loopInCondition, Term.bindsInSource_overElements, hiterable, hbody,
      hoption helement, hoption hposition]
  | whileLoop test body htest hbody =>
    rw [term, loopInCondition, Term.bindsInSource_whileHolds, hasBinding_term, htest, hbody]

/-- **The code of an expression binds no name in the function around it.** -/
theorem assigned_term (n : RuntimeNames) (e : Expr) : (e.term n).assigned = [] := by
  induction e with
  | string value => rfl
  | command line name arguments hname harguments =>
    have hall : Term.assignedAll (terms n arguments) = [] :=
      Term.assignedAll_eq_nil (by simpa [terms_eq_map] using harguments)
    simp [term, Term.commandCall, Term.runtimeMember, Term.assigned, Term.assignedAll,
      Term.assigned_integer, hname, hall]
  | block first rest _ _ => rfl
  | condition negated operands hoperands =>
    rw [term, Term.assigned_test]
    exact Term.assignedAll_eq_nil (by simpa [terms_eq_map] using hoperands)
  | choice clauses _ => rfl
  | forEach line iterable body element position hiterable _ _ _ =>
    simp [term, Term.overElements, Term.runtimeMember, Term.assigned, Term.assignedAll, hiterable]
  | whileLoop test body _ _ => rfl

end Expr

end TemplateTree
