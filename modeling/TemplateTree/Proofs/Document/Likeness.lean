import Mathlib.Data.List.Forall2
import TemplateTree.Proofs.Document.Agreement
import TemplateTree.Proofs.Document.Image

/-!
# Documents that look alike

The numbered parts of a graph can look like the parts of a value: scalar for scalar, list for list and
mapping for mapping, where the text of a number may stand for the number itself. Only what lies under
the key `line` must be the same, because it is shown if it is no line. This is a `Likeness`. What looks
alike agrees (`Likeness.agreement`), so the trees of two documents that look alike are the same
(`Likeness.tree_eq`), their refusals included.
-/

namespace TemplateTree

/-! ## 1. Likeness -/

/-- A scalar in the place of another one: the same or, unless the likeness is strict, the text of a
    number. -/
inductive Scalar.Like (strict : Bool) : Scalar → Scalar → Prop
  | same (s : Scalar) : Like strict s s
  | number (hstrict : strict = false) (d : Binary64) : Like strict (.text (Shortest.text d)) (.float d)

/-- What is seen at a part in the place of a value. Under the key `line` the likeness is strict. -/
inductive Level.Like (alike : Bool → Nat → Value → Prop) (strict : Bool) : Level Nat → Value → Prop
  | scalar {s t : Scalar} (h : s.Like strict t) : Like alike strict (.scalar s) (.scalar t)
  | list {parts : List Nat} {items : List Value} (h : List.Forall₂ (alike strict) parts items) :
      Like alike strict (.list parts) (.list items)
  | mapping {parts : Entries Nat} {entries : Entries Value}
      (h : List.Forall₂ (fun p e => p.1 = e.1 ∧ alike (strict || p.1 == .text "line") p.2 e.2)
        parts entries) :
      Like alike strict (.mapping parts) (.mapping entries)

/-- A way in which parts of a graph look like parts of a value. A part comes before its own parts. -/
structure Likeness (graph : View Nat) (tree : View Value) where
  Alike : (strict : Bool) → Nat → Value → Prop
  level : ∀ {strict i v}, Alike strict i v →
    (graph.level i).Like (fun strict c w => i < c ∧ w.height < v.height ∧ Alike strict c w) strict v
  reach : ∀ {strict i v}, Alike strict i v → v.height ≤ graph.reach ∧ v.height ≤ tree.reach
  graph_same : ∀ {i c}, i < c → graph.same c i = false
  tree_level : tree.level = Value.level
  tree_same : ∀ v w, tree.same v w = false

theorem Level.Like.imp {alike alike' : Bool → Nat → Value → Prop} {strict : Bool} {level : Level Nat}
    {v : Value} (himp : ∀ strict c w, alike strict c w → alike' strict c w)
    (h : level.Like alike strict v) : level.Like alike' strict v := by
  cases h with
  | scalar hscalar => exact .scalar hscalar
  | list hparts => exact .list (hparts.imp (himp strict))
  | mapping hparts => exact .mapping (hparts.imp fun p e hpe => ⟨hpe.1, himp _ _ _ hpe.2⟩)

theorem Entries.keys_eq {R : Scalar × Nat → Scalar × Value → Prop} {parts : Entries Nat}
    {entries : Entries Value} (h : List.Forall₂ (fun p e => p.1 = e.1 ∧ R p e) parts entries) :
    parts.map Prod.fst = entries.map Prod.fst := by
  induction h with
  | nil => rfl
  | cons hpe _ ih => rw [List.map_cons, List.map_cons, hpe.1, ih]

namespace Likeness

variable {graph : View Nat} {tree : View Value} (L : Likeness graph tree) {strict : Bool} {i : Nat}
  {v : Value}

/-- **Induction over what looks alike**, for two amounts of fuel of which each is enough for the levels
    of the value: both are spent together. -/
theorem induction {P : Nat → Nat → Bool → Nat → Value → Prop}
    (step : ∀ {m n strict i v}, L.Alike strict i v →
      (graph.level i).Like (fun strict c w => i < c ∧ L.Alike strict c w ∧ P m n strict c w) strict v →
      P (m + 1) (n + 1) strict i v)
    (h : L.Alike strict i v) {m n : Nat} (hm : v.height ≤ m) (hn : v.height ≤ n) :
    P m n strict i v := by
  induction m generalizing n strict i v with
  | zero => exact absurd hm (Nat.not_le.mpr v.height_pos)
  | succ m ih =>
    obtain ⟨n, rfl⟩ := Value.exists_step hn
    refine step h ((L.level h).imp fun strict c w hcw => ?_)
    obtain ⟨hlt, hheight, halike⟩ := hcw
    exact ⟨hlt, halike, ih halike (by omega) (by omega)⟩

/-! ## 2. What is shown -/

/-- What looks strictly alike is shown alike. A part of a graph is on no path to itself. -/
theorem displayWithin_eq (h : L.Alike true i v) {m n : Nat} (hm : v.height ≤ m) (hn : v.height ≤ n)
    {path : List Nat} (hpath : ∀ p ∈ path, p < i) (path' : List Value) :
    graph.displayWithin m path i = tree.displayWithin n path' v := by
  refine L.induction (P := fun m n strict i v => strict = true → ∀ {path : List Nat},
    (∀ p ∈ path, p < i) → ∀ path', graph.displayWithin m path i = tree.displayWithin n path' v)
    ?_ h hm hn rfl hpath path'
  intro m n strict i v _ hlevel hstrict path hpath path'
  subst hstrict
  have hgraph : path.any (graph.same i) = false := by
    rw [List.any_eq_false]
    intro p hp
    rw [L.graph_same (hpath p hp)]
    exact Bool.false_ne_true
  have htree : path'.any (tree.same v) = false := by
    simp [L.tree_same]
  have hinner {c : Nat} (hc : i < c) : ∀ p ∈ i :: path, p < c := by
    intro p hp
    rcases List.mem_cons.mp hp with rfl | hp
    · exact hc
    · exact Nat.lt_trans (hpath p hp) hc
  rw [View.displayWithin, View.displayWithin, hgraph, htree, L.tree_level]
  generalize graph.level i = level at hlevel
  cases hlevel with
  | scalar hscalar =>
    cases hscalar with
    | same => rfl
    | number hstrict d => cases hstrict
  | @list parts items hparts =>
    have hrow : parts.mapM (graph.displayWithin m (i :: path))
        = items.mapM (tree.displayWithin n (.list items :: path')) :=
      mapM_eq_of_forall₂ (hparts.imp fun c w hcw => hcw.2.2 rfl (hinner hcw.1) _)
    exact congrArg (Option.map (between "[" "]")) hrow
  | @mapping parts entries hparts =>
    have hrow : (parts.mapM fun p => do
          return (← p.1.display) ++ ": " ++ (← graph.displayWithin m (i :: path) p.2))
        = entries.mapM fun e => do
          return (← e.1.display) ++ ": "
            ++ (← tree.displayWithin n (.mapping entries :: path') e.2) := by
      refine mapM_eq_of_forall₂ (hparts.imp fun p e hpe => ?_)
      obtain ⟨hkey, hlt, -, hshown⟩ := hpe
      rw [hkey, hshown rfl (hinner hlt) (.mapping entries :: path')]
    exact congrArg (Option.map (between "\x7b" "\x7d")) hrow

theorem display_eq (h : L.Alike true i v) : graph.display i = tree.display v := by
  obtain ⟨hgraph, htree⟩ := L.reach h
  exact L.displayWithin_eq h (by omega) (by omega) (by simp) []

/-! ## 3. Trees -/

theorem agrees_of_alike (h : L.Alike strict i v) :
    (graph.level i).Agrees (fun raw c w => w.height < v.height ∧ raw = false ∧ ∃ strict, L.Alike strict c w)
      (L.Alike true) false (tree.level v) := by
  have hlevel := L.level h
  rw [L.tree_level]
  generalize graph.level i = level at hlevel
  cases hlevel with
  | scalar hscalar =>
    cases hscalar with
    | same => exact .scalar (.same _)
    | number _ d => exact .scalar (.text rfl rfl)
  | list hparts => exact .list (hparts.imp fun c w hcw => ⟨hcw.2.1, rfl, _, hcw.2.2⟩)
  | @mapping parts entries hparts =>
    have hfind := Entries.rel_find? (R := fun key c w =>
      w.height < (Value.mapping entries).height ∧ L.Alike (strict || key == .text "line") c w)
      (hparts.imp fun p e hpe => ⟨hpe.1, hpe.2.2⟩)
    refine .mapping (Entries.keys_eq hparts ▸ .refl _) ?_ fun key _ => ?_
    · have hline := hfind "line"
      rw [beq_self_eq_true, Bool.or_true] at hline
      exact rel_imp (fun c w hcw => hcw.2) hline
    · exact rel_imp (fun c w hcw => ⟨hcw.1, rfl, _, hcw.2⟩) (hfind key)

/-- What looks strictly alike is the same integer, if it is one. -/
theorem level_int_iff (h : L.Alike true i v) (n : Int) :
    graph.level i = .scalar (.int n) ↔ tree.level v = .scalar (.int n) := by
  have hlevel := L.level h
  rw [L.tree_level]
  generalize graph.level i = level at hlevel
  cases hlevel with
  | scalar hscalar =>
    cases hscalar with
    | same => rw [Value.level, Level.scalar.injEq, Level.scalar.injEq]
    | number hstrict d => cases hstrict
  | list | mapping => exact iff_of_false (fun h => by cases h) fun h => by cases h

/-- **What looks alike agrees.** There are no tuples, so nothing is taken as it is. -/
def agreement : Agreement graph tree where
  Agree raw i v := raw = false ∧ ∃ strict, L.Alike strict i v
  Line := L.Alike true
  rank := Value.height
  level := by
    intro raw i v ⟨hraw, strict, h⟩
    subst hraw
    exact L.agrees_of_alike h
  line h := ⟨L.display_eq h, L.level_int_iff h⟩
  reach := by
    intro raw i v ⟨_, strict, h⟩
    exact L.reach h

/-- **Documents that look alike describe the same tree.** -/
theorem tree_eq (h : L.Alike strict i v) (marker : Text) (line : Int) :
    Document.tree graph (.ofText marker) line i = Document.tree tree (.ofText marker) line v :=
  L.agreement.tree_eq ⟨rfl, strict, h⟩ marker line

end Likeness

end TemplateTree
