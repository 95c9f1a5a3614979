import Mathlib.Data.Finset.Card
import Mathlib.Order.Interval.Finset.Nat
import TemplateTree.Proofs.Document.Agreement
import TemplateTree.Proofs.Value.Parts
import TemplateTree.Value.Graph

/-!
# Documents that share parts

The parts of a graph that do not contain themselves unfold to a value (`View.Shows`). The number of
levels of that value is bounded by the number of parts (`Graph.height_le`), because parts with different
numbers of levels are different parts. So the reach of the graph is enough to build it, and a document
is built as the value that it shows, whatever it shares (`Graph.tree_eq_build`).
-/

namespace TemplateTree

/-! ## 1. What a part shows -/

/-- **A part shows a value**: it and everything below it unfold to the value. -/
inductive View.Shows {α : Type} (view : View α) : α → Value → Prop
  | scalar {a : α} {s : Scalar} (ha : view.level a = .scalar s) : Shows view a (.scalar s)
  | list {a : α} {parts : List α} {items : List Value} (ha : view.level a = .list parts)
      (hparts : List.Forall₂ (Shows view) parts items) : Shows view a (.list items)
  | tuple {a : α} {parts : List α} {members : List Value} (ha : view.level a = .tuple parts)
      (hparts : List.Forall₂ (Shows view) parts members) : Shows view a (.tuple members)
  | mapping {a : α} {parts : Entries α} {entries : Entries Value} (ha : view.level a = .mapping parts)
      (hkeys : parts.map Prod.fst = entries.map Prod.fst)
      (hparts : List.Forall₂ (Shows view) (parts.map Prod.snd) (entries.map Prod.snd)) :
      Shows view a (.mapping entries)
  | set {a : α} {members : List Scalar} (ha : view.level a = .set members) :
      Shows view a (.set members)

section

variable {α β : Type} {R S : α → β → Prop}

theorem forall₂_imp_mem {as : List α} {bs : List β} (h : List.Forall₂ R as bs)
    (himp : ∀ a ∈ as, ∀ b ∈ bs, R a b → S a b) : List.Forall₂ S as bs := by
  induction h with
  | nil => exact .nil
  | cons hab _ ih =>
    exact .cons (himp _ List.mem_cons_self _ List.mem_cons_self hab) (ih fun a ha b hb =>
      himp a (List.mem_cons_of_mem _ ha) b (List.mem_cons_of_mem _ hb))

/-- Entries with the same keys and related values are related one by one. -/
theorem Entries.forall₂_of_map {parts : Entries α} {entries : Entries β}
    (hkeys : parts.map Prod.fst = entries.map Prod.fst)
    (hparts : List.Forall₂ R (parts.map Prod.snd) (entries.map Prod.snd)) :
    List.Forall₂ (fun p e => p.1 = e.1 ∧ R p.2 e.2) parts entries := by
  induction parts generalizing entries with
  | nil =>
    cases entries with
    | nil => exact .nil
    | cons e entries => cases hkeys
  | cons p parts ih =>
    cases entries with
    | nil => cases hkeys
    | cons e entries =>
      rw [List.map_cons, List.map_cons, List.cons.injEq] at hkeys
      rw [List.map_cons, List.map_cons, List.forall₂_cons] at hparts
      exact .cons ⟨hkeys.1, hparts.1⟩ (ih hkeys.2 hparts.2)

end

/-- Every value is shown by itself. -/
theorem View.IsTree.shows {view : View Value} (hview : view.IsTree) (v : Value) : view.Shows v v := by
  induction v with
  | scalar s => exact .scalar (hview.level_eq _)
  | list items ih => exact .list (hview.level_eq _) (List.forall₂_same.mpr ih)
  | tuple members ih => exact .tuple (hview.level_eq _) (List.forall₂_same.mpr ih)
  | mapping entries ih =>
    refine .mapping (hview.level_eq _) rfl (List.forall₂_same.mpr fun v hv => ?_)
    obtain ⟨e, he, rfl⟩ := List.mem_map.mp hv
    exact ih e he
  | set members => exact .set (hview.level_eq _)

namespace View

variable {α : Type} {view : View α} {a : α} {v w : Value}

/-- A part shows one value at most. -/
theorem Shows.unique (hv : view.Shows a v) (hw : view.Shows a w) : v = w := by
  have hrow {parts : List α} {vs ws : List Value} (hvs : List.Forall₂ view.Shows parts vs)
      (hws : List.Forall₂ view.Shows parts ws)
      (ih : ∀ v ∈ vs, ∀ {a : α} {w : Value}, view.Shows a v → view.Shows a w → v = w) : vs = ws := by
    induction hvs generalizing ws with
    | nil =>
      cases hws
      rfl
    | cons hcv _ ihrow =>
      cases hws with
      | cons hcw hws =>
        rw [ih _ List.mem_cons_self hcv hcw, ihrow hws fun v hv => ih v (List.mem_cons_of_mem _ hv)]
  induction v generalizing a w with
  | scalar s =>
    cases hv with
    | scalar ha => cases hw <;> simp_all
  | list items ih =>
    cases hv with
    | list ha hparts =>
      cases hw with
      | list ha' hparts' =>
        obtain ⟨rfl⟩ := Level.list.inj (ha.symm.trans ha')
        rw [hrow hparts hparts' ih]
      | _ => simp_all
  | tuple members ih =>
    cases hv with
    | tuple ha hparts =>
      cases hw with
      | tuple ha' hparts' =>
        obtain ⟨rfl⟩ := Level.tuple.inj (ha.symm.trans ha')
        rw [hrow hparts hparts' ih]
      | _ => simp_all
  | mapping entries ih =>
    cases hv with
    | mapping ha hkeys hparts =>
      cases hw with
      | mapping ha' hkeys' hparts' =>
        obtain ⟨rfl⟩ := Level.mapping.inj (ha.symm.trans ha')
        have hvalues := hrow hparts hparts' fun v hv => by
          obtain ⟨e, he, rfl⟩ := List.mem_map.mp hv
          exact ih e he
        rw [List.zip_of_prod hkeys.symm rfl, List.zip_of_prod hkeys'.symm rfl, hvalues]
      | _ => simp_all
  | set members =>
    cases hv with
    | set ha => cases hw <;> simp_all

/-- In a view, parts that are the same show the same. -/
def Faithful (view : View α) : Prop :=
  ∀ ⦃a b v w⦄, view.Shows a v → view.Shows b w → view.same a b = true → v = w

theorem IsTree.faithful {view : View Value} (hview : view.IsTree) : view.Faithful := by
  intro a b v w _ _ hsame
  rw [hview.same] at hsame
  cases hsame

/-- The parts of a path show something with more levels than a value has. -/
def Above (view : View α) (path : List α) (v : Value) : Prop :=
  ∀ p ∈ path, ∃ u, view.Shows p u ∧ v.height < u.height

theorem Above.cons {path : List α} (hpath : view.Above path v) (ha : view.Shows a v)
    (hlower : w.height < v.height) : view.Above (a :: path) w := by
  intro p hp
  rcases List.mem_cons.mp hp with rfl | hp
  · exact ⟨v, ha, hlower⟩
  · obtain ⟨u, hu, hheight⟩ := hpath p hp
    exact ⟨u, hu, Nat.lt_trans hlower hheight⟩

/-- A part is on no path to itself. -/
theorem Above.any_same {path : List α} (hview : view.Faithful) (hpath : view.Above path v)
    (ha : view.Shows a v) : path.any (view.same a) = false := by
  rw [List.any_eq_false]
  intro p hp hsame
  obtain ⟨u, hu, hheight⟩ := hpath p hp
  rw [hview ha hu hsame] at hheight
  exact Nat.lt_irrefl _ hheight

/-- **What shows a value is shown as the value is.** -/
theorem Shows.displayWithin_eq {tree : View Value} (hview : view.Faithful) (htree : tree.IsTree)
    (ha : view.Shows a v) {m n : Nat} (hm : v.height ≤ m) (hn : v.height ≤ n) {path : List α}
    (hpath : view.Above path v) (path' : List Value) :
    view.displayWithin m path a = tree.displayWithin n path' v := by
  induction m generalizing a v n path path' with
  | zero => exact absurd hm (Nat.not_le.mpr v.height_pos)
  | succ m ih =>
    obtain ⟨n, rfl⟩ := Value.exists_step hn
    have hany := hpath.any_same hview ha
    have hany' := htree.any_same v path'
    have hbelow {c : α} {w : Value} (hlower : w.height < v.height) (hc : view.Shows c w) :
        view.displayWithin m (a :: path) c = tree.displayWithin n (v :: path') w :=
      ih hc (by omega) (by omega) (hpath.cons ha hlower) _
    cases ha with
    | scalar hlevel => rw [displayWithin_scalar hlevel, displayWithin_scalar (htree.level_eq _)]
    | set hlevel => rw [displayWithin_set hlevel, displayWithin_set (htree.level_eq _)]
    | list hlevel hparts =>
      rw [displayWithin_list hany hlevel, displayWithin_list hany' (htree.level_eq _)]
      exact congrArg _ (mapM_eq_of_forall₂ (forall₂_imp_mem hparts fun c _ w hw hc =>
        hbelow (Value.height_lt_list hw) hc))
    | tuple hlevel hparts =>
      rw [displayWithin_tuple hany hlevel, displayWithin_tuple hany' (htree.level_eq _),
        hparts.length_eq]
      exact congrArg _ (mapM_eq_of_forall₂ (forall₂_imp_mem hparts fun c _ w hw hc =>
        hbelow (Value.height_lt_tuple hw) hc))
    | mapping hlevel hkeys hparts =>
      rw [displayWithin_mapping hany hlevel, displayWithin_mapping hany' (htree.level_eq _)]
      refine congrArg _ (mapM_eq_of_forall₂ (forall₂_imp_mem (Entries.forall₂_of_map hkeys hparts)
        fun p _ e he hpe => ?_))
      rw [hpe.1, hbelow (Value.height_lt_mapping he) hpe.2]

/-- What a part shows is seen at the part, level by level. -/
theorem Shows.agrees {agree : Bool → α → Value → Prop} {line : α → Value → Prop} {raw : Bool}
    (h : view.Shows a v)
    (hagree : ∀ raw c w, w.height < v.height → view.Shows c w → agree raw c w)
    (hline : ∀ c w, w.height < v.height → view.Shows c w → line c w) :
    (view.level a).Agrees agree line raw v.level := by
  cases h with
  | scalar hlevel => exact hlevel ▸ .scalar (.same _)
  | list hlevel hparts =>
    exact hlevel ▸ .list (forall₂_imp_mem hparts fun c _ w hw hc =>
      hagree _ _ _ (Value.height_lt_list hw) hc)
  | tuple hlevel hparts =>
    exact hlevel ▸ .tuple (forall₂_imp_mem hparts fun c _ w hw hc =>
      hagree _ _ _ (Value.height_lt_tuple hw) hc)
  | mapping hlevel hkeys hparts =>
    have hbelow {r : α → Value → Prop}
        (hr : ∀ c w, w.height < (Value.mapping _).height → view.Shows c w → r c w) :=
      Entries.rel_find? (R := fun _ => r) (forall₂_imp_mem (Entries.forall₂_of_map hkeys hparts)
        fun p _ e he hpe => ⟨hpe.1, hr _ _ (Value.height_lt_mapping he) hpe.2⟩)
    exact hlevel ▸ .mapping (hkeys ▸ .refl _) (hbelow hline _) fun key _ => hbelow (hagree false) key
  | set hlevel => exact hlevel ▸ .set ..

theorem Shows.level_int_iff (h : view.Shows a v) (n : Int) :
    view.level a = .scalar (.int n) ↔ v.level = .scalar (.int n) := by
  cases h with
  | scalar hlevel => rw [hlevel, Value.level, Level.scalar.injEq, Level.scalar.injEq]
  | list hlevel | tuple hlevel | mapping hlevel | set hlevel =>
    rw [hlevel]
    exact iff_of_false (fun h => by cases h) fun h => by cases h

end View

/-! ## 2. Agreement with the value -/

/-- The parts of a view stand for the values that they show, if the view reaches far enough. -/
def View.Shows.agreement {α : Type} {view : View α} {tree : View Value} (hview : view.Faithful)
    (htree : tree.IsTree) (bound : Nat) (hreach : bound ≤ view.reach) (hreach' : bound ≤ tree.reach) :
    Agreement view tree where
  Agree _ a v := view.Shows a v ∧ v.height ≤ bound + 1
  Line a v := view.Shows a v ∧ v.height ≤ bound + 1
  rank v := v.height - 1
  level := by
    intro raw a v ⟨h, hbound⟩
    rw [htree.level_eq]
    refine h.agrees (fun raw c w hlower hc => ⟨?_, hc, by omega⟩) fun c w hlower hc => ⟨hc, by omega⟩
    have hpos := w.height_pos
    omega
  line := by
    intro a v ⟨h, hbound⟩
    refine ⟨h.displayWithin_eq hview htree (by omega) (by omega) (by simp [View.Above]) [], fun n => ?_⟩
    rw [htree.level_eq]
    exact h.level_int_iff n
  reach := by
    intro raw a v ⟨_, hbound⟩
    exact ⟨by omega, by omega⟩

/-- **A value is built alike in every view that reaches it**, and so is what shows it. -/
theorem View.Shows.tree_eq {α : Type} {view : View α} {tree : View Value} {a : α} {v : Value}
    (h : view.Shows a v) (hview : view.Faithful) (htree : tree.IsTree)
    (hreach : v.height ≤ view.reach + 1) (hreach' : v.height ≤ tree.reach + 1) (marker : Text)
    (line : Int) :
    Document.tree view (.ofText marker) line a = Document.tree tree (.ofText marker) line v :=
  (agreement hview htree (v.height - 1) (by omega) (by omega)).tree_eq ⟨h, by omega⟩ marker line

/-! ## 3. The levels of a graph -/

theorem Value.entryHeights_eq_heights (entries : Entries Value) :
    entryHeights entries = heights (entries.map Prod.snd) := by
  induction entries with
  | nil => rfl
  | cons e rest ih => rw [entryHeights, List.map_cons, heights, ih]

namespace View

variable {α : Type} {view : View α} {a : α} {v : Value}

/-- In a row that shows something, one part shows the most levels. -/
theorem exists_shows_heights {parts : List α} {vs : List Value}
    (h : List.Forall₂ view.Shows parts vs) (hvs : 0 < Value.heights vs) :
    ∃ b w, view.Shows b w ∧ w.height = Value.heights vs := by
  induction h with
  | nil => exact absurd hvs (Nat.lt_irrefl 0)
  | @cons b w _ ws hb _ ih =>
    rw [Value.heights] at hvs ⊢
    rcases Nat.le_total (Value.heights ws) w.height with hle | hle
    · exact ⟨b, w, hb, (Nat.max_eq_left hle).symm⟩
    · rw [Nat.max_eq_right hle] at hvs ⊢
      exact ih hvs

/-- Below a part that shows several levels there is one that shows one level less. -/
theorem Shows.exists_below (h : view.Shows a v) (hv : 1 < v.height) :
    ∃ b w, view.Shows b w ∧ w.height + 1 = v.height := by
  have hrow {parts : List α} {vs : List Value} (hparts : List.Forall₂ view.Shows parts vs)
      (hheight : v.height = Value.heights vs + 1) :
      ∃ b w, view.Shows b w ∧ w.height + 1 = v.height := by
    obtain ⟨b, w, hb, hw⟩ := exists_shows_heights hparts (by omega)
    exact ⟨b, w, hb, by rw [hw, hheight]⟩
  cases h with
  | scalar ha | set ha => exact absurd hv (Nat.lt_irrefl 1)
  | list ha hparts | tuple ha hparts => exact hrow hparts rfl
  | mapping ha hkeys hparts =>
    refine hrow hparts ?_
    rw [Value.height, Value.entryHeights_eq_heights]

theorem Shows.exists_height (h : view.Shows a v) {n : Nat} (hn : 0 < n) (hle : n ≤ v.height) :
    ∃ b w, view.Shows b w ∧ w.height = n := by
  obtain ⟨k, hk⟩ := Nat.exists_eq_add_of_le hle
  induction k generalizing a v with
  | zero => exact ⟨a, v, h, hk⟩
  | succ k ih =>
    obtain ⟨b, w, hb, hw⟩ := h.exists_below (by omega)
    exact ih hb (by omega) (by omega)

end View

namespace Graph

variable {g : Graph} {part : Nat} {v : Value}

/-- A part that has parts below it is one of the parts of the graph. -/
theorem lt_size_of_shows (h : g.view.Shows part v) (hv : 1 < v.height) : part < g.parts.size := by
  by_contra hpart
  have hlevel : g.view.level part = .scalar .null := by
    show g.parts.getD part default = _
    rw [Array.getD_eq_getD_getElem?, Array.getElem?_eq_none (Nat.le_of_not_lt hpart)]
    rfl
  rw [h.unique (.scalar hlevel)] at hv
  exact Nat.lt_irrefl 1 hv

theorem faithful_view (g : Graph) : g.view.Faithful := by
  intro a b v w hv hw hsame
  obtain rfl : a = b := beq_iff_eq.mp hsame
  exact hv.unique hw

/-- **A graph shows no more levels than it has parts**, and one more for a part that it has not, which
    it shows as null. -/
theorem height_le (h : g.view.Shows part v) : v.height ≤ g.parts.size + 1 := by
  -- For every number of levels above one there is a part of the graph that shows so many of them.
  have hpart (n : Nat) : ∃ b, n ∈ Finset.Icc 2 v.height →
      b ∈ Finset.range g.parts.size ∧ ∃ w, g.view.Shows b w ∧ w.height = n := by
    by_cases hn : n ∈ Finset.Icc 2 v.height
    · obtain ⟨htwo, hle⟩ := Finset.mem_Icc.mp hn
      obtain ⟨b, w, hb, hw⟩ := h.exists_height (by omega) hle
      exact ⟨b, fun _ => ⟨Finset.mem_range.mpr (lt_size_of_shows hb (by omega)), w, hb, hw⟩⟩
    · exact ⟨0, fun hmem => absurd hmem hn⟩
  choose f hf using hpart
  have hinj : Set.InjOn f (Finset.Icc 2 v.height) := by
    intro m hm n hn hmn
    obtain ⟨-, w, hw, hwm⟩ := hf m hm
    obtain ⟨-, w', hw', hwn⟩ := hf n hn
    rw [← hwm, ← hwn, hw.unique (hmn ▸ hw')]
  have hcard := Finset.card_le_card_of_injOn f (fun n hn => (hf n hn).1) hinj
  rw [Nat.card_Icc, Finset.card_range] at hcard
  omega

/-- **A graph that unfolds to a value is built as that value**, at every line and whatever parts it
    shares. -/
theorem tree_eq_build (h : g.view.Shows g.root v) (marker : Text) (line : Int) :
    Document.tree g.view (.ofText marker) line g.root = Document.build (.ofText marker) line v :=
  h.tree_eq (faithful_view g) v.isTree_view (height_le h) (Nat.le_succ _) marker line

end Graph

end TemplateTree
