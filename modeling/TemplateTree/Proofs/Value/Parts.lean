import TemplateTree.Proofs.Document.Image
import TemplateTree.Value.Display

/-!
# What stands in a value

`Value.parts` lists a value and everything that stands in it. Where the integers of no part are too long
to be written (`Value.Writable`), the value has a shown form (`View.IsTree.exists_display`).
-/

namespace TemplateTree

/-! ## 1. Induction and parts -/

namespace Value

section

variable {motive : Value → Prop} (scalar : ∀ s, motive (.scalar s))
  (list : ∀ items, (∀ v ∈ items, motive v) → motive (.list items))
  (tuple : ∀ members, (∀ v ∈ members, motive v) → motive (.tuple members))
  (mapping : ∀ entries : Entries Value, (∀ e ∈ entries, motive e.2) → motive (.mapping entries))
  (set : ∀ members, motive (.set members))

include scalar list tuple mapping set

/-- **Induction over the shapes of values**, with the hypothesis for everything right below. -/
@[elab_as_elim, induction_eliminator]
theorem induction (v : Value) : motive v := by
  refine @Value.rec motive (fun vs => ∀ v ∈ vs, motive v) (fun es => ∀ e ∈ es, motive e.2)
    (fun e => motive e.2) scalar list tuple mapping set ?nil ?cons ?noEntry ?entry ?pair v
  case nil => simp
  case cons =>
    intro v vs hv hvs w hw
    rcases List.mem_cons.mp hw with rfl | hw
    · exact hv
    · exact hvs w hw
  case noEntry => simp
  case entry =>
    intro e es he hes f hf
    rcases List.mem_cons.mp hf with rfl | hf
    · exact he
    · exact hes f hf
  case pair => exact fun _ _ hv => hv

end

mutual

/-- A value and everything that stands in it. -/
def parts : Value → List Value
  | scalar s => [.scalar s]
  | list items => .list items :: itemParts items
  | tuple members => .tuple members :: itemParts members
  | mapping entries => .mapping entries :: entryParts entries
  | set members => [.set members]

/-- The parts of some values. -/
def itemParts : List Value → List Value
  | [] => []
  | v :: vs => parts v ++ itemParts vs

/-- The parts of the values of some entries. -/
def entryParts : List (Scalar × Value) → List Value
  | [] => []
  | (_, v) :: rest => parts v ++ entryParts rest

end

theorem mem_parts_self (v : Value) : v ∈ v.parts := by
  cases v <;> exact List.mem_cons_self

theorem itemParts_eq_flatMap (vs : List Value) : itemParts vs = vs.flatMap parts := by
  induction vs with
  | nil => rfl
  | cons v vs ih => rw [itemParts, ih, List.flatMap_cons]

theorem entryParts_eq_flatMap (es : Entries Value) : entryParts es = es.flatMap fun e => e.2.parts := by
  induction es with
  | nil => rfl
  | cons e es ih => rw [entryParts, ih, List.flatMap_cons]

section

variable {v p : Value} {items : List Value}

theorem mem_parts_list (hv : v ∈ items) (hp : p ∈ v.parts) : p ∈ (Value.list items).parts := by
  rw [parts, itemParts_eq_flatMap]
  exact List.mem_cons_of_mem _ (List.mem_flatMap.mpr ⟨v, hv, hp⟩)

theorem mem_parts_tuple (hv : v ∈ items) (hp : p ∈ v.parts) : p ∈ (Value.tuple items).parts := by
  rw [parts, itemParts_eq_flatMap]
  exact List.mem_cons_of_mem _ (List.mem_flatMap.mpr ⟨v, hv, hp⟩)

theorem mem_parts_mapping {k : Scalar} {entries : Entries Value} (hv : (k, v) ∈ entries)
    (hp : p ∈ v.parts) : p ∈ (Value.mapping entries).parts := by
  rw [parts, entryParts_eq_flatMap]
  exact List.mem_cons_of_mem _ (List.mem_flatMap.mpr ⟨(k, v), hv, hp⟩)

end

/-- An item of a tuple has fewer levels than the tuple. -/
theorem height_lt_tuple {v : Value} {members : List Value} (h : v ∈ members) :
    v.height < (Value.tuple members).height := by
  rw [height]
  exact Nat.lt_succ_of_le (height_le_heights h)

end Value

theorem Entries.mem_of_find? {α : Type} {key : Text} {entries : Entries α} {v : α}
    (h : entries.find? key = some v) : (Scalar.text key, v) ∈ entries := by
  induction entries with
  | nil => cases h
  | cons e rest ih =>
    obtain ⟨k, w⟩ := e
    rw [find?] at h
    split at h
    · rename_i hkey
      obtain rfl := Option.some.inj h
      exact hkey ▸ List.mem_cons_self
    · exact List.mem_cons_of_mem _ (ih h)

/-! ## 2. Values that can be written -/

/-- Whether a scalar is not too long to be written. -/
def Scalar.isWritable : Scalar → Bool
  | .int n => Decimal.fits n
  | _ => true

namespace Value

/-- Whether the integers at the top of a value are not too long to be written. -/
def isWritable : Value → Bool
  | scalar s => s.isWritable
  | mapping entries => entries.all fun e => e.1.isWritable
  | set members => members.all Scalar.isWritable
  | _ => true

/-- **Every integer in a value can be written**, keys and members of sets included. -/
def Writable (v : Value) : Prop := ∀ p ∈ v.parts, p.isWritable = true

instance (v : Value) : Decidable v.Writable := inferInstanceAs (Decidable (∀ p ∈ v.parts, _))

namespace Writable

variable {v : Value} {items : List Value} {entries : Entries Value}

theorem item (h : (Value.list items).Writable) (hv : v ∈ items) : v.Writable :=
  fun p hp => h p (mem_parts_list hv hp)

theorem member (h : (Value.tuple items).Writable) (hv : v ∈ items) : v.Writable :=
  fun p hp => h p (mem_parts_tuple hv hp)

theorem entry {k : Scalar} (h : (Value.mapping entries).Writable) (hv : (k, v) ∈ entries) :
    v.Writable :=
  fun p hp => h p (mem_parts_mapping hv hp)

theorem key {e : Scalar × Value} (h : (Value.mapping entries).Writable) (he : e ∈ entries) :
    e.1.isWritable = true :=
  List.all_eq_true.mp (h _ (mem_parts_self _)) e he

end Writable

end Value

theorem Scalar.exists_display {s : Scalar} (h : s.isWritable = true) : ∃ t, s.display = some t := by
  cases s with
  | int n =>
    rw [isWritable] at h
    rw [display, Decimal.ofInt?, if_pos h]
    exact ⟨_, rfl⟩
  | _ => exact ⟨_, rfl⟩

theorem Scalar.exists_plain {s : Scalar} (h : s.isWritable = true) : ∃ t, s.plain = some t := by
  cases s with
  | int n =>
    rw [plain]
    · exact exists_display h
    all_goals simp
  | _ => exact ⟨_, rfl⟩

theorem mapM_eq_some_filterMap {α β : Type} {f : α → Option β} {as : List α}
    (h : ∀ a ∈ as, ∃ b, f a = some b) : as.mapM f = some (as.filterMap f) := by
  induction as with
  | nil => rfl
  | cons a as ih =>
    obtain ⟨b, hb⟩ := h a List.mem_cons_self
    rw [List.mapM_cons, List.filterMap_cons, hb, ih fun x hx => h x (List.mem_cons_of_mem a hx)]
    rfl

/-- The order of the places of a set loses no member and adds none. -/
theorem Scalar.mem_of_mem_inTableOrder {members : List Scalar} {s : Scalar}
    (h : s ∈ inTableOrder members) : s ∈ members := by
  rw [inTableOrder] at h
  split at h
  · exact h
  · rename_i residues _
    -- What is in the table was put there, and only members are.
    have htable : ∀ (ms : List (Int × Scalar)) (table : List (Nat × Scalar)),
        (∀ m ∈ ms, m.2 ∈ members) → (∀ t ∈ table, t.2 ∈ members) →
        ∀ t ∈ ms.foldl (fun table m =>
          SetTable.insert (SetTable.size members.length) table m.1 m.2) table, t.2 ∈ members := by
      intro ms
      induction ms with
      | nil => exact fun table _ htable => htable
      | cons m ms ih =>
        intro table hms htable
        refine ih _ (fun x hx => hms x (List.mem_cons_of_mem m hx)) fun t ht => ?_
        rcases List.mem_cons.mp ht with rfl | ht
        · exact hms m List.mem_cons_self
        · exact htable t ht
    obtain ⟨t, ht, rfl⟩ := List.mem_map.mp h
    refine htable _ [] (fun m hm => ?_) (by simp) t (List.mem_mergeSort.mp ht)
    obtain ⟨residue, s⟩ := m
    exact (List.of_mem_zip hm).2

/-! ## 3. Shown forms, level by level -/

/-- The mark behind the shown members of a tuple, which tells a single member from one in brackets. -/
def tupleEnd (members : Nat) : Text := if members = 1 then ",)" else ")"

/-- The shown form of a set. -/
def setShown : List Scalar → Option Text
  | [] => some "set()"
  | members => ((Scalar.inTableOrder members).mapM Scalar.display).map (between "\x7b" "\x7d")

namespace View

section

variable {α : Type} {view : View α} {a : α} {depth : Nat} {path : List α}

theorem displayWithin_scalar {s : Scalar} (ha : view.level a = .scalar s) :
    view.displayWithin (depth + 1) path a = s.display := by
  simp only [displayWithin, ha]

theorem displayWithin_set {members : List Scalar} (ha : view.level a = .set members) :
    view.displayWithin (depth + 1) path a = setShown members := by
  cases members <;> simp only [displayWithin, ha, setShown]

variable (hpath : path.any (view.same a) = false)

include hpath

theorem displayWithin_list {items : List α} (ha : view.level a = .list items) :
    view.displayWithin (depth + 1) path a
      = (items.mapM (view.displayWithin depth (a :: path))).map (between "[" "]") := by
  simp only [displayWithin, ha, hpath, Bool.false_eq_true, if_false]

theorem displayWithin_tuple {members : List α} (ha : view.level a = .tuple members) :
    view.displayWithin (depth + 1) path a
      = (members.mapM (view.displayWithin depth (a :: path))).map
        (between "(" (tupleEnd members.length)) := by
  match members with
  | [] =>
    simp only [displayWithin, ha, hpath, Bool.false_eq_true, if_false]
    rfl
  | [member] =>
    simp only [displayWithin, ha, hpath, Bool.false_eq_true, if_false, List.mapM_cons, List.mapM_nil]
    cases view.displayWithin depth (a :: path) member with
    | none => rfl
    | some t =>
      show some _ = some (between "(" ",)" [t])
      rw [between, Text.join, List.intercalate_singleton]
  | first :: second :: rest =>
    simp only [displayWithin, ha, hpath, Bool.false_eq_true, if_false]
    rfl

theorem displayWithin_mapping {entries : Entries α} (ha : view.level a = .mapping entries) :
    view.displayWithin (depth + 1) path a
      = (entries.mapM fun (e : Scalar × α) => do
          return (← e.1.display) ++ ": " ++ (← view.displayWithin depth (a :: path) e.2)).map
        (between "\x7b" "\x7d") := by
  simp only [displayWithin, ha, hpath, Bool.false_eq_true, if_false]

end

/-- A view of values in which no part is the same as another. -/
structure IsTree (view : View Value) : Prop where
  level : view.level = Value.level
  same : ∀ v w, view.same v w = false

namespace IsTree

variable {view : View Value} (hview : view.IsTree)

include hview

theorem any_same (v : Value) (path : List Value) : path.any (view.same v) = false := by
  rw [List.any_eq_false]
  intro w _
  rw [hview.same]
  exact Bool.false_ne_true

theorem level_eq (v : Value) : view.level v = v.level := by rw [hview.level]

theorem level_eq_scalar_iff {v : Value} {s : Scalar} : view.level v = .scalar s ↔ v = .scalar s := by
  rw [hview.level]
  cases v <;> simp [Value.level]

/-- **A value that can be written has a shown form.** -/
theorem exists_display {v : Value} (h : v.Writable) (depth : Nat) (path : List Value) :
    ∃ t, view.displayWithin depth path v = some t := by
  induction depth generalizing path v with
  | zero => exact ⟨_, rfl⟩
  | succ depth ih =>
    have hpath := hview.any_same v path
    have hbetween {α : Type} {f : α → Option Text} {as : List α} (opening closing : Text)
        (has : ∀ a ∈ as, ∃ t, f a = some t) :
        ∃ t, (as.mapM f).map (between opening closing) = some t := by
      rw [mapM_eq_some_filterMap has]
      exact ⟨_, rfl⟩
    cases v with
    | scalar s =>
      rw [displayWithin_scalar (hview.level_eq _)]
      exact Scalar.exists_display (h _ (Value.mem_parts_self _))
    | set members =>
      rw [displayWithin_set (hview.level_eq _)]
      have hmembers : ∀ s ∈ Scalar.inTableOrder members, ∃ t, s.display = some t := fun s hs =>
        Scalar.exists_display (List.all_eq_true.mp (h _ (Value.mem_parts_self _)) s
          (Scalar.mem_of_mem_inTableOrder hs))
      cases members with
      | nil => exact ⟨_, rfl⟩
      | cons s rest => exact hbetween _ _ hmembers
    | list items =>
      rw [displayWithin_list hpath (hview.level_eq _)]
      exact hbetween _ _ fun v hv => ih (h.item hv) _
    | tuple members =>
      rw [displayWithin_tuple hpath (hview.level_eq _)]
      exact hbetween _ _ fun v hv => ih (h.member hv) _
    | mapping entries =>
      rw [displayWithin_mapping hpath (hview.level_eq _)]
      refine hbetween _ _ fun e he => ?_
      obtain ⟨t, ht⟩ := Scalar.exists_display (h.key he)
      obtain ⟨u, hu⟩ := ih (h.entry he) (.mapping entries :: path)
      rw [ht, hu]
      exact ⟨_, rfl⟩

end IsTree

end View

theorem Value.isTree_view (v : Value) : v.view.IsTree := ⟨rfl, fun _ _ => rfl⟩

end TemplateTree
