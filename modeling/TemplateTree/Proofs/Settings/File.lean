import TemplateTree.Proofs.Document.Sharing
import TemplateTree.Settings.File

/-!
# Which files have settings

A file has settings if its value is a mapping of valid fields, or null, which an empty file has as its value.
The value of a file can share parts and contain itself, so it is looked at only as deep as fields lie. This
file says

* that nothing deeper matters: validation sees of a value what is left of it at that depth
  (`Settings.validate_truncate`), and so it sees of a graph what it sees of the value that the graph shows
  (`Graph.truncate_of_shows`);
* what the settings of a file with a value are to be (`Settings.FollowsValue`): null and mappings only are
  accepted;
* that they are so exactly if the value is not one of those that count as nothing beside null and the empty
  mapping (`Level.IsBlank`), for which the default settings are given (`Settings.load_follows_iff`).
-/

namespace TemplateTree

/-! ## 1. Values down to a depth -/

/-- A value down to a depth, below which everything is left out. -/
def Value.truncate : Nat → Value → Value
  | 0, _ => .null
  | _ + 1, .scalar s => .scalar s
  | depth + 1, .list items => .list (items.map (truncate depth))
  | depth + 1, .tuple members => .tuple (members.map (truncate depth))
  | depth + 1, .mapping entries => .mapping (entries.map fun e => (e.1, truncate depth e.2))
  | _ + 1, .set members => .set members

theorem map_eq_of_forall₂ {α β γ : Type} {R : α → β → Prop} {f : α → γ} {g : β → γ} {as : List α}
    {bs : List β} (h : List.Forall₂ R as bs) (hfg : ∀ a b, R a b → f a = g b) : as.map f = bs.map g := by
  induction h with
  | nil => rfl
  | cons hab _ ih => rw [List.map_cons, List.map_cons, hfg _ _ hab, ih]

namespace Graph

variable {g : Graph} {part : Nat}

/-- **What a part shows is what it is down to every depth.** -/
theorem truncate_of_shows {v : Value} (h : g.view.Shows part v) (depth : Nat) :
    g.toValue depth part = v.truncate depth := by
  induction depth generalizing part v with
  | zero => rfl
  | succ depth ih =>
    rw [toValue]
    cases h with
    | scalar ha | set ha =>
      rw [show g.level part = _ from ha]
      rfl
    | list ha hparts =>
      rw [show g.level part = _ from ha]
      exact congrArg Value.list (map_eq_of_forall₂ hparts fun _ _ => ih)
    | tuple ha hparts =>
      rw [show g.level part = _ from ha]
      exact congrArg Value.tuple (map_eq_of_forall₂ hparts fun _ _ => ih)
    | mapping ha hkeys hparts =>
      rw [show g.level part = _ from ha]
      refine congrArg Value.mapping (map_eq_of_forall₂ (Entries.forall₂_of_map hkeys hparts) ?_)
      intro p e hpe
      rw [hpe.1, ih hpe.2]

/-- What a part is down to a depth is what it is down to a greater one, less what lies deeper. -/
theorem truncate_toValue {m n : Nat} (h : n ≤ m) (part : Nat) :
    (g.toValue m part).truncate n = g.toValue n part := by
  induction n generalizing m part with
  | zero => rfl
  | succ n ih =>
    obtain ⟨m, rfl⟩ := Nat.exists_eq_add_one_of_ne_zero (show m ≠ 0 by omega)
    have hparts (p : Nat) : (g.toValue m p).truncate n = g.toValue n p := ih (by omega) p
    rw [toValue, toValue]
    cases g.level part with
    | scalar s | set members => rfl
    | list items | tuple items =>
      simp only [Value.truncate, List.map_map]
      exact congrArg _ (List.map_congr_left fun p _ => hparts p)
    | mapping entries =>
      simp only [Value.truncate, List.map_map]
      refine congrArg _ (List.map_congr_left fun e _ => ?_)
      rw [Function.comp_apply, hparts]

end Graph

/-! ## 2. How deep fields lie -/

theorem Entries.find?_map {α β : Type} (f : α → β) (key : Text) (entries : Entries α) :
    Entries.find? key (entries.map fun e => (e.1, f e.2)) = (entries.find? key).map f := by
  induction entries with
  | nil => rfl
  | cons e rest ih =>
    rw [List.map_cons, find?, find?]
    split
    · rfl
    · exact ih

theorem Value.entries?_truncate (depth : Nat) (v : Value) :
    (v.truncate (depth + 1)).entries?
      = v.entries?.map (List.map fun e => (e.1, e.2.truncate depth)) := by
  cases v <;> rfl

theorem Checked.ofValue_truncate (depth : Nat) (v : Value) :
    ofValue (v.truncate (depth + 1)) = ofValue v := by
  cases v <;> rfl

/-- A field of a mapping is one level deep. -/
theorem Checked.field_truncate (depth : Nat) (entries : Entries Value) (key default : Text)
    (check : Text → Checked) :
    field (entries.map fun e => (e.1, e.2.truncate (depth + 1))) key default check
      = field entries key default check := by
  rw [field, field, Entries.find?_map]
  cases entries.find? key with
  | none => rfl
  | some v =>
    show (ofValue (v.truncate (depth + 1)) >>= check) = (ofValue v >>= check)
    rw [ofValue_truncate]

theorem RuntimeNames.validate_truncate (depth : Nat) (v : Value) :
    validate (v.truncate (depth + 2)) = validate v := by
  rw [validate, validate, Value.entries?_truncate]
  cases v.entries? with
  | none => rfl
  | some entries => simp only [Option.map_some, Checked.field_truncate]

namespace Settings

/-- The names among the settings are one level deeper than the settings. -/
theorem names?_truncate (depth : Nat) (entries : Entries Value) :
    names? (entries.map fun e => (e.1, e.2.truncate (depth + 2))) = names? entries := by
  rw [names?, names?, Entries.find?_map]
  cases entries.find? "names" with
  | none => rfl
  | some v =>
    show (RuntimeNames.validate (v.truncate (depth + 2))).mapError _ = _
    rw [RuntimeNames.validate_truncate]

/-- **Validation looks no deeper than fields lie.** -/
theorem validate_truncate {n : Nat} (hn : depth ≤ n) (v : Value) :
    validate (v.truncate n) = validate v := by
  obtain ⟨k, rfl⟩ := Nat.exists_eq_add_of_le' hn
  rw [validate, validate, depth, Value.entries?_truncate]
  cases v.entries? with
  | none => rfl
  | some entries => simp only [Option.map_some, Checked.field_truncate, names?_truncate]

end Settings

/-! ## 3. Settings by the value of a file -/

/-- **A level that counts as nothing but is neither null nor a mapping**: false, a zero, and what is
    empty. -/
inductive Level.IsBlank {α : Type} : Level α → Prop
  | no : IsBlank (.scalar (.bool false))
  | zero : IsBlank (.scalar (.int 0))
  | zeroFloat (negative : Bool) (exponent : Int) :
    IsBlank (.scalar (.float (.finite negative 0 exponent)))
  | text : IsBlank (.scalar (.text []))
  | bytes : IsBlank (.scalar (.bytes []))
  | list : IsBlank (.list [])
  | tuple : IsBlank (.tuple [])
  | set : IsBlank (.set [])

/-- Null and the empty mapping count as nothing too, and nothing else does. -/
theorem Level.isNothing_iff {α : Type} (level : Level α) :
    level.isNothing = true ↔ level = .scalar .null ∨ level = .mapping [] ∨ level.IsBlank := by
  constructor
  · intro h
    cases level with
    | scalar s =>
      cases s with
      | null => exact .inl rfl
      | bool b =>
        cases b with
        | false => exact .inr (.inr .no)
        | true => cases h
      | int n =>
        obtain rfl : n = 0 := eq_of_beq h
        exact .inr (.inr .zero)
      | float d =>
        cases d with
        | finite negative mantissa exponent =>
          obtain rfl : mantissa = 0 := eq_of_beq h
          exact .inr (.inr (.zeroFloat negative exponent))
        | _ => cases h
      | text t =>
        obtain rfl := List.isEmpty_iff.mp h
        exact .inr (.inr .text)
      | bytes bs =>
        obtain rfl := List.isEmpty_iff.mp h
        exact .inr (.inr .bytes)
      | date | moment => cases h
    | list items =>
      obtain rfl := List.isEmpty_iff.mp h
      exact .inr (.inr .list)
    | tuple members =>
      obtain rfl := List.isEmpty_iff.mp h
      exact .inr (.inr .tuple)
    | mapping entries =>
      obtain rfl := List.isEmpty_iff.mp h
      exact .inr (.inl rfl)
    | set members =>
      obtain rfl := List.isEmpty_iff.mp h
      exact .inr (.inr .set)
  · rintro (rfl | rfl | h)
    · rfl
    · rfl
    · cases h <;> rfl

theorem Level.IsBlank.ne_null {α : Type} {level : Level α} (h : level.IsBlank) :
    level ≠ .scalar .null := by
  cases h <;> exact fun heq => by cases heq

theorem Level.IsBlank.ne_mapping {α : Type} {level : Level α} (h : level.IsBlank) (entries : Entries α) :
    level ≠ .mapping entries := by
  cases h <;> exact fun heq => by cases heq

namespace Settings

/-- **What the settings of a file with a value are to be**: the default ones if the value is null, what
    validation says of it if it is a mapping, and none if it is anything else. A mapping is validated as the
    value that it unfolds to; one that contains itself unfolds to none, and it is validated as what it is
    down to any depth at which fields can lie. -/
structure FollowsValue (g : Graph) (result : Except LoadError Settings) : Prop where
  null : g.level g.root = .scalar .null → result = .ok {}
  unfolded : ∀ entries v, g.level g.root = .mapping entries → g.view.Shows g.root v →
    result = (validate v).mapError .invalid
  truncated : ∀ entries n, g.level g.root = .mapping entries → depth ≤ n →
    result = (validate (g.toValue n g.root)).mapError .invalid
  other : g.level g.root ≠ .scalar .null → (∀ entries, g.level g.root ≠ .mapping entries) →
    result = .error .notMapping

variable {g : Graph}

theorem ofFileValue_of_isNothing (h : (g.level g.root).isNothing = true) : ofFileValue g = .ok {} := by
  rw [ofFileValue, if_pos h]
  rfl

theorem toValue_eq_mapping_nil (h : g.level g.root = .mapping []) {n : Nat} (hn : depth ≤ n) :
    g.toValue n g.root = .mapping [] := by
  obtain ⟨k, rfl⟩ := Nat.exists_eq_add_of_le' hn
  show g.toValue (k + 2 + 1) g.root = _
  rw [Graph.toValue, h]
  rfl

/-- A mapping is validated as what it is down to any depth at which fields can lie. -/
theorem ofFileValue_of_mapping {entries : Entries Nat} (h : g.level g.root = .mapping entries) {n : Nat}
    (hn : depth ≤ n) : ofFileValue g = (validate (g.toValue n g.root)).mapError .invalid := by
  cases entries with
  | nil =>
    rw [toValue_eq_mapping_nil h hn, ofFileValue_of_isNothing (by rw [h]; rfl)]
    rfl
  | cons e rest =>
    have hvalue : g.toValue depth g.root
        = .mapping ((e :: rest).map fun e => (e.1, g.toValue 2 e.2)) := by
      show g.toValue (2 + 1) g.root = _
      rw [Graph.toValue, h]
    have hsome : ¬(g.level g.root).isNothing = true := by
      rw [h]
      exact Bool.false_ne_true
    rw [← validate_truncate (Nat.le_refl depth) (g.toValue n g.root), Graph.truncate_toValue hn, ofFileValue,
      if_neg hsome, hvalue]

/-- What does not count as nothing and is no mapping has no settings. -/
theorem ofFileValue_of_other (hsome : ¬(g.level g.root).isNothing = true)
    (h : ∀ entries, g.level g.root ≠ .mapping entries) : ofFileValue g = .error .notMapping := by
  rw [ofFileValue, if_neg hsome]
  have hvalue : ∀ entries, g.toValue depth g.root ≠ .mapping entries := by
    intro entries
    show g.toValue (2 + 1) g.root ≠ _
    rw [Graph.toValue]
    cases hlevel : g.level g.root with
    | mapping entries => exact absurd hlevel (h entries)
    | _ => exact fun heq => by cases heq
  cases hroot : g.toValue depth g.root with
  | mapping entries => exact absurd hroot (hvalue entries)
  | _ => rfl

theorem ofFileValue_follows_iff : FollowsValue g (ofFileValue g) ↔ ¬(g.level g.root).IsBlank := by
  constructor
  · intro h hblank
    have herror := h.other hblank.ne_null hblank.ne_mapping
    rw [ofFileValue_of_isNothing ((Level.isNothing_iff _).mpr (.inr (.inr hblank)))] at herror
    cases herror
  · intro hblank
    refine ⟨fun hnull => ?_, fun entries v hmapping hv => ?_, fun entries n hmapping hn => ?_,
      fun hnull hmapping => ?_⟩
    · exact ofFileValue_of_isNothing ((Level.isNothing_iff _).mpr (.inl hnull))
    · rw [ofFileValue_of_mapping hmapping (Nat.le_refl depth), Graph.truncate_of_shows hv,
        validate_truncate (Nat.le_refl depth)]
    · exact ofFileValue_of_mapping hmapping hn
    · refine ofFileValue_of_other (fun hnothing => ?_) hmapping
      rcases (Level.isNothing_iff _).mp hnothing with h | h | h
      · exact hnull h
      · exact hmapping [] h
      · exact hblank h

/-- **Only null and mappings have settings, but for what counts as nothing beside them.** Bytes that are no
    data file have no settings. A file with a value has the default settings if the value is null, those that
    validation gives if it is a mapping, and none otherwise, exactly if the value is none of false, zero and
    the empty text, bytes, list, tuple and set; each of these has the default settings too. -/
theorem load_follows_iff (bytes : List UInt8) :
    (Yaml.loadBytes bytes = .error .malformed → load (.bytes bytes) = .error .unparsed) ∧
    ∀ g, Yaml.loadBytes bytes = .ok g →
      (FollowsValue g (load (.bytes bytes)) ↔ ¬(g.level g.root).IsBlank) ∧
        ((g.level g.root).IsBlank → load (.bytes bytes) = .ok {}) := by
  refine ⟨fun h => by rw [load, h], fun g h => ?_⟩
  have hload : load (.bytes bytes) = ofFileValue g := by rw [load, h]
  rw [hload]
  exact ⟨ofFileValue_follows_iff, fun hblank =>
    ofFileValue_of_isNothing ((Level.isNothing_iff _).mpr (.inr (.inr hblank)))⟩

deriving instance DecidableEq for Level, Graph

/-- A mapping of settings whose names contain themselves is validated like any other. -/
theorem load_follows_self :
    let bytes := "names: &n {runtime: ctx, self: *n}".toUTF8.data.toList
    (∃ g, Yaml.loadBytes bytes = .ok g ∧ ¬(g.level g.root).IsBlank ∧
      FollowsValue g (load (.bytes bytes))) ∧
    Yaml.loadBytes "[".toUTF8.data.toList = .error .malformed ∧
      load (.bytes "[".toUTF8.data.toList) = .error .unparsed := by
  intro bytes
  let g : Graph := ⟨#[.mapping [(.text "names", 2)], .scalar (.text "names"),
    .mapping [(.text "runtime", 4), (.text "self", 2)], .scalar (.text "runtime"), .scalar (.text "ctx"),
    .scalar (.text "self")], 0⟩
  have hload : Yaml.loadBytes bytes = .ok g := by decide +kernel
  have hopen : Yaml.loadBytes "[".toUTF8.data.toList = .error .malformed := by decide +kernel
  have hblank : ¬(g.level g.root).IsBlank := fun h => h.ne_mapping [(.text "names", 2)] rfl
  exact ⟨⟨g, hload, hblank, (((load_follows_iff bytes).2 g hload).1).mpr hblank⟩, hopen,
    (load_follows_iff _).1 hopen⟩

/-- An empty list is no mapping, and a file that holds one has the default settings. -/
theorem load_empty_list :
    ∃ g, Yaml.loadBytes "[]".toUTF8.data.toList = .ok g ∧ g.level g.root = .list [] ∧
      load (.bytes "[]".toUTF8.data.toList) = .ok {} ∧
      ¬FollowsValue g (load (.bytes "[]".toUTF8.data.toList)) := by
  have hload : Yaml.loadBytes "[]".toUTF8.data.toList = .ok ⟨#[.list []], 0⟩ := by decide +kernel
  have hdefault : load (.bytes "[]".toUTF8.data.toList) = .ok {} := by
    rw [load, hload]
    rfl
  refine ⟨_, hload, rfl, hdefault, fun h => ?_⟩
  have herror := h.other (fun heq => by cases heq) fun entries heq => by cases heq
  rw [hdefault] at herror
  cases herror

end Settings

end TemplateTree
