import TemplateTree.Settings.Validation

/-!
# Names that passed their validation

What validation promises of the six names of the runtime (`RuntimeNames.Valid`): each is a name, and
that of the runtime itself does not start like the variables of loops. Settings that passed hold such
names, and two texts (`Settings.valid_of_validate`).
-/

namespace TemplateTree

/-- All names are names, and that of the runtime does not start with an underscore. -/
structure RuntimeNames.Valid (n : RuntimeNames) : Prop where
  runtime : Identifier.isName n.runtime = true
  commands : Identifier.isName n.commands = true
  isEmpty : Identifier.isName n.isEmpty = true
  areAllEqual : Identifier.isName n.areAllEqual = true
  elements : Identifier.isName n.elements = true
  assign : Identifier.isName n.assign = true
  runtime_head : n.runtime.head? ≠ some (.scalar '_')

namespace Checked

theorem isName_of_name {t u : Text} (h : name t = .ok u) : Identifier.isName u = true := by
  unfold name at h
  split at h
  · rename_i ht
    obtain rfl : t = u := by simpa using h
    exact ht
  · cases h

theorem isName_of_runtimeName {t u : Text} (h : runtimeName t = .ok u) :
    Identifier.isName u = true ∧ u.head? ≠ some (.scalar '_') := by
  unfold runtimeName at h
  cases ht : name t with
  | error c =>
    rw [ht] at h
    cases h
  | ok w =>
    rw [ht] at h
    simp only [bind, Except.bind] at h
    split at h
    · cases h
    · rename_i hw
      obtain rfl : w = u := by simpa using h
      exact ⟨isName_of_name ht, hw⟩

theorem isName_of_entrypoint {t u : Text} (h : entrypoint t = .ok u) :
    Identifier.isName u = true := by
  unfold entrypoint at h
  split at h
  · rename_i ht
    obtain rfl : t = u := by simpa using h
    exact ht
  · cases h

/-- A field that passed holds its default or what its check let through. -/
theorem of_field {entries : Entries Value} {key default u : Text} {check : Text → Checked}
    {P : Text → Prop} (h : field entries key default check = .ok u) (hdefault : P default)
    (hcheck : ∀ t w, check t = .ok w → P w) : P u := by
  unfold field at h
  split at h
  · obtain rfl : default = u := by simpa using h
    exact hdefault
  · rename_i v _
    cases hv : ofValue v with
    | error c =>
      rw [hv] at h
      cases h
    | ok t =>
      rw [hv] at h
      exact hcheck t u h

theorem eq_ok_of_errors {c : Checked} {place : List Text} (h : c.errors place = []) :
    c = .ok c.get := by
  cases c with
  | ok t => rfl
  | error e => cases h

end Checked

theorem eq_of_unlessErrors {α : Type} {errors : FieldErrors} {value a : α}
    (h : unlessErrors errors value = .ok a) : errors = [] ∧ value = a := by
  unfold unlessErrors at h
  split at h
  · exact ⟨rfl, by simpa using h⟩
  · cases h

theorem mapError_eq_ok_iff {ε ε' α : Type} {x : Except ε α} {f : ε → ε'} {a : α} :
    x.mapError f = .ok a ↔ x = .ok a := by
  cases x with
  | error e =>
    constructor
    · intro h
      cases h
    · intro h
      cases h
  | ok b =>
    constructor
    · intro h
      rw [Except.ok.inj h]
    · intro h
      rw [Except.ok.inj h]
      rfl

/-- The default names are names. -/
theorem RuntimeNames.valid_default : RuntimeNames.Valid {} where
  runtime := by decide
  commands := by decide
  isEmpty := by decide
  areAllEqual := by decide
  elements := by decide
  assign := by decide
  runtime_head := by decide

/-- **Names that passed their validation are valid.** -/
theorem RuntimeNames.valid_of_validate {v : Value} {n : RuntimeNames} (h : validate v = .ok n) :
    n.Valid := by
  unfold validate at h
  split at h
  · cases h
  · obtain ⟨herrors, rfl⟩ := eq_of_unlessErrors h
    simp only [List.append_eq_nil_iff] at herrors
    obtain ⟨⟨⟨⟨⟨h1, h2⟩, h3⟩, h4⟩, h5⟩, h6⟩ := herrors
    have hd := RuntimeNames.valid_default
    have hr := Checked.of_field (P := fun u => Identifier.isName u = true ∧ u.head? ≠ some (.scalar '_'))
      (Checked.eq_ok_of_errors h1) ⟨hd.runtime, hd.runtime_head⟩
      fun _ _ => Checked.isName_of_runtimeName
    exact {
      runtime := hr.1
      commands := Checked.of_field (Checked.eq_ok_of_errors h2) hd.commands
        fun _ _ => Checked.isName_of_name
      isEmpty := Checked.of_field (Checked.eq_ok_of_errors h3) hd.isEmpty
        fun _ _ => Checked.isName_of_name
      areAllEqual := Checked.of_field (Checked.eq_ok_of_errors h4) hd.areAllEqual
        fun _ _ => Checked.isName_of_name
      elements := Checked.of_field (Checked.eq_ok_of_errors h5) hd.elements
        fun _ _ => Checked.isName_of_name
      assign := Checked.of_field (Checked.eq_ok_of_errors h6) hd.assign
        fun _ _ => Checked.isName_of_name
      runtime_head := hr.2 }

namespace Settings

theorem valid_of_names? {entries : Entries Value} {n : RuntimeNames} (h : names? entries = .ok n) :
    n.Valid := by
  unfold names? at h
  split at h
  · obtain rfl : {} = n := by simpa using h
    exact RuntimeNames.valid_default
  · exact RuntimeNames.valid_of_validate (mapError_eq_ok_iff.mp h)

/-- **Settings that passed their validation** have valid names, and texts as marker and entrypoint. -/
theorem valid_of_validate {v : Value} {s : Settings} (h : validate v = .ok s) :
    s.names.Valid ∧ (∃ marker, s.negationMarker = .ofText marker) ∧
      ∃ entrypoint, s.entrypoint = .ofText entrypoint := by
  unfold validate at h
  split at h
  · cases h
  · rename_i entries _
    obtain ⟨-, rfl⟩ := eq_of_unlessErrors h
    refine ⟨?_, ⟨_, rfl⟩, _, rfl⟩
    cases hnames : names? entries with
    | error es => exact RuntimeNames.valid_default
    | ok n => exact valid_of_names? hnames

/-- The entrypoint of settings that passed their validation is a name. -/
theorem entrypoint_of_validate {v : Value} {s : Settings} (h : validate v = .ok s) :
    ∃ entrypoint, s.entrypoint = .ofText entrypoint ∧ Identifier.isName entrypoint = true := by
  unfold validate at h
  split at h
  · cases h
  · obtain ⟨herrors, rfl⟩ := eq_of_unlessErrors h
    simp only [List.append_eq_nil_iff] at herrors
    exact ⟨_, rfl, Checked.of_field (Checked.eq_ok_of_errors herrors.2) (by decide)
      fun _ _ => Checked.isName_of_entrypoint⟩

end Settings

end TemplateTree
