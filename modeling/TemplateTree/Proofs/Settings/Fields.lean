import TemplateTree.Proofs.Settings.Names

/-!
# Which settings are valid, and what is wrong with the others

Settings are a mapping of fields, six of which are grouped as the names. What each of them must be stands in
one table (`Settings.rules`), in the order in which they are reported, the two mappings included. This file
says

* what a field that is given must be (`FieldRule.Meets`), and what is wrong with one that is not
  (`FieldRule.Breaks`): the first check that fails;
* that validation goes through the table (`Settings.validate_cases`), so that it succeeds exactly if every
  field that is given is what it must be, and else reports each that is not, once and in order;
* what the settings hold then (`Settings.Holds`), and that written out again they are valid and the same
  (`Settings.validate_toValue`).

All of it together is `Settings.validate_exact`.
-/

namespace TemplateTree

/-! ## 1. Texts -/

/-- **A value spells a text**: it is the text, or the bytes that encode it. -/
inductive Value.Spells : Value → Text → Prop
  | text (t : Text) : Spells (.ofText t) t
  | bytes (s : String) : Spells (.scalar (.bytes s.toUTF8.data.toList)) (.ofString s)

theorem fromUTF8?_eq_some_iff {bytes : List UInt8} {s : String} :
    String.fromUTF8? ⟨bytes.toArray⟩ = some s ↔ bytes = s.toUTF8.data.toList := by
  constructor
  · intro h
    unfold String.fromUTF8? at h
    split at h
    · rw [← Option.some.inj h]
      rfl
    · cases h
  · intro h
    subst h
    show String.fromUTF8? s.toByteArray = some s
    rw [String.fromUTF8?, dif_pos s.isValidUTF8]
    rfl

theorem Checked.ofValue_eq_ok_iff {v : Value} {t : Text} : ofValue v = .ok t ↔ v.Spells t := by
  constructor
  · intro h
    unfold ofValue at h
    split at h
    · obtain rfl := Except.ok.inj h
      exact .text _
    · split at h
      · rename_i s hs
        rw [fromUTF8?_eq_some_iff.mp hs, ← Except.ok.inj h]
        exact .bytes s
      · cases h
    · cases h
  · intro h
    cases h with
    | text => rfl
    | bytes s => simp only [ofValue, fromUTF8?_eq_some_iff.mpr (Eq.refl s.toUTF8.data.toList)]

/-- What a text of the settings must be besides. -/
inductive TextRule where
  | any
  | name
  | runtimeName
  | entrypoint
deriving DecidableEq, Repr

namespace TextRule

/-- A text is what a rule wants it to be. -/
def Admits : TextRule → Text → Prop
  | any, _ => True
  | name, t => Identifier.isName t = true
  | runtimeName, t => Identifier.isName t = true ∧ t.head? ≠ some (.scalar '_')
  | entrypoint, t => Identifier.isName t = true

/-- What is wrong with a text that is not what a rule wants it to be. Whether it is a name is asked
    first. -/
inductive Breaks : TextRule → Text → Complaint → Prop
  | notName {t : Text} (h : Identifier.isName t = false) : Breaks name t (.notName t)
  | notRuntimeName {t : Text} (h : Identifier.isName t = false) : Breaks runtimeName t (.notName t)
  | underscored {t : Text} (hname : Identifier.isName t = true)
      (hhead : t.head? = some (.scalar '_')) : Breaks runtimeName t (.underscored t)
  | badEntrypoint {t : Text} (h : Identifier.isName t = false) : Breaks entrypoint t (.badEntrypoint t)

/-- The check of a rule. -/
def check : TextRule → Text → Checked
  | any => .ok
  | name => Checked.name
  | runtimeName => Checked.runtimeName
  | entrypoint => Checked.entrypoint

theorem check_eq_ok_iff {rule : TextRule} {t u : Text} :
    rule.check t = .ok u ↔ rule.Admits t ∧ t = u := by
  cases rule with
  | any => simp [check, Admits]
  | name | entrypoint =>
    by_cases hname : Identifier.isName t = true <;>
      simp [check, Checked.name, Checked.entrypoint, Admits, hname]
  | runtimeName =>
    by_cases hname : Identifier.isName t = true
    · by_cases hhead : t.head? = some (.scalar '_') <;>
        simp [check, Checked.runtimeName, Checked.name, Admits, hname, hhead, bind, Except.bind]
    · simp [check, Checked.runtimeName, Checked.name, Admits, hname, bind, Except.bind]

/-- **The check of a rule finds the first thing that is wrong.** -/
theorem check_eq_error_iff {rule : TextRule} {t : Text} {c : Complaint} :
    rule.check t = .error c ↔ rule.Breaks t c := by
  constructor
  · intro h
    cases rule with
    | any => cases h
    | name =>
      by_cases hname : Identifier.isName t = true
      · simp [check, Checked.name, hname] at h
      · simp only [check, Checked.name, hname] at h
        cases h
        exact .notName (by simpa using hname)
    | entrypoint =>
      by_cases hname : Identifier.isName t = true
      · simp [check, Checked.entrypoint, hname] at h
      · simp only [check, Checked.entrypoint, hname] at h
        cases h
        exact .badEntrypoint (by simpa using hname)
    | runtimeName =>
      by_cases hname : Identifier.isName t = true
      · by_cases hhead : t.head? = some (.scalar '_')
        · simp only [check, Checked.runtimeName, Checked.name, hname, bind, Except.bind, if_true] at h
          rw [if_pos hhead] at h
          cases h
          exact .underscored hname hhead
        · simp [check, Checked.runtimeName, Checked.name, hname, hhead, bind, Except.bind] at h
      · simp only [check, Checked.runtimeName, Checked.name, hname, bind, Except.bind] at h
        cases h
        exact .notRuntimeName (by simpa using hname)
  · intro h
    cases h with
    | notName h => simp [check, Checked.name, h]
    | badEntrypoint h => simp [check, Checked.entrypoint, h]
    | notRuntimeName h => simp [check, Checked.runtimeName, Checked.name, h, bind, Except.bind]
    | underscored hname hhead =>
      simp [check, Checked.runtimeName, Checked.name, hname, hhead, bind, Except.bind]

end TextRule

/-! ## 2. Fields -/

/-- What the value of a field must be. -/
inductive FieldRule where
  /-- A mapping, for a group of fields. -/
  | group (name : Text)
  | text (rule : TextRule)
deriving DecidableEq, Repr

namespace FieldRule

/-- A value is what a rule wants it to be. -/
def Meets : FieldRule → Value → Prop
  | group _, v => ∃ entries, v = .mapping entries
  | text rule, v => ∃ t, v.Spells t ∧ rule.Admits t

/-- What is wrong with a value that is not what a rule wants it to be. Whether it is a text at all is asked
    first. -/
inductive Breaks : FieldRule → Value → Complaint → Prop
  | notMapping {name : Text} {v : Value} (h : ∀ entries, v ≠ .mapping entries) :
      Breaks (group name) v (.notMapping name)
  | notText {rule : TextRule} {v : Value} (h : ∀ t, ¬ v.Spells t)
      (hbytes : ∀ bytes, v ≠ .scalar (.bytes bytes)) : Breaks (text rule) v .notText
  | notUnicode {rule : TextRule} {bytes : List UInt8}
      (h : ∀ t, ¬ Value.Spells (.scalar (.bytes bytes)) t) :
      Breaks (text rule) (.scalar (.bytes bytes)) .notUnicode
  | text {rule : TextRule} {v : Value} {t : Text} {c : Complaint} (h : v.Spells t)
      (hc : rule.Breaks t c) : Breaks (text rule) v c

/-- What a rule reports of a value at a place. -/
def errors (place : List Text) : FieldRule → Value → FieldErrors
  | group name, v => v.entries?.elim [⟨place, .notMapping name⟩] fun _ => []
  | text rule, v => Checked.errors place (Checked.ofValue v >>= rule.check)

theorem ofValue_eq_error_iff (rule : TextRule) {v : Value} {c : Complaint} :
    Checked.ofValue v = .error c ↔ (∀ t, ¬ v.Spells t) ∧ (text rule).Breaks v c := by
  constructor
  · intro h
    have hspells : ∀ t, ¬ v.Spells t := by
      intro t ht
      rw [Checked.ofValue_eq_ok_iff.mpr ht] at h
      cases h
    refine ⟨hspells, ?_⟩
    unfold Checked.ofValue at h
    split at h
    · cases h
    · split at h <;> cases h
      exact .notUnicode hspells
    · rename_i hbytes
      cases h
      exact .notText hspells hbytes
  · intro h
    obtain ⟨hspells, h⟩ := h
    cases h with
    | notText _ hbytes =>
      unfold Checked.ofValue
      split
      · exact absurd (.text _) (hspells _)
      · exact absurd rfl (hbytes _)
      · rfl
    | notUnicode =>
      simp only [Checked.ofValue]
      split
      · rename_i s hs
        rw [fromUTF8?_eq_some_iff.mp hs] at hspells
        exact absurd (.bytes s) (hspells _)
      · rfl
    | text ht => exact absurd ht (hspells _)

/-- **A rule reports what is wrong with a value**, at its place, and nothing else. -/
theorem mem_errors_iff {place : List Text} {rule : FieldRule} {v : Value} {e : FieldError} :
    e ∈ rule.errors place v ↔ e.place = place ∧ rule.Breaks v e.complaint := by
  obtain ⟨place', c⟩ := e
  cases rule with
  | group name =>
    have hbreaks : (group name).Breaks v c ↔ (∀ entries, v ≠ .mapping entries) ∧ c = .notMapping name := by
      constructor
      · intro h
        cases h with
        | notMapping h => exact ⟨h, rfl⟩
      · intro h
        exact h.2 ▸ .notMapping h.1
    rw [hbreaks]
    cases v <;> simp [errors, Value.entries?]
  | text rule =>
    have herrors (x : Checked) : ⟨place', c⟩ ∈ x.errors place ↔ place' = place ∧ x = .error c := by
      cases x with
      | ok t => simp [Checked.errors]
      | error c' => simp [Checked.errors, eq_comm]
    rw [errors, herrors]
    refine and_congr_right fun _ => ?_
    cases hv : Checked.ofValue v with
    | error c' =>
      obtain ⟨hspells, -⟩ := (ofValue_eq_error_iff rule).mp hv
      show (Except.error c' : Checked) = .error c ↔ _
      rw [← hv, ofValue_eq_error_iff rule, and_iff_right hspells]
    | ok t =>
      have ht := Checked.ofValue_eq_ok_iff.mp hv
      show rule.check t = _ ↔ _
      rw [TextRule.check_eq_error_iff]
      constructor
      · exact .text ht
      · intro h
        cases h with
        | notText h => exact absurd ht (h t)
        | notUnicode h => exact absurd ht (h t)
        | text ht' hc =>
          rw [Checked.ofValue_eq_ok_iff.mpr ht'] at hv
          exact Except.ok.inj hv ▸ hc

theorem errors_eq_nil_iff {place : List Text} {rule : FieldRule} {v : Value} :
    rule.errors place v = [] ↔ rule.Meets v := by
  cases rule with
  | group name => cases v <;> simp [errors, Value.entries?, Meets]
  | text rule =>
    have herrors (x : Checked) : x.errors place = [] ↔ ∃ t, x = .ok t := by
      cases x with
      | ok t => simp [Checked.errors]
      | error c => simp [Checked.errors]
    rw [errors, herrors, Meets]
    constructor
    · intro h
      obtain ⟨u, hu⟩ := h
      cases hv : Checked.ofValue v with
      | error c =>
        rw [hv] at hu
        cases hu
      | ok t =>
        rw [hv] at hu
        exact ⟨t, Checked.ofValue_eq_ok_iff.mp hv, (TextRule.check_eq_ok_iff.mp hu).1⟩
    · intro h
      obtain ⟨t, ht, hadmits⟩ := h
      rw [Checked.ofValue_eq_ok_iff.mpr ht]
      exact ⟨t, TextRule.check_eq_ok_iff.mpr ⟨hadmits, rfl⟩⟩

/-- A rule reports one thing at most. -/
theorem places_errors_sublist (place : List Text) (rule : FieldRule) (v : Value) :
    ((rule.errors place v).map FieldError.place).Sublist [place] := by
  cases rule with
  | group name => cases v <;> simp [errors, Value.entries?]
  | text rule =>
    rw [errors]
    cases Checked.ofValue v >>= rule.check with
    | ok t => exact List.nil_sublist _
    | error c => exact List.Sublist.refl _

end FieldRule

/-! ## 3. The table of fields -/

/-- What lies in a value at the end of a path of keys. -/
def Value.at? : List Text → Value → Option Value
  | [], v => some v
  | key :: path, v => (v.entries?.bind (Entries.find? key)).bind (at? path)

/-- What the names must be, by their keys. -/
def RuntimeNames.rules : List (Text × TextRule) := [
  ("runtime", .runtimeName), ("commands", .name), ("is_empty", .name), ("are_all_equal", .name),
  ("elements", .name), ("set", .name)]

namespace Settings

/-- What the names among the settings must be, by their places. -/
def nameRules : List (List Text × FieldRule) :=
  (["names"], .group "RuntimeNames") ::
    RuntimeNames.rules.map fun r => ([Text.ofString "names", r.1], .text r.2)

/-- **What the fields of settings must be**, by their places and in the order in which they are
    reported. -/
def rules : List (List Text × FieldRule) :=
  let others : List (List Text × FieldRule) :=
    [(["negation_marker"], .text .any), (["entrypoint"], .text .entrypoint)]
  ([], .group "CompilerConfig") :: nameRules ++ others

/-- What is reported of the field at a place, if it is given. -/
def reportsAt (v : Value) (field : List Text × FieldRule) : FieldErrors :=
  (v.at? field.1).elim [] (field.2.errors field.1)

/-- What is reported of the fields of a value, one after the other. -/
def reports (v : Value) : FieldErrors := rules.flatMap (reportsAt v)

theorem mem_reports_iff {v : Value} {e : FieldError} :
    e ∈ reports v ↔ ∃ rule w, (e.place, rule) ∈ rules ∧ v.at? e.place = some w ∧
      rule.Breaks w e.complaint := by
  rw [reports, List.mem_flatMap]
  constructor
  · intro h
    obtain ⟨⟨place, rule⟩, hrule, he⟩ := h
    rw [reportsAt] at he
    cases hw : v.at? place with
    | none =>
      rw [hw] at he
      cases he
    | some w =>
      rw [hw] at he
      obtain ⟨rfl, hbreaks⟩ := FieldRule.mem_errors_iff.mp he
      exact ⟨rule, w, hrule, hw, hbreaks⟩
  · intro h
    obtain ⟨rule, w, hrule, hw, hbreaks⟩ := h
    refine ⟨_, hrule, ?_⟩
    rw [reportsAt, hw]
    exact FieldRule.mem_errors_iff.mpr ⟨rfl, hbreaks⟩

theorem reports_eq_nil_iff {v : Value} :
    reports v = [] ↔
      ∀ place rule w, (place, rule) ∈ rules → v.at? place = some w → rule.Meets w := by
  rw [reports, List.flatMap_eq_nil_iff]
  constructor
  · intro h place rule w hrule hw
    have hnil := h _ hrule
    rw [reportsAt, hw] at hnil
    exact FieldRule.errors_eq_nil_iff.mp hnil
  · intro h field hfield
    rw [reportsAt]
    cases hw : v.at? field.1 with
    | none => rfl
    | some w => exact FieldRule.errors_eq_nil_iff.mpr (h field.1 field.2 w hfield hw)

/-- Fields are reported in the order of the table, and none twice. -/
theorem places_reports_sublist (v : Value) :
    ((reports v).map FieldError.place).Sublist (rules.map Prod.fst) := by
  rw [reports]
  induction rules with
  | nil => exact List.Sublist.refl _
  | cons field rest ih =>
    have hfirst : ((reportsAt v field).map FieldError.place).Sublist [field.1] := by
      rw [reportsAt]
      cases v.at? field.1 with
      | none => exact List.nil_sublist _
      | some w => exact FieldRule.places_errors_sublist field.1 field.2 w
    rw [List.flatMap_cons, List.map_append]
    exact hfirst.append ih

end Settings

/-! ## 4. Settings written out -/

/-- The names as a mapping. -/
def RuntimeNames.toEntries (n : RuntimeNames) : Entries Value := [
  (.text "runtime", .ofText n.runtime), (.text "commands", .ofText n.commands),
  (.text "is_empty", .ofText n.isEmpty), (.text "are_all_equal", .ofText n.areAllEqual),
  (.text "elements", .ofText n.elements), (.text "set", .ofText n.assign)]

/-- The settings as a mapping. -/
def Settings.toValue (s : Settings) : Value := .mapping [
  (.text "names", .mapping s.names.toEntries), (.text "negation_marker", s.negationMarker),
  (.text "entrypoint", s.entrypoint)]

/-- What is held is the text that is given, or the default where none is given. -/
def IsKept (given default held : Option Value) : Prop :=
  ∃ t, held = some (.ofText t) ∧
    ((given = none ∧ default = some (.ofText t)) ∨ ∃ w, given = some w ∧ w.Spells t)

/-- **Settings hold what a value gives for them**, and the defaults for what it does not. -/
def Settings.Holds (v : Value) (s : Settings) : Prop :=
  ∀ place rule, (place, .text rule) ∈ rules →
    IsKept (v.at? place) ((toValue {}).at? place) (s.toValue.at? place)

/-! ## 5. Validation goes through the table -/

namespace Checked

/-- A field that is given is checked. -/
theorem errors_field (entries : Entries Value) (key default : Text) (rule : TextRule)
    (place : List Text) :
    (field entries key default rule.check).errors place
      = (entries.find? key).elim [] ((FieldRule.text rule).errors place) := by
  rw [field]
  cases entries.find? key <;> rfl

/-- A field without an error has the text that is given, or its default. -/
theorem isKept_field {entries : Entries Value} {key default : Text} {rule : TextRule}
    {place : List Text} (h : (field entries key default rule.check).errors place = []) :
    IsKept (entries.find? key) (some (.ofText default))
      (some (.ofText (field entries key default rule.check).get)) := by
  have hok := eq_ok_of_errors h
  refine ⟨_, rfl, ?_⟩
  generalize (field entries key default rule.check).get = u at hok ⊢
  unfold field at hok
  split at hok
  · rename_i hnone
    exact .inl ⟨hnone, by rw [Except.ok.inj hok]⟩
  · rename_i w hw
    refine .inr ⟨w, hw, ?_⟩
    cases hv : ofValue w with
    | error c =>
      rw [hv] at hok
      cases hok
    | ok t =>
      rw [hv] at hok
      obtain ⟨-, rfl⟩ := TextRule.check_eq_ok_iff.mp hok
      exact ofValue_eq_ok_iff.mp hv

end Checked

theorem unlessErrors_cases {α : Type} (errors : FieldErrors) (value : α) :
    (errors = [] ∧ unlessErrors errors value = .ok value) ∨
      (errors ≠ [] ∧ unlessErrors errors value = .error errors) := by
  cases errors with
  | nil => exact .inl ⟨rfl, rfl⟩
  | cons e es => exact .inr ⟨List.cons_ne_nil e es, rfl⟩

namespace RuntimeNames

/-- What is reported of the names in a mapping, at their places in it. -/
def reports (entries : Entries Value) : FieldErrors :=
  rules.flatMap fun r => (entries.find? r.1).elim [] ((FieldRule.text r.2).errors [r.1])

/-- The names in a mapping go through their table. -/
theorem validate_cases (entries : Entries Value) :
    (reports entries = [] ∧ ∃ n, validate (.mapping entries) = .ok n ∧
        ∀ r ∈ rules, IsKept (entries.find? r.1) ((toEntries {}).find? r.1) (n.toEntries.find? r.1)) ∨
      (reports entries ≠ [] ∧ validate (.mapping entries) = .error (reports entries)) := by
  let d : RuntimeNames := {}
  let runtime := Checked.field entries "runtime" d.runtime TextRule.runtimeName.check
  let other (key default : Text) := Checked.field entries key default TextRule.name.check
  have hreports : reports entries
      = runtime.errors ["runtime"] ++ (other "commands" d.commands).errors ["commands"]
        ++ (other "is_empty" d.isEmpty).errors ["is_empty"]
        ++ (other "are_all_equal" d.areAllEqual).errors ["are_all_equal"]
        ++ (other "elements" d.elements).errors ["elements"] ++ (other "set" d.assign).errors ["set"] := by
    simp only [runtime, other, Checked.errors_field, reports, rules, List.flatMap_cons, List.flatMap_nil,
      List.append_nil, List.append_assoc]
  have hvalidate : validate (.mapping entries) = unlessErrors (reports entries)
      ⟨runtime.get, (other "commands" d.commands).get, (other "is_empty" d.isEmpty).get,
        (other "are_all_equal" d.areAllEqual).get, (other "elements" d.elements).get,
        (other "set" d.assign).get⟩ := by
    rw [hreports]
    rfl
  rcases unlessErrors_cases (reports entries) (_ : RuntimeNames) with ⟨hnil, hok⟩ | ⟨hsome, herror⟩
  · refine .inl ⟨hnil, _, hvalidate.trans hok, ?_⟩
    rw [hreports] at hnil
    simp only [List.append_eq_nil_iff] at hnil
    obtain ⟨⟨⟨⟨⟨h1, h2⟩, h3⟩, h4⟩, h5⟩, h6⟩ := hnil
    simp only [rules, List.forall_mem_cons]
    exact ⟨Checked.isKept_field h1, Checked.isKept_field h2, Checked.isKept_field h3,
      Checked.isKept_field h4, Checked.isKept_field h5, Checked.isKept_field h6, by simp⟩
  · exact .inr ⟨hsome, hvalidate.trans herror⟩

end RuntimeNames

namespace Settings

/-- What is reported of the names among the settings. -/
def nameReports (v : Value) : FieldErrors := nameRules.flatMap (reportsAt v)

theorem map_errors (key : Text) (place : List Text) (rule : FieldRule) (w : Value) :
    (rule.errors place w).map (fun e => { e with place := key :: e.place })
      = rule.errors (key :: place) w := by
  cases rule with
  | group name => cases w <;> rfl
  | text rule =>
    rw [FieldRule.errors, FieldRule.errors]
    cases Checked.ofValue w >>= rule.check <;> rfl

theorem at?_mapping (entries : Entries Value) (key : Text) :
    (Value.mapping entries).at? [key] = entries.find? key := by
  simp [Value.at?, Value.entries?]

theorem at?_names {v : Value} {w? : Option Value} (h : v.at? ["names"] = w?) (key : Text) :
    v.at? [Text.ofString "names", key] = (w?.bind Value.entries?).bind (Entries.find? key) := by
  subst h
  simp only [Value.at?, Option.bind_assoc, Option.bind_fun_some]

/-- What is reported of names is reported of them as a group, or of the single ones in it. -/
theorem nameReports_eq {v : Value} {w? : Option Value} (h : v.at? ["names"] = w?) :
    nameReports v = w?.elim [] ((FieldRule.group "RuntimeNames").errors ["names"])
      ++ ((w?.bind Value.entries?).elim [] RuntimeNames.reports).map fun e =>
        { e with place := Text.ofString "names" :: e.place } := by
  have hgroup : reportsAt v (["names"], .group "RuntimeNames")
      = w?.elim [] ((FieldRule.group "RuntimeNames").errors ["names"]) := by
    rw [reportsAt, h]
  rw [nameReports, nameRules, List.flatMap_cons, hgroup, List.flatMap_map]
  congr 1
  simp only [reportsAt, at?_names h]
  cases w?.bind Value.entries? with
  | none => simp
  | some names =>
    simp only [Option.bind_some, Option.elim_some, RuntimeNames.reports, List.map_flatMap]
    congr 1
    funext r
    cases names.find? r.1 with
    | none => rfl
    | some u => exact (map_errors "names" [r.1] (.text r.2) u).symm

theorem names?_cases (entries : Entries Value) :
    (nameReports (.mapping entries) = [] ∧ ∃ n, names? entries = .ok n ∧
        ∀ r ∈ RuntimeNames.rules, IsKept ((Value.mapping entries).at? [Text.ofString "names", r.1])
          ((RuntimeNames.toEntries {}).find? r.1) (n.toEntries.find? r.1)) ∨
      (nameReports (.mapping entries) ≠ [] ∧
        names? entries = .error (nameReports (.mapping entries))) := by
  have hat := at?_mapping entries "names"
  have hreports := nameReports_eq hat
  unfold names?
  cases hnames : entries.find? "names" with
  | none =>
    rw [hnames] at hreports hat
    refine .inl ⟨hreports, {}, rfl, ?_⟩
    simp only [at?_names hat, RuntimeNames.rules, List.forall_mem_cons]
    have hdefault (t : Text) : IsKept none (some (.ofText t)) (some (.ofText t)) :=
      ⟨t, rfl, .inl ⟨rfl, rfl⟩⟩
    exact ⟨hdefault _, hdefault _, hdefault _, hdefault _, hdefault _, hdefault _, by simp⟩
  | some w =>
    rw [hnames] at hreports hat
    simp only [at?_names hat]
    cases w with
    | mapping names =>
      simp only [Option.bind_some, Option.elim_some, Value.entries?, FieldRule.errors,
        List.nil_append] at hreports ⊢
      rcases RuntimeNames.validate_cases names with ⟨hnil, n, hok, hkept⟩ | ⟨hsome, herror⟩
      · rw [hreports, hnil, hok]
        exact .inl ⟨rfl, n, rfl, hkept⟩
      · rw [hreports, herror]
        exact .inr ⟨by simpa using hsome, rfl⟩
    | _ =>
      rw [hreports]
      exact .inr ⟨List.cons_ne_nil _ _, rfl⟩

theorem at?_toValue (s : Settings) (key : Text) :
    s.toValue.at? [Text.ofString "names", key] = s.names.toEntries.find? key := by
  have hnames : s.toValue.at? ["names"] = some (.mapping s.names.toEntries) := rfl
  exact at?_names hnames key

/-- Settings hold what is given if all their fields do. -/
theorem holds_of_fields {v : Value} {s : Settings}
    (hnames : ∀ r ∈ RuntimeNames.rules, IsKept (v.at? [Text.ofString "names", r.1])
      ((RuntimeNames.toEntries {}).find? r.1) (s.names.toEntries.find? r.1))
    (hmarker : IsKept (v.at? ["negation_marker"]) (some (.ofText "not")) (some s.negationMarker))
    (hentry : IsKept (v.at? ["entrypoint"]) (some (.ofText "render")) (some s.entrypoint)) :
    Holds v s := by
  intro place rule hrule
  simp only [rules, nameRules, List.cons_append, List.mem_cons, List.mem_append, List.mem_map,
    Prod.mk.injEq, reduceCtorEq, and_false, false_or, List.not_mem_nil, or_false] at hrule
  rcases hrule with ⟨r, hr, rfl, -⟩ | ⟨rfl, -⟩ | ⟨rfl, -⟩
  · rw [at?_toValue, at?_toValue]
    exact hnames r hr
  · exact hmarker
  · exact hentry

theorem validate_mapping_cases (entries : Entries Value) :
    (reports (.mapping entries) = [] ∧ ∃ s, validate (.mapping entries) = .ok s ∧
        Holds (.mapping entries) s) ∨
      (reports (.mapping entries) ≠ [] ∧
        validate (.mapping entries) = .error (reports (.mapping entries))) := by
  let marker := Checked.field entries "negation_marker" "not" TextRule.any.check
  let entry := Checked.field entries "entrypoint" "render" TextRule.entrypoint.check
  have hreports : reports (.mapping entries) = nameReports (.mapping entries)
      ++ marker.errors ["negation_marker"] ++ entry.errors ["entrypoint"] := by
    simp only [marker, entry, Checked.errors_field, ← at?_mapping]
    simp [reports, rules, reportsAt, nameReports, Value.at?, FieldRule.errors, Value.entries?]
  rcases names?_cases entries with ⟨hnil, n, hok, hkept⟩ | ⟨hsome, herror⟩
  · have hvalidate : validate (.mapping entries) = unlessErrors (reports (.mapping entries))
        ⟨n, .ofText marker.get, .ofText entry.get⟩ := by
      simp only [validate, Value.entries?, hok]
      rw [hreports, hnil]
      rfl
    rcases unlessErrors_cases (reports (.mapping entries)) (_ : Settings) with
      ⟨hnone, hvalid⟩ | ⟨hsome, hinvalid⟩
    · refine .inl ⟨hnone, _, hvalidate.trans hvalid, ?_⟩
      rw [hreports] at hnone
      simp only [List.append_eq_nil_iff] at hnone
      refine holds_of_fields hkept ?_ ?_
      · rw [at?_mapping]
        exact Checked.isKept_field hnone.1.2
      · rw [at?_mapping]
        exact Checked.isKept_field hnone.2
    · exact .inr ⟨hsome, hvalidate.trans hinvalid⟩
  · have hvalidate : validate (.mapping entries) = unlessErrors (reports (.mapping entries))
        ⟨{}, .ofText marker.get, .ofText entry.get⟩ := by
      simp only [validate, Value.entries?, herror]
      rw [hreports]
      rfl
    have hne : reports (.mapping entries) ≠ [] := by
      rw [hreports]
      simp [hsome]
    rcases unlessErrors_cases (reports (.mapping entries)) (_ : Settings) with ⟨hnil, -⟩ | ⟨-, hinvalid⟩
    · exact absurd hnil hne
    · exact .inr ⟨hne, hvalidate.trans hinvalid⟩

/-- **Validation goes through the table of fields.** -/
theorem validate_cases (v : Value) :
    (reports v = [] ∧ ∃ s, validate v = .ok s ∧ Holds v s) ∨
      (reports v ≠ [] ∧ validate v = .error (reports v)) := by
  cases v with
  | mapping entries => exact validate_mapping_cases entries
  | _ => exact .inr ⟨List.cons_ne_nil _ _, rfl⟩

theorem field_eq_ok {entries : Entries Value} {key t : Text} (default : Text) (rule : TextRule)
    (h : entries.find? key = some (.ofText t)) (hadmits : rule.Admits t) :
    Checked.field entries key default rule.check = .ok t := by
  rw [Checked.field, h]
  exact TextRule.check_eq_ok_iff.mpr ⟨hadmits, rfl⟩

theorem validate_toEntries {n : RuntimeNames} (h : n.Valid) :
    RuntimeNames.validate (.mapping n.toEntries) = .ok n := by
  let d : RuntimeNames := {}
  have h1 : Checked.field n.toEntries "runtime" d.runtime Checked.runtimeName = .ok n.runtime :=
    field_eq_ok _ .runtimeName rfl ⟨h.runtime, h.runtime_head⟩
  have h2 : Checked.field n.toEntries "commands" d.commands Checked.name = .ok n.commands :=
    field_eq_ok _ .name rfl h.commands
  have h3 : Checked.field n.toEntries "is_empty" d.isEmpty Checked.name = .ok n.isEmpty :=
    field_eq_ok _ .name rfl h.isEmpty
  have h4 : Checked.field n.toEntries "are_all_equal" d.areAllEqual Checked.name = .ok n.areAllEqual :=
    field_eq_ok _ .name rfl h.areAllEqual
  have h5 : Checked.field n.toEntries "elements" d.elements Checked.name = .ok n.elements :=
    field_eq_ok _ .name rfl h.elements
  have h6 : Checked.field n.toEntries "set" d.assign Checked.name = .ok n.assign :=
    field_eq_ok _ .name rfl h.assign
  simp only [RuntimeNames.validate, Value.entries?, d] at h1 h2 h3 h4 h5 h6 ⊢
  rw [h1, h2, h3, h4, h5, h6]
  rfl

/-- Settings that passed their validation are valid as they are written out. -/
theorem validate_toValue {v : Value} {s : Settings} (h : validate v = .ok s) :
    validate s.toValue = .ok s := by
  obtain ⟨hnames, ⟨marker, hmarker⟩, -⟩ := valid_of_validate h
  obtain ⟨entrypoint, hentry, hname⟩ := entrypoint_of_validate h
  obtain ⟨names, _, _⟩ := s
  subst hmarker
  subst hentry
  let entries : Entries Value := [(.text "names", .mapping names.toEntries),
    (.text "negation_marker", .ofText marker), (.text "entrypoint", .ofText entrypoint)]
  have h1 : names? entries = .ok names := by
    show (RuntimeNames.validate (.mapping names.toEntries)).mapError _ = _
    rw [validate_toEntries hnames]
    rfl
  have h2 (default : Text) : Checked.field entries "negation_marker" default .ok = .ok marker :=
    field_eq_ok _ .any rfl trivial
  have h3 (default : Text) :
      Checked.field entries "entrypoint" default Checked.entrypoint = .ok entrypoint :=
    field_eq_ok _ .entrypoint rfl hname
  show validate (.mapping entries) = _
  simp only [validate, Value.entries?, h1, h2, h3]
  rfl

/-- **Settings are valid exactly if every field that is given is what it must be.** They hold what is given
    then, and the defaults for the rest, and written out they are valid again and the same. Otherwise every
    field that is given and is not what it must be is reported, once and in the order of the fields, with the
    first check that it fails; and nothing else is. -/
theorem validate_exact (v : Value) :
    ((∃ s, validate v = .ok s) ↔
      ∀ place rule w, (place, rule) ∈ rules → v.at? place = some w → rule.Meets w) ∧
    (∀ s, validate v = .ok s → Holds v s ∧ validate s.toValue = .ok s) ∧
    ∀ errors, validate v = .error errors →
      errors ≠ [] ∧ (errors.map FieldError.place).Sublist (rules.map Prod.fst) ∧
        ∀ place c, ⟨place, c⟩ ∈ errors ↔
          ∃ rule w, (place, rule) ∈ rules ∧ v.at? place = some w ∧ rule.Breaks w c := by
  rcases validate_cases v with ⟨hnil, s, hok, hholds⟩ | ⟨hsome, herror⟩
  · refine ⟨⟨fun _ => reports_eq_nil_iff.mp hnil, fun _ => ⟨s, hok⟩⟩, fun s' hs' => ?_, fun errors h => ?_⟩
    · obtain rfl := Except.ok.inj (hok.symm.trans hs')
      exact ⟨hholds, validate_toValue hok⟩
    · cases hok.symm.trans h
  · refine ⟨⟨fun h => ?_, fun h => absurd (reports_eq_nil_iff.mpr h) hsome⟩, fun s hs => ?_,
      fun errors h => ?_⟩
    · obtain ⟨s, hs⟩ := h
      cases herror.symm.trans hs
    · cases herror.symm.trans hs
    · obtain rfl := Except.error.inj (herror.symm.trans h)
      exact ⟨hsome, places_reports_sublist v, fun place c => mem_reports_iff⟩

/-- Bytes count as the text that they encode, though they are no text. -/
theorem validate_bytes :
    let v := Value.mapping [(.text "negation_marker", .scalar (.bytes [0x6e, 0x6f, 0x74]))]
    (∃ w, v.at? ["negation_marker"] = some w ∧ ∀ t, w ≠ .ofText t) ∧
      validate v = .ok { negationMarker := .ofText "not" } := by
  intro v
  have htext : Checked.ofValue (.scalar (.bytes [0x6e, 0x6f, 0x74])) = .ok "not" :=
    Checked.ofValue_eq_ok_iff.mpr (.bytes "not")
  have hfield (default : Text) : Checked.field
      [(.text "negation_marker", .scalar (.bytes [0x6e, 0x6f, 0x74]))] "negation_marker" default .ok
        = .ok "not" := by
    show (Checked.ofValue _ >>= Except.ok) = _
    rw [htext]
    rfl
  refine ⟨⟨_, rfl, fun t h => by cases h⟩, ?_⟩
  simp only [v, validate, Value.entries?, hfield]
  rfl

end Settings

end TemplateTree
