import Mathlib.Algebra.Group.Nat.Defs
import TemplateTree.Yaml.Scalar

/-!
# Scalars without a value

A scalar has a tag, by its spelling or because it is given one, and need not have a value of that tag: the
calendar may not have the date, a number may have no digits or too many. This file says which texts have no
value of a tag (`Yaml.NoValue`), each with the fault that is met in reading it, and that these are all faults
of scalars but for the malformed ones (`Yaml.scalarValue_eq_error_iff`).
-/

namespace TemplateTree.Yaml

/-! ## 1. Texts without a value -/

/-- A number without its sign. -/
def digitsOf : Text → Text
  | .scalar '-' :: rest => rest
  | .scalar '+' :: rest => rest
  | t => t

/-- The numerals that an integer without a sign is made of, each with its base. -/
def integerNumerals (t : Text) : List (Nat × Text) :=
  match t with
  | .scalar '0' :: .scalar 'b' :: ds => [(2, ds)]
  | .scalar '0' :: .scalar 'x' :: ds => [(16, ds)]
  | .scalar '0' :: _ => [(8, t)]
  | _ => if t.contains (.scalar ':') then (colonParts t).map fun ds => (10, ds) else [(10, t)]

/-- The numerals that a double without a sign is made of; the words for what is not finite are made of
    none. -/
def doubleNumerals (t : Text) : List Text :=
  if t = Text.ofString ".inf" ∨ t = Text.ofString ".nan" then []
  else if t.contains (.scalar ':') then colonParts t
  else [t]

/-- The parts of the moment that a text spells. -/
def spelledMoment? (t : Text) : Option MomentParts :=
  (t.chars?.map withoutFinalBreak).bind momentParts?

/-- **A text has no value of a tag**, for a fault. -/
inductive NoValue : Tag → Text → Fault → Prop
  /-- The text is no word for a truth value. -/
  | truth {t : Text} (h : ∀ w ∈ truthWords, Text.ofString w.1 ≠ t.map lower) : NoValue .bool t .badTruth
  /-- The integer has nothing but a sign and marks that group digits. -/
  | emptyInteger {t : Text} (h : digitsOf (ungrouped t) = []) : NoValue .int t .emptyNumber
  /-- A numeral of the integer is none, or has too many digits. -/
  | integer {t ds : Text} {base : Nat} (hsome : digitsOf (ungrouped t) ≠ [])
      (h : (base, ds) ∈ integerNumerals (digitsOf (ungrouped t)))
      (hds : Numeral.integer? base ds = none) : NoValue .int t .badNumber
  /-- The double has nothing but marks that group digits. -/
  | emptyDouble {t : Text} (h : ungrouped t = []) : NoValue .float t .emptyNumber
  /-- A numeral of the double is none. -/
  | double {t ds : Text} (hsome : ungrouped t ≠ [])
      (h : ds ∈ doubleNumerals (digitsOf ((ungrouped t).map lower))) (hds : Numeral.double? ds = none) :
      NoValue .float t .badNumber
  /-- The double has so many parts in base sixty that a power of sixty is too large. -/
  | hugeDouble {t : Text} {k : Nat}
      (h : ∀ ds ∈ doubleNumerals (digitsOf ((ungrouped t).map lower)), Numeral.double? ds ≠ none)
      (hk : k < (doubleNumerals (digitsOf ((ungrouped t).map lower))).length)
      (hpower : Binary64.ofNat? (60 ^ k) = none) : NoValue .float t .hugeNumber
  /-- The text is not written as a moment. -/
  | moment {t : Text} (h : spelledMoment? t = none) : NoValue .moment t .badMoment
  /-- The calendar has no such date. -/
  | date {t : Text} {p : MomentParts} (h : spelledMoment? t = some p)
      (hdate : Date.of? p.year p.month p.day = none) : NoValue .moment t .badDate
  /-- The clock has no such time. -/
  | time {t : Text} {p : MomentParts} {date : Date} {hour minute second : Nat}
      (h : spelledMoment? t = some p) (hdate : Date.of? p.year p.month p.day = some date)
      (htime : p.time = some (hour, minute, second))
      (hmoment : Moment.of? date hour minute second p.microsecond p.offset = none) :
      NoValue .moment t .badDate

/-! ## 2. Integers -/

section

variable {α β ε : Type}

/-- A row fails for the only fault that its members can have exactly if one of them has it. -/
theorem mapM_eq_error_iff {f : α → Except ε β} {fault : ε} (hf : ∀ a e, f a = .error e → e = fault)
    {as : List α} {e : ε} :
    as.mapM f = .error e ↔ e = fault ∧ ∃ a ∈ as, f a = .error fault := by
  induction as with
  | nil => exact iff_of_false (fun h => by cases h) fun h => by simpa using h.2
  | cons a as ih =>
    rw [List.mapM_cons]
    cases ha : f a with
    | error e' =>
      obtain rfl := hf a e' ha
      refine ⟨fun h => ?_, fun h => ?_⟩
      · exact ⟨(Except.error.inj h).symm, a, List.mem_cons_self, ha⟩
      · rw [h.1]
        rfl
    | ok b =>
      have hrest : (∃ x ∈ a :: as, f x = .error fault) ↔ ∃ x ∈ as, f x = .error fault := by
        constructor
        · intro h
          obtain ⟨x, hx, herror⟩ := h
          rcases List.mem_cons.mp hx with rfl | hx
          · cases ha.symm.trans herror
          · exact ⟨x, hx, herror⟩
        · intro h
          obtain ⟨x, hx, herror⟩ := h
          exact ⟨x, List.mem_cons_of_mem a hx, herror⟩
      rw [hrest, ← ih]
      cases as.mapM f with
      | error e' => exact Iff.rfl
      | ok bs => exact iff_of_false (fun h => by cases h) fun h => by cases h

theorem length_of_mapM_eq_ok {f : α → Except ε β} {as : List α} {bs : List β} (h : as.mapM f = .ok bs) :
    bs.length = as.length := by
  induction as generalizing bs with
  | nil =>
    cases h
    rfl
  | cons a as ih =>
    rw [List.mapM_cons] at h
    cases ha : f a with
    | error e =>
      rw [ha] at h
      cases h
    | ok b =>
      rw [ha] at h
      cases has : as.mapM f with
      | error e =>
        rw [has] at h
        cases h
      | ok rest =>
        rw [has] at h
        cases h
        rw [List.length_cons, List.length_cons, ih has]

theorem map_eq_error_iff {x : Except ε α} {g : α → β} {e : ε} : x.map g = .error e ↔ x = .error e := by
  cases x with
  | error e' => exact ⟨fun h => congrArg Except.error (Except.error.inj h), fun h => by cases h; rfl⟩
  | ok a => exact iff_of_false (fun h => by cases h) fun h => by cases h

theorem bind_pure_eq_error_iff {x : Except ε α} {g : α → β} {e : ε} :
    (x >>= fun a => pure (g a)) = .error e ↔ x = .error e :=
  map_eq_error_iff (g := g)

end

theorem integer_eq_error_iff {base : Nat} {t : Text} {f : Fault} :
    integer base t = .error f ↔ f = .badNumber ∧ Numeral.integer? base t = none := by
  rw [Yaml.integer]
  cases Numeral.integer? base t with
  | some n => exact iff_of_false (fun h => by cases h) fun h => by cases h.2
  | none => exact ⟨fun h => ⟨(Except.error.inj h).symm, rfl⟩, fun h => by rw [h.1]⟩

theorem double_eq_error_iff {t : Text} {f : Fault} :
    double t = .error f ↔ f = .badNumber ∧ Numeral.double? t = none := by
  rw [Yaml.double]
  cases Numeral.double? t with
  | some d => exact iff_of_false (fun h => by cases h) fun h => by cases h.2
  | none => exact ⟨fun h => ⟨(Except.error.inj h).symm, rfl⟩, fun h => by rw [h.1]⟩

theorem integerNumerals_octal {rest : Text} (hb : ∀ ds, rest ≠ .scalar 'b' :: ds)
    (hx : ∀ ds, rest ≠ .scalar 'x' :: ds) :
    integerNumerals (.scalar '0' :: rest) = [(8, .scalar '0' :: rest)] := by
  unfold integerNumerals
  split
  · rename_i ds h
    exact absurd (List.cons.inj h).2 (hb ds)
  · rename_i ds h
    exact absurd (List.cons.inj h).2 (hx ds)
  · rfl
  · rename_i h
    exact absurd rfl (h rest)

theorem integerNumerals_decimal {t : Text} (h0 : ∀ rest, t ≠ .scalar '0' :: rest) :
    integerNumerals t =
      if t.contains (.scalar ':') then (colonParts t).map fun ds => (10, ds) else [(10, t)] := by
  unfold integerNumerals
  split
  · exact absurd rfl (h0 _)
  · exact absurd rfl (h0 _)
  · exact absurd rfl (h0 _)
  · rfl

/-- An integer without a sign fails for one of its numerals. -/
theorem magnitude_eq_error_iff {t : Text} (ht : t ≠ []) {f : Fault} :
    magnitude t = .error f ↔
      f = .badNumber ∧ ∃ base ds, (base, ds) ∈ integerNumerals t ∧ Numeral.integer? base ds = none := by
  have hsingle (base : Nat) (ds : Text) (h : integerNumerals t = [(base, ds)]) :
      integer base ds = .error f ↔
        f = .badNumber ∧ ∃ base ds, (base, ds) ∈ integerNumerals t ∧ Numeral.integer? base ds = none := by
    rw [integer_eq_error_iff, h]
    refine and_congr_right fun _ => ⟨fun h => ⟨base, ds, List.mem_singleton_self _, h⟩, fun h => ?_⟩
    obtain ⟨base', ds', hmem, hnone⟩ := h
    cases List.mem_singleton.mp hmem
    exact hnone
  unfold magnitude
  split
  · exact absurd rfl ht
  · rw [← hsingle 8 (Text.ofString "0") rfl]
    exact iff_of_false (fun h => by cases h) fun h => by cases h
  · exact hsingle 2 _ rfl
  · exact hsingle 16 _ rfl
  · rename_i hb hx
    exact hsingle 8 _ (integerNumerals_octal hb hx)
  · rename_i h0
    have hnumerals := integerNumerals_decimal h0
    by_cases hcolon : t.contains (.scalar ':')
    · rw [if_pos hcolon] at hnumerals ⊢
      rw [bind_pure_eq_error_iff, mapM_eq_error_iff fun ds e h => (integer_eq_error_iff.mp h).1, hnumerals]
      refine and_congr_right fun _ => ⟨fun h => ?_, fun h => ?_⟩
      · obtain ⟨ds, hds, herror⟩ := h
        exact ⟨10, ds, List.mem_map_of_mem hds, (integer_eq_error_iff.mp herror).2⟩
      · obtain ⟨base, ds, hds, hnone⟩ := h
        obtain ⟨ds', hds', heq⟩ := List.mem_map.mp hds
        cases heq
        exact ⟨ds, hds', integer_eq_error_iff.mpr ⟨rfl, hnone⟩⟩
    · rw [if_neg hcolon] at hnumerals ⊢
      exact hsingle 10 t hnumerals

theorem signed_eq {t : Text} (ht : t ≠ []) : ∃ negative, signed t = .ok (negative, digitsOf t) := by
  unfold signed digitsOf
  split
  · exact absurd rfl ht
  · exact ⟨true, rfl⟩
  · exact ⟨false, rfl⟩
  · rename_i hminus hplus
    refine ⟨false, ?_⟩
    split
    · exact absurd rfl (hminus _)
    · exact absurd rfl (hplus _)
    · rfl

/-- The sign of an integer does not matter, not even where nothing is behind it. -/
theorem intValue_eq_error_iff_magnitude {t : Text} {f : Fault} :
    intValue t = .error f ↔ magnitude (digitsOf (ungrouped t)) = .error f := by
  by_cases hempty : ungrouped t = []
  · rw [intValue, hempty]
    exact Iff.rfl
  · obtain ⟨negative, hsigned⟩ := signed_eq hempty
    rw [intValue, hsigned]
    exact bind_pure_eq_error_iff

/-- **An integer fails** if it has no digits, or for one of its numerals. -/
theorem intValue_eq_error_iff {t : Text} {f : Fault} : intValue t = .error f ↔ NoValue .int t f := by
  rw [intValue_eq_error_iff_magnitude]
  constructor
  · intro h
    by_cases hdigits : digitsOf (ungrouped t) = []
    · rw [hdigits] at h
      cases h
      exact .emptyInteger hdigits
    · obtain ⟨rfl, base, ds, hmem, hnone⟩ := (magnitude_eq_error_iff hdigits).mp h
      exact .integer hdigits hmem hnone
  · intro h
    cases h with
    | emptyInteger hdigits =>
      rw [hdigits]
      rfl
    | integer hdigits hmem hnone => exact (magnitude_eq_error_iff hdigits).mpr ⟨rfl, _, _, hmem, hnone⟩

/-! ## 3. Doubles -/

theorem sixtiethSum_eq_error_iff {power : Nat} {sum : Binary64} {ds : List Binary64} {f : Fault} :
    sixtiethSum power sum ds = .error f ↔
      f = .hugeNumber ∧ ∃ k < ds.length, Binary64.ofNat? (power * 60 ^ k) = none := by
  induction ds generalizing power sum with
  | nil => exact iff_of_false (fun h => by cases h) fun h => by simpa using h.2
  | cons d ds ih =>
    rw [sixtiethSum]
    cases hpower : Binary64.ofNat? power with
    | none =>
      constructor
      · intro h
        cases h
        exact ⟨rfl, 0, Nat.succ_pos _, by rw [Nat.pow_zero, Nat.mul_one, hpower]⟩
      · intro h
        rw [h.1]
    | some p =>
      dsimp only
      rw [ih]
      refine and_congr_right fun _ => ⟨fun h => ?_, fun h => ?_⟩
      · obtain ⟨k, hk, hnone⟩ := h
        exact ⟨k + 1, Nat.succ_lt_succ hk, by rwa [Nat.pow_succ', ← Nat.mul_assoc]⟩
      · obtain ⟨k, hk, hnone⟩ := h
        cases k with
        | zero =>
          rw [Nat.pow_zero, Nat.mul_one, hpower] at hnone
          cases hnone
        | succ k =>
          rw [Nat.pow_succ', ← Nat.mul_assoc] at hnone
          exact ⟨k, Nat.lt_of_succ_lt_succ hk, hnone⟩

/-- The numerals of a double make no double: one of them is none, or they are too many. -/
def NoDouble (numerals : List Text) (f : Fault) : Prop :=
  (f = .badNumber ∧ ∃ ds ∈ numerals, Numeral.double? ds = none) ∨
    f = .hugeNumber ∧ (∀ ds ∈ numerals, Numeral.double? ds ≠ none) ∧
      ∃ k < numerals.length, Binary64.ofNat? (60 ^ k) = none

theorem not_noDouble_nil (f : Fault) : ¬NoDouble [] f := by
  intro h
  rcases h with ⟨_, ds, hds, _⟩ | ⟨_, _, k, hk, _⟩
  · cases hds
  · cases hk

theorem double_eq_error_iff_noDouble {t : Text} {f : Fault} : double t = .error f ↔ NoDouble [t] f := by
  rw [double_eq_error_iff]
  constructor
  · intro h
    exact .inl ⟨h.1, t, List.mem_singleton_self t, h.2⟩
  · intro h
    rcases h with ⟨hf, ds, hds, hnone⟩ | ⟨_, _, k, hk, hpower⟩
    · rw [List.mem_singleton.mp hds] at hnone
      exact ⟨hf, hnone⟩
    · -- The least power of sixty is one, which is a double.
      obtain rfl : k = 0 := Nat.lt_one_iff.mp hk
      cases hpower

theorem mapM_double_eq_error_iff {numerals : List Text} {f : Fault} :
    numerals.mapM double = .error f ↔ f = .badNumber ∧ ∃ ds ∈ numerals, Numeral.double? ds = none := by
  rw [mapM_eq_error_iff fun ds e h => (double_eq_error_iff.mp h).1]
  simp only [double_eq_error_iff, true_and]

theorem sixtiethParts_eq_error_iff {numerals : List Text} {zero : Binary64} {f : Fault} :
    (numerals.mapM double >>= fun ds => sixtiethSum 1 zero ds.reverse) = .error f ↔ NoDouble numerals f := by
  cases hparts : numerals.mapM double with
  | error e =>
    obtain ⟨rfl, ds, hds, hnone⟩ := mapM_double_eq_error_iff.mp hparts
    constructor
    · intro h
      cases h
      exact .inl ⟨rfl, ds, hds, hnone⟩
    · intro h
      rcases h with ⟨rfl, _⟩ | ⟨_, hall, _⟩
      · rfl
      · exact absurd hnone (hall ds hds)
  | ok values =>
    have hall : ∀ ds ∈ numerals, Numeral.double? ds ≠ none := by
      intro ds hds hnone
      cases hparts.symm.trans (mapM_double_eq_error_iff.mpr ⟨rfl, ds, hds, hnone⟩)
    show sixtiethSum 1 zero values.reverse = _ ↔ _
    rw [sixtiethSum_eq_error_iff, List.length_reverse, length_of_mapM_eq_ok hparts]
    simp only [Nat.one_mul]
    constructor
    · intro h
      exact .inr ⟨h.1, hall, h.2⟩
    · intro h
      rcases h with ⟨_, ds, hds, hnone⟩ | ⟨hf, _, hpower⟩
      · exact absurd hnone (hall ds hds)
      · exact ⟨hf, hpower⟩

/-- A double with some characters fails for its numerals. -/
theorem floatValue_eq_error_iff_noDouble {t : Text} (ht : ungrouped t ≠ []) {f : Fault} :
    floatValue t = .error f ↔ NoDouble (doubleNumerals (digitsOf ((ungrouped t).map lower))) f := by
  obtain ⟨negative, hsigned⟩ := signed_eq fun h => ht (List.map_eq_nil_iff.mp h)
  rw [floatValue, hsigned]
  generalize digitsOf ((ungrouped t).map lower) = digits
  show (if digits = _ then _ else _) = _ ↔ _
  rw [doubleNumerals]
  by_cases hinf : digits = Text.ofString ".inf"
  · rw [if_pos hinf, if_pos (.inl hinf)]
    exact iff_of_false (fun h => by cases h) (not_noDouble_nil f)
  rw [if_neg hinf]
  by_cases hnan : digits = Text.ofString ".nan"
  · rw [if_pos hnan, if_pos (.inr hnan)]
    exact iff_of_false (fun h => by cases h) (not_noDouble_nil f)
  rw [if_neg hnan, if_neg (not_or.mpr ⟨hinf, hnan⟩)]
  by_cases hcolon : digits.contains (.scalar ':')
  · rw [if_pos hcolon, if_pos hcolon, ← sixtiethParts_eq_error_iff, ← bind_assoc]
    exact bind_pure_eq_error_iff
  · rw [if_neg hcolon, if_neg hcolon, ← double_eq_error_iff_noDouble]
    exact bind_pure_eq_error_iff

/-- **A double fails** if it has no characters, or for its numerals. -/
theorem floatValue_eq_error_iff {t : Text} {f : Fault} : floatValue t = .error f ↔ NoValue .float t f := by
  have hvalue (h : ungrouped t = []) : floatValue t = .error .emptyNumber := by
    rw [floatValue, h]
    rfl
  constructor
  · intro h
    by_cases hempty : ungrouped t = []
    · cases (hvalue hempty).symm.trans h
      exact .emptyDouble hempty
    · have hno := (floatValue_eq_error_iff_noDouble hempty).mp h
      rcases hno with ⟨rfl, ds, hds, hnone⟩ | ⟨rfl, hall, k, hk, hpower⟩
      · exact .double hempty hds hnone
      · exact .hugeDouble hall hk hpower
  · intro h
    cases h with
    | emptyDouble hempty => exact hvalue hempty
    | double hempty hds hnone =>
      exact (floatValue_eq_error_iff_noDouble hempty).mpr (.inl ⟨rfl, _, hds, hnone⟩)
    | hugeDouble hall hk hpower =>
      have hempty : ungrouped t ≠ [] := fun h => by
        rw [h] at hall
        exact hall [] (List.mem_singleton_self _) rfl
      exact (floatValue_eq_error_iff_noDouble hempty).mpr (.inr ⟨rfl, hall, _, hk, hpower⟩)

/-! ## 4. Truth values and moments -/

theorem truthValue_eq_error_iff {t : Text} {f : Fault} : truthValue t = .error f ↔ NoValue .bool t f := by
  rw [truthValue]
  cases hfind : truthWords.find? fun w => Text.ofString w.1 = t.map lower with
  | some w =>
    refine iff_of_false (fun h => by cases h) fun h => ?_
    cases h with
    | truth h =>
      have hword := List.find?_some hfind
      exact h w (List.mem_of_find?_eq_some hfind) (of_decide_eq_true hword)
  | none =>
    constructor
    · intro h
      cases h
      exact .truth fun w hw heq => List.find?_eq_none.mp hfind w hw (decide_eq_true heq)
    · intro h
      cases h
      rfl

/-- **A moment fails** if it is not written as one, or if there is no such date or time. -/
theorem momentValue_eq_error_iff {t : Text} {f : Fault} : momentValue t = .error f ↔ NoValue .moment t f := by
  have hspelled : (t.chars?.map withoutFinalBreak).bind momentParts? = spelledMoment? t := rfl
  rw [momentValue, hspelled]
  constructor
  · intro h
    cases hparts : spelledMoment? t with
    | none =>
      rw [hparts] at h
      cases h
      exact .moment hparts
    | some p =>
      rw [hparts] at h
      cases hdate : Date.of? p.year p.month p.day with
      | none =>
        simp only [hdate] at h
        cases h
        exact .date hparts hdate
      | some date =>
        cases htime : p.time with
        | none =>
          simp only [hdate, htime] at h
          cases h
        | some clock =>
          cases hmoment : Moment.of? date clock.1 clock.2.1 clock.2.2 p.microsecond p.offset with
          | none =>
            simp only [hdate, htime, hmoment] at h
            cases h
            exact .time hparts hdate htime hmoment
          | some m =>
            simp only [hdate, htime, hmoment] at h
            cases h
  · intro h
    cases h with
    | moment hparts => simp only [hparts]; rfl
    | date hparts hdate => simp only [hparts, hdate]; rfl
    | time hparts hdate htime hmoment => simp only [hparts, hdate, htime, hmoment]; rfl

/-! ## 5. All scalars -/

theorem eq_malformed_of_bytesValue {t : Text} {f : Fault} (h : bytesValue t = .error f) : f = .malformed := by
  unfold bytesValue at h
  split at h
  · split at h
    · split at h
      · cases h
      · exact (Except.error.inj h).symm
    · exact (Except.error.inj h).symm
  · exact (Except.error.inj h).symm

/-- **The faults of scalars** that are not malformed are those of texts that have no value of their tag. -/
theorem scalarValue_eq_error_iff {tag : Tag} {t : Text} {f : Fault} (hf : f ≠ .malformed) :
    scalarValue tag t = .error f ↔ NoValue tag t f := by
  have hother (h : scalarValue tag t = .error f → f = .malformed) (hno : ¬NoValue tag t f) :
      scalarValue tag t = .error f ↔ NoValue tag t f :=
    iff_of_false (fun herror => hf (h herror)) hno
  cases tag with
  | bool => exact map_eq_error_iff.trans truthValue_eq_error_iff
  | int => exact map_eq_error_iff.trans intValue_eq_error_iff
  | float => exact map_eq_error_iff.trans floatValue_eq_error_iff
  | moment => exact momentValue_eq_error_iff
  | binary =>
    exact hother (fun h => eq_malformed_of_bytesValue (map_eq_error_iff.mp h)) fun h => by cases h
  | null => exact hother (fun h => by cases h) fun h => by cases h
  | text => exact hother (fun h => by cases h) fun h => by cases h
  | _ => exact hother (fun h => (Except.error.inj h).symm) fun h => by cases h

end TemplateTree.Yaml
