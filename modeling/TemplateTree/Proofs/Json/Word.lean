import TemplateTree.Proofs.Json.Literal
import TemplateTree.Proofs.Number.Shortest
import TemplateTree.Yaml.Scalar

/-!
# Words and numbers of JSON documents in a data file

Null, truth values and numbers are written without quotes, as words of few characters
(`Json.Word`). In a data file a word has the type that its spelling shows: integers are read as they
are (`Yaml.scalarValue_integerChars`), and so are doubles, if their text has a point
(`Yaml.scalarValue_floatChars`). Without one the text of a double is no number there, but a text.
-/

namespace TemplateTree

/-! ## 1. Words -/

namespace Json

/-- The decimal digits. -/
def digitMarks : List Char := ['0', '1', '2', '3', '4', '5', '6', '7', '8', '9']

/-- The characters of words and numbers. -/
def wordMarks : List Char :=
  digitMarks ++ ['-', '+', '.', 'a', 'e', 'f', 'l', 'n', 'r', 's', 't', 'u']

/-- A word or a number: it starts with a letter or a digit, or with a digit behind a minus. -/
structure Word (w : List Char) : Prop where
  marks : ∀ c ∈ w, c ∈ wordMarks
  head : ∃ c rest, w = c :: rest ∧ (c ∈ digitMarks ++ ['f', 'n', 't'] ∨
    (c = '-' ∧ ∃ d rest', rest = d :: rest' ∧ d ∈ digitMarks))

/-- How a word starts. -/
theorem Word.cases_head {c : Char} {rest : List Char} (hw : Word (c :: rest)) :
    c ∈ digitMarks ++ ['f', 'n', 't'] ∨
      (c = '-' ∧ ∃ d rest', rest = d :: rest' ∧ d ∈ digitMarks) := by
  obtain ⟨_, _, heq, hhead⟩ := hw.head
  obtain ⟨rfl, rfl⟩ := List.cons.inj heq
  exact hhead

theorem isDigit_iff_mem {c : Char} : c.isDigit = true ↔ c ∈ digitMarks := by
  constructor
  · intro h
    have hbounds := Char.isDigit_iff_toNat.mp h
    have hnumber : ∀ n, '0'.toNat ≤ n → n ≤ '9'.toNat → Char.ofNat n ∈ digitMarks := by decide
    have := hnumber c.toNat hbounds.1 hbounds.2
    rwa [Char.ofNat_toNat] at this
  · have hall : ∀ c ∈ digitMarks, c.isDigit = true :=
      List.all_iff_forall_prop.mp (by decide)
    exact hall c

theorem mem_wordMarks {c : Char} (h : c ∈ digitMarks) : c ∈ wordMarks :=
  List.mem_append_left _ h

/-- The sign in front of a number. -/
def signChars (negative : Bool) : List Char := if negative then ['-'] else []

/-- A sign, a digit and further characters of numbers are a word. -/
theorem word_figure (negative : Bool) {d : Char} {rest : List Char} (hd : d ∈ digitMarks)
    (hrest : ∀ c ∈ rest, c ∈ wordMarks) : Word (signChars negative ++ d :: rest) where
  marks := by
    intro c hc
    cases negative with
    | false =>
      rcases List.mem_cons.mp hc with rfl | hc
      · exact mem_wordMarks hd
      · exact hrest c hc
    | true =>
      rcases List.mem_cons.mp hc with rfl | hc
      · decide
      · rcases List.mem_cons.mp hc with rfl | hc
        · exact mem_wordMarks hd
        · exact hrest c hc
  head := by
    cases negative with
    | false => exact ⟨d, rest, rfl, .inl (List.mem_append_left _ hd)⟩
    | true => exact ⟨'-', d :: rest, rfl, .inr ⟨rfl, d, rest, rfl, hd⟩⟩

end Json

/-! ## 2. Numerals -/

open Json

theorem map_eq_self {α : Type} {f : α → α} {xs : List α} (h : ∀ x ∈ xs, f x = x) : xs.map f = xs := by
  rw [List.map_congr_left h, List.map_id']

namespace Numeral

/-- Words are read without change. -/
theorem trimmed_word {w : List Char} (hw : ∀ c ∈ w, c ∈ wordMarks) :
    trimmed (Text.ofChars w) = w := by
  have hplain : ∀ c ∈ wordMarks, plain (.scalar c) = c :=
    List.all_iff_forall_prop.mp (by decide)
  have hmap : (Text.ofChars w).map plain = w := by
    rw [Text.ofChars, List.map_map]
    exact map_eq_self fun c hc => hplain c (hw c hc)
  have hdrop : ∀ v : List Char, (∀ c ∈ v, c ∈ wordMarks) → v.dropWhile (· == ' ') = v := by
    intro v hv
    cases v with
    | nil => rfl
    | cons c rest =>
      have hblank : ∀ c ∈ wordMarks, (c == ' ') = false :=
        List.all_iff_forall_prop.mp (by decide)
      rw [List.dropWhile_cons_of_neg (by simp [hblank c (hv c (by simp))])]
  show (((((Text.ofChars w).map plain).dropWhile (· == ' ')).reverse.dropWhile (· == ' ')).reverse) = w
  rw [hmap, hdrop w hw, hdrop w.reverse (by simpa using hw), List.reverse_reverse]

theorem signed_figure {d : Char} (hd : d ∈ digitMarks) (rest : List Char) :
    signed (d :: rest) = (false, d :: rest) := by
  simp only [digitMarks, List.mem_cons, List.not_mem_nil, or_false] at hd
  rcases hd with rfl | rfl | rfl | rfl | rfl | rfl | rfl | rfl | rfl | rfl <;> rfl

/-- Digits are read as an integer, unless there are too many. -/
theorem integer?_toDigits {n : ℕ} (hn : n < 10 ^ Decimal.maxDigits) :
    integer? 10 (Text.ofChars (Nat.toDigits 10 n)) = some (n : ℤ) := by
  have hmarks : ∀ c ∈ Nat.toDigits 10 n, c ∈ digitMarks := fun c hc =>
    isDigit_iff_mem.mp (isDigit_toDigits n c hc)
  have hlength : ¬Decimal.maxDigits < (Nat.toDigits 10 n).length := by
    rw [not_lt]
    exact (Nat.length_toDigits_le_iff (by decide) (by decide)).mpr hn
  have hread := natural?_toDigits n
  obtain ⟨d, rest, hdigits⟩ := List.exists_cons_of_ne_nil (Nat.toDigits_ne_nil (b := 10) (n := n))
  unfold integer?
  rw [trimmed_word fun c hc => mem_wordMarks (hmarks c hc)]
  rw [hdigits] at hmarks hlength hread ⊢
  rw [signed_figure (hmarks d (by simp))]
  have hmark : withoutMark 10 (d :: rest) = d :: rest := rfl
  simp only [hmark, hread]
  simp only [List.isEmpty_cons, Bool.false_or, beq_self_eq_true, Bool.true_and, decide_eq_true_eq,
    if_neg hlength]
  rfl

/-- **A decimal with a point is read as the double to which it is rounded.** -/
theorem double?_pointed (p : Shortest.Pointed) (hmarks : ∀ c ∈ p.chars, c ∈ wordMarks) :
    double? (Text.ofChars p.chars) = some (Binary64.ofDecimal false p.digits p.lastExponent) := by
  have hread := decimal?_pointed p false
  obtain ⟨d, rest, hwhole⟩ := List.exists_cons_of_ne_nil p.whole_ne
  have hchars : ∃ more, p.chars = d :: more := by
    rw [Shortest.Pointed.chars, hwhole]
    exact ⟨_, rfl⟩
  have hd : d ∈ digitMarks := isDigit_iff_mem.mp (p.isDigit_whole d (by simp [hwhole]))
  obtain ⟨more, hmore⟩ := hchars
  have hword : ∀ w ∈ ["inf", "infinity", "nan"],
      (String.ofList ((d :: more).map Char.toLower) == w) = false := by
    intro w hw
    rw [beq_eq_false_iff_ne]
    intro heq
    have hhead := congrArg (fun s : String => s.toList.head?) heq
    rw [String.toList_ofList, List.map_cons, List.head?_cons] at hhead
    have hall : ∀ d ∈ digitMarks, ∀ w ∈ ["inf", "infinity", "nan"],
        some d.toLower ≠ w.toList.head? :=
      List.all_iff_forall_prop.mp (by decide)
    exact hall d hd w hw hhead
  unfold double?
  rw [trimmed_word hmarks, hmore, signed_figure hd]
  dsimp only
  rw [hword "inf" (by simp), hword "infinity" (by simp), hword "nan" (by simp), ← hmore, hread]
  rfl

end Numeral

/-! ## 3. Types -/

namespace Yaml

/-- The type of a word is not changed by what stands at its end. -/
theorem ofSpelling_word {w : List Char} (hw : Word w) : Tag.ofSpelling w = .ofWord w := by
  obtain ⟨c, rest, rfl, -⟩ := hw.head
  have hlast : (c :: rest).getLast? ≠ some '\n' := by
    intro h
    exact absurd (hw.marks '\n' (List.mem_of_getLast? h)) (by decide)
  have hkept : withoutFinalBreak (c :: rest) = c :: rest := if_neg hlast
  rw [Tag.ofSpelling, if_neg (by simp), hkept]

section

variable (negative : Bool) {d : Char} (hd : d ∈ digitMarks) (rest : List Char)

include hd

/-- A number is no word with a meaning of its own. -/
theorem ofWord_figure :
    Tag.ofWord (signChars negative ++ d :: rest) =
      if spellsFloat (signChars negative ++ d :: rest) then .float
      else if spellsInt (signChars negative ++ d :: rest) then .int
      else if spellsMoment (signChars negative ++ d :: rest) then .moment
      else .text := by
  simp only [digitMarks, List.mem_cons, List.not_mem_nil, or_false] at hd
  rcases hd with rfl | rfl | rfl | rfl | rfl | rfl | rfl | rfl | rfl | rfl <;>
    cases negative <;> rfl

theorem spellsFloat_figure :
    spellsFloat (signChars negative ++ d :: rest) =
      (spellsFraction (rest.dropWhile (isDigitOf 10)) ||
        (sixtieths? (rest.dropWhile (isDigitOf 10))).any spellsPlaces) := by
  simp only [digitMarks, List.mem_cons, List.not_mem_nil, or_false] at hd
  rcases hd with rfl | rfl | rfl | rfl | rfl | rfl | rfl | rfl | rfl | rfl <;>
    cases negative <;> rfl

theorem spellsInt_figure (hzero : d ≠ '0') :
    spellsInt (signChars negative ++ d :: rest) =
      ((rest.dropWhile (isDigitOf 10)).isEmpty ||
        sixtieths? (rest.dropWhile (isDigitOf 10)) = some []) := by
  simp only [digitMarks, List.mem_cons, List.not_mem_nil, or_false] at hd
  rcases hd with rfl | rfl | rfl | rfl | rfl | rfl | rfl | rfl | rfl | rfl
  · exact absurd rfl hzero
  all_goals cases negative <;> rfl

/-- A digit and an exponent without a point are a text. -/
theorem ofWord_pointless : Tag.ofWord (signChars negative ++ d :: 'e' :: rest) = .text := by
  have hfloat : spellsFloat (signChars negative ++ d :: 'e' :: rest) = false := by
    rw [spellsFloat_figure negative hd]
    rfl
  have hother : spellsInt (signChars negative ++ d :: 'e' :: rest) = false ∧
      spellsMoment (signChars negative ++ d :: 'e' :: rest) = false := by
    simp only [digitMarks, List.mem_cons, List.not_mem_nil, or_false] at hd
    rcases hd with rfl | rfl | rfl | rfl | rfl | rfl | rfl | rfl | rfl | rfl <;>
      cases negative <;> exact ⟨rfl, rfl⟩
  rw [ofWord_figure negative hd, hfloat, hother.1, hother.2]
  rfl

end

theorem isDigitOf_ten : ∀ c ∈ digitMarks, isDigitOf 10 c = true :=
  List.all_iff_forall_prop.mp (by decide)

theorem dropWhile_digits {ds rest : List Char} (hds : ∀ c ∈ ds, c ∈ digitMarks) :
    (ds ++ rest).dropWhile (isDigitOf 10) = rest.dropWhile (isDigitOf 10) :=
  List.dropWhile_append_of_pos fun c hc => isDigitOf_ten c (hds c hc)

/-! ## 4. Values -/

section

variable {w : List Char} (hw : ∀ c ∈ w, c ∈ wordMarks)

include hw

theorem ungrouped_word : ungrouped (Text.ofChars w) = Text.ofChars w := by
  have hall : ∀ c ∈ wordMarks, (CodePoint.scalar c != .scalar '_') = true :=
    List.all_iff_forall_prop.mp (by decide)
  rw [ungrouped, List.filter_eq_self]
  intro c hc
  obtain ⟨d, hd, rfl⟩ := List.mem_map.mp hc
  exact hall d (hw d hd)

theorem map_lower_word : (Text.ofChars w).map lower = Text.ofChars w := by
  have hall : ∀ c ∈ wordMarks, lower (.scalar c) = .scalar c :=
    List.all_iff_forall_prop.mp (by decide)
  apply map_eq_self
  intro c hc
  obtain ⟨d, hd, rfl⟩ := List.mem_map.mp hc
  exact hall d (hw d hd)

theorem contains_colon_word : (Text.ofChars w).contains (.scalar ':') = false := by
  rw [Bool.eq_false_iff]
  intro h
  rw [List.contains_iff_mem] at h
  obtain ⟨d, hd, heq⟩ := List.mem_map.mp h
  rw [CodePoint.scalar.inj heq] at hd
  exact absurd (hw ':' hd) (by decide)

end

theorem signed_figure (negative : Bool) {d : Char} (hd : d ∈ digitMarks) (rest : List Char) :
    signed (Text.ofChars (signChars negative ++ d :: rest))
      = .ok (negative, Text.ofChars (d :: rest)) := by
  simp only [digitMarks, List.mem_cons, List.not_mem_nil, or_false] at hd
  rcases hd with rfl | rfl | rfl | rfl | rfl | rfl | rfl | rfl | rfl | rfl <;>
    cases negative <;> rfl

/-- Only zero is written with a zero in front. -/
theorem head_toDigits {n : ℕ} (hn : n ≠ 0) :
    ∃ d rest, Nat.toDigits 10 n = d :: rest ∧ d ≠ '0' := by
  induction n using Nat.strongRecOn with
  | ind n ih =>
    by_cases hlt : n < 10
    · have hall : ∀ n < 10, n ≠ 0 → Nat.digitChar n ≠ '0' := by decide
      exact ⟨_, [], Nat.toDigits_of_lt_base hlt, hall n hlt hn⟩
    · obtain ⟨d, rest, heq, hd⟩ := ih (n / 10) (by omega) (by omega)
      rw [Nat.toDigits_of_base_le (by decide) (by omega), heq]
      exact ⟨d, _, rfl, hd⟩

theorem magnitude_toDigits {n : ℕ} (hn : n < 10 ^ Decimal.maxDigits) :
    magnitude (Text.ofChars (Nat.toDigits 10 n)) = .ok (n : ℤ) := by
  by_cases hzero : n = 0
  · rw [hzero]
    rfl
  · have hread := Numeral.integer?_toDigits hn
    have hmarks : ∀ c ∈ Nat.toDigits 10 n, c ∈ digitMarks := fun c hc =>
      isDigit_iff_mem.mp (Numeral.isDigit_toDigits n c hc)
    have hcolon := contains_colon_word fun c hc => mem_wordMarks (hmarks c hc)
    obtain ⟨d, rest, heq, hd⟩ := head_toDigits hzero
    rw [heq] at hmarks hread hcolon ⊢
    have hinteger : integer 10 (Text.ofChars (d :: rest)) = .ok (n : ℤ) := by
      rw [integer, hread]
    have hother : magnitude (Text.ofChars (d :: rest)) =
        if (Text.ofChars (d :: rest)).contains (.scalar ':') then
          return (← (colonParts (Text.ofChars (d :: rest))).mapM (integer 10)).foldl
            (fun n d => n * 60 + d) 0
        else integer 10 (Text.ofChars (d :: rest)) := by
      have hmark := hmarks d (by simp)
      simp only [digitMarks, List.mem_cons, List.not_mem_nil, or_false] at hmark
      rcases hmark with rfl | rfl | rfl | rfl | rfl | rfl | rfl | rfl | rfl | rfl
      · exact absurd rfl hd
      all_goals rfl
    rw [hother, hcolon, hinteger]
    rfl

/-- The characters of an integer: its sign, and digits of which only zero has a zero in front. -/
theorem integerChars_eq (n : ℤ) :
    integerChars n = signChars (n < 0) ++ Nat.toDigits 10 n.natAbs := by
  by_cases hn : n < 0 <;> simp [integerChars, signChars, hn]

theorem word_integerChars (n : ℤ) : Word (integerChars n) := by
  have hmarks : ∀ c ∈ Nat.toDigits 10 n.natAbs, c ∈ digitMarks := fun c hc =>
    isDigit_iff_mem.mp (Numeral.isDigit_toDigits _ c hc)
  rw [integerChars_eq]
  obtain ⟨d, rest, heq⟩ := List.exists_cons_of_ne_nil (Nat.toDigits_ne_nil (b := 10) (n := n.natAbs))
  rw [heq] at hmarks ⊢
  exact word_figure _ (hmarks d (by simp)) fun c hc => mem_wordMarks (hmarks c (by simp [hc]))

theorem ofWord_integerChars (n : ℤ) : Tag.ofWord (integerChars n) = .int := by
  have hmarks : ∀ c ∈ Nat.toDigits 10 n.natAbs, c ∈ digitMarks := fun c hc =>
    isDigit_iff_mem.mp (Numeral.isDigit_toDigits _ c hc)
  by_cases hzero : n = 0
  · rw [hzero]
    rfl
  · obtain ⟨d, rest, heq, hd⟩ := head_toDigits (n := n.natAbs) (by omega)
    rw [integerChars_eq, heq]
    rw [heq] at hmarks
    have hbehind : rest.dropWhile (isDigitOf 10) = [] := by
      rw [← List.append_nil rest, dropWhile_digits fun c hc => hmarks c (List.mem_cons_of_mem d hc)]
      rfl
    have hmark := hmarks d (by simp)
    rw [ofWord_figure _ hmark, spellsFloat_figure _ hmark, spellsInt_figure _ hmark _ hd, hbehind]
    rfl

/-- **An integer is read as itself.** -/
theorem scalarValue_integerChars {n : ℤ} (hn : Decimal.fits n = true) :
    scalarValue (.ofSpelling (integerChars n)) (Text.ofChars (integerChars n)) = .ok (.int n) := by
  have hword := word_integerChars n
  have hpow (k : ℕ) (h : n.natAbs < Nat.pow 10 k) : n.natAbs < 10 ^ k := h
  have hfits := hpow Decimal.maxDigits (of_decide_eq_true hn)
  have hmagnitude := magnitude_toDigits hfits
  have hsigned : signed (Text.ofChars (integerChars n))
      = .ok (decide (n < 0), Text.ofChars (Nat.toDigits 10 n.natAbs)) := by
    obtain ⟨d, rest, heq⟩ :=
      List.exists_cons_of_ne_nil (Nat.toDigits_ne_nil (b := 10) (n := n.natAbs))
    have hd : d ∈ digitMarks :=
      isDigit_iff_mem.mp (Numeral.isDigit_toDigits n.natAbs d (by simp [heq]))
    rw [integerChars_eq, heq, signed_figure _ hd]
  have hvalue : intValue (Text.ofChars (integerChars n)) = .ok n := by
    rw [intValue, ungrouped_word hword.marks, hsigned]
    simp only [bind, Except.bind, hmagnitude]
    refine congrArg Except.ok ?_
    by_cases hneg : n < 0
    · rw [if_pos (decide_eq_true hneg)]
      omega
    · rw [if_neg (by simpa using hneg)]
      omega
  rw [ofSpelling_word hword, ofWord_integerChars, scalarValue, hvalue]
  rfl

/-- The characters of a double: its sign, and a decimal with a point that is rounded to it, or one
    digit with an exponent. -/
theorem floatChars_cases (d : Finite64) :
    (∃ p : Shortest.Pointed, floatChars d = signChars d.negative ++ p.chars ∧
      Binary64.ofDecimal false p.digits p.lastExponent = .finite false d.mantissa d.exponent) ∨
      ∃ c e, floatChars d = signChars d.negative ++ c :: Shortest.powerChars (some e) ∧
        c ∈ digitMarks := by
  by_cases hd : d.mantissa = 0
  · left
    refine ⟨⟨['0'], ['0'], none, by simp, by simp, by simp⟩, ?_, ?_⟩
    · simp [floatChars, hd, signChars, Shortest.Pointed.chars, Shortest.powerChars]
    · have hexponent : d.exponent = Binary64.minExponent := by
        rcases d.normal with h | h
        · omega
        · exact h
      rw [hd, hexponent]
      rfl
  · obtain ⟨ds, point, hpositive, hne, hdigits, hrounds⟩ := Shortest.digits_rounds hd
    have hchars : floatChars d = signChars d.negative ++ Shortest.layout ds point := by
      rw [floatChars, if_neg hd, hpositive]
      rfl
    rcases Shortest.layout_cases hdigits hne point with ⟨p, hlayout, hnumber⟩ | ⟨c, e, hlayout, hc⟩
    · left
      refine ⟨p, by rw [hchars, hlayout], Finite64.ofDecimal_eq hd ?_ false⟩
      rw [← hnumber] at hrounds
      exact hrounds
    · right
      exact ⟨c, e, by rw [hchars, hlayout], isDigit_iff_mem.mp hc⟩

theorem powerChars_marks (e? : Option ℤ) : ∀ c ∈ Shortest.powerChars e?, c ∈ wordMarks := by
  intro c hc
  cases e? with
  | none => cases hc
  | some e =>
    obtain ⟨ds, htext, -, hdigits, -⟩ := Numeral.exponentText_eq e
    rw [Shortest.powerChars, htext] at hc
    rcases List.mem_cons.mp hc with rfl | hc
    · decide
    · rcases List.mem_cons.mp hc with rfl | hc
      · split <;> decide
      · exact mem_wordMarks (isDigit_iff_mem.mp (hdigits c hc))

theorem pointed_marks (p : Shortest.Pointed) : ∀ c ∈ p.chars, c ∈ wordMarks := by
  intro c hc
  rcases List.mem_append.mp hc with hc | hc
  · exact mem_wordMarks (isDigit_iff_mem.mp (p.isDigit_whole c hc))
  · rcases List.mem_cons.mp hc with rfl | hc
    · decide
    · rcases List.mem_append.mp hc with hc | hc
      · exact mem_wordMarks (isDigit_iff_mem.mp (p.isDigit_fraction c hc))
      · exact powerChars_marks _ c hc

/-- A decimal with a point starts with a digit. -/
theorem pointed_head (p : Shortest.Pointed) :
    ∃ d whole, d ∈ digitMarks ∧ (∀ c ∈ whole, c ∈ digitMarks) ∧
      p.chars = d :: (whole ++ '.' :: (p.fraction ++ Shortest.powerChars p.exponent?)) := by
  obtain ⟨d, whole, hwhole⟩ := List.exists_cons_of_ne_nil p.whole_ne
  have hmarks : ∀ c ∈ d :: whole, c ∈ digitMarks := by
    intro c hc
    rw [← hwhole] at hc
    exact isDigit_iff_mem.mp (p.isDigit_whole c hc)
  refine ⟨d, whole, hmarks d (by simp), fun c hc => hmarks c (by simp [hc]), ?_⟩
  rw [Shortest.Pointed.chars, hwhole]
  rfl

theorem word_floatChars (d : Finite64) : Word (floatChars d) := by
  rcases floatChars_cases d with ⟨p, hchars, -⟩ | ⟨c, e, hchars, hc⟩
  · obtain ⟨first, whole, hfirst, -, hp⟩ := pointed_head p
    have hmarks := pointed_marks p
    rw [hchars, hp]
    rw [hp] at hmarks
    exact word_figure _ hfirst fun c hc => hmarks c (by simp [hc])
  · rw [hchars]
    exact word_figure _ hc (powerChars_marks _)

/-- The texts of a double with a point spell a double. -/
theorem ofWord_pointed (negative : Bool) (p : Shortest.Pointed) :
    Tag.ofWord (signChars negative ++ p.chars) = .float := by
  obtain ⟨d, whole, hd, hwhole, hp⟩ := pointed_head p
  have hfraction : ∀ c ∈ p.fraction, c ∈ digitMarks := fun c hc =>
    isDigit_iff_mem.mp (p.isDigit_fraction c hc)
  have hpower : spellsExponent ((Shortest.powerChars p.exponent?).dropWhile (isDigitOf 10)) = true := by
    cases p.exponent? with
    | none => rfl
    | some e =>
      obtain ⟨ds, htext, hne, hdigits, -⟩ := Numeral.exponentText_eq e
      obtain ⟨first, rest, rfl⟩ := List.exists_cons_of_ne_nil hne
      have hdrop : (Shortest.powerChars (some e)).dropWhile (isDigitOf 10)
          = 'e' :: (if e < 0 then '-' else '+') :: first :: rest := by
        rw [Shortest.powerChars, htext]
        rfl
      rw [hdrop, spellsExponent, List.all_eq_true.mpr hdigits]
      split <;> rfl
  have hbehind : spellsFraction ((whole ++ '.'
      :: (p.fraction ++ Shortest.powerChars p.exponent?)).dropWhile (isDigitOf 10)) = true := by
    rw [dropWhile_digits hwhole, List.dropWhile_cons_of_neg (by decide), spellsFraction,
      dropWhile_digits hfraction]
    exact hpower
  rw [hp, ofWord_figure negative hd, spellsFloat_figure negative hd, hbehind]
  rfl

theorem floatValue_pointed (negative : Bool) (p : Shortest.Pointed) :
    floatValue (Text.ofChars (signChars negative ++ p.chars)) =
      .ok (if negative then (Binary64.ofDecimal false p.digits p.lastExponent).neg
        else Binary64.ofDecimal false p.digits p.lastExponent) := by
  have hread := Numeral.double?_pointed p (pointed_marks p)
  have hcolon := contains_colon_word (pointed_marks p)
  obtain ⟨d, whole, hd, -, hp⟩ := pointed_head p
  have hmarks : ∀ c ∈ signChars negative ++ p.chars, c ∈ wordMarks := by
    have hall := pointed_marks p
    rw [hp] at hall ⊢
    exact (word_figure negative hd fun c hc => hall c (by simp [hc])).marks
  have hdouble : double (Text.ofChars p.chars)
      = .ok (Binary64.ofDecimal false p.digits p.lastExponent) := by
    rw [double, hread]
  have hsigned : signed (Text.ofChars (signChars negative ++ p.chars))
      = .ok (negative, Text.ofChars p.chars) := by
    rw [hp, signed_figure negative hd]
  have hword : ∀ w ∈ [".inf", ".nan"], Text.ofChars p.chars ≠ Text.ofString w := by
    intro w hw heq
    have hhead := congrArg List.head? heq
    rw [hp, Text.ofChars, List.map_cons, List.head?_cons] at hhead
    have hall : ∀ d ∈ digitMarks, ∀ w ∈ [".inf", ".nan"],
        some (CodePoint.scalar d) ≠ (Text.ofString w).head? :=
      List.all_iff_forall_prop.mp (by decide)
    exact hall d hd w hw hhead
  rw [floatValue, ungrouped_word hmarks, map_lower_word hmarks, hsigned]
  simp only [bind, Except.bind]
  rw [if_neg (hword ".inf" (by simp)), if_neg (hword ".nan" (by simp)), hcolon, hdouble]
  rfl

/-- Whether the text of a double has a point. -/
theorem contains_point_pointed (negative : Bool) (p : Shortest.Pointed) :
    (signChars negative ++ p.chars).contains '.' = true := by
  rw [List.contains_iff_mem, Shortest.Pointed.chars]
  simp

theorem contains_point_pointless (negative : Bool) {c : Char} (hc : c ∈ digitMarks) (e : ℤ) :
    (signChars negative ++ c :: Shortest.powerChars (some e)).contains '.' = false := by
  have hdigit : '.' ∉ digitMarks := by decide
  obtain ⟨ds, htext, -, hdigits, -⟩ := Numeral.exponentText_eq e
  rw [Bool.eq_false_iff]
  intro h
  rw [List.contains_iff_mem, Shortest.powerChars, htext] at h
  rcases List.mem_append.mp h with h | h
  · cases negative <;> simp [signChars] at h
  · rcases List.mem_cons.mp h with rfl | h
    · exact hdigit hc
    · rcases List.mem_cons.mp h with h | h
      · exact absurd h (by decide)
      · rcases List.mem_cons.mp h with h | h
        · revert h
          split <;> decide
        · exact hdigit (isDigit_iff_mem.mp (hdigits '.' h))

/-- **A double is read as itself, if its text has a point, and else as its text.** -/
theorem scalarValue_floatChars (d : Finite64) :
    scalarValue (.ofSpelling (floatChars d)) (Text.ofChars (floatChars d)) =
      .ok (if (floatChars d).contains '.' then .float d.toBinary64
        else .text (Text.ofChars (floatChars d))) := by
  rw [ofSpelling_word (word_floatChars d)]
  rcases floatChars_cases d with ⟨p, hchars, hnumber⟩ | ⟨c, e, hchars, hc⟩
  · rw [hchars, contains_point_pointed, ofWord_pointed, scalarValue, floatValue_pointed, hnumber]
    cases hnegative : d.negative with
    | false => rw [Finite64.toBinary64, hnegative]; rfl
    | true => rw [Finite64.toBinary64, hnegative]; rfl
  · rw [hchars, contains_point_pointless _ hc, Shortest.powerChars, ofWord_pointless _ hc]
    rfl

end Yaml

/-! ## 5. Documents without quotes and brackets -/

namespace Json

/-- Whether a document is written as a word. -/
def isWord : Json → Bool
  | null => true
  | bool _ => true
  | int _ _ => true
  | float _ => true
  | _ => false

/-- The scalar as which a document without parts is read. -/
def scalar : Json → Scalar
  | bool b => .bool b
  | int n _ => .int n
  | float d =>
    if (floatChars d).contains '.' then .float d.toBinary64 else .text (Text.ofChars (floatChars d))
  | string t => .text t
  | _ => .null

theorem word_write {j : Json} (hj : j.isWord = true) : Word j.write := by
  cases j with
  | null => exact ⟨List.all_iff_forall_prop.mp (by decide), 'n', ['u', 'l', 'l'], rfl, .inl (by decide)⟩
  | bool b =>
    cases b with
    | false => exact ⟨List.all_iff_forall_prop.mp (by decide), 'f', ['a', 'l', 's', 'e'], rfl,
        .inl (by decide)⟩
    | true => exact ⟨List.all_iff_forall_prop.mp (by decide), 't', ['r', 'u', 'e'], rfl,
        .inl (by decide)⟩
  | int n fits => exact Yaml.word_integerChars n
  | float d => exact Yaml.word_floatChars d
  | string t => cases hj
  | array items => cases hj
  | object entries => cases hj

/-- **A word is read as its scalar.** -/
theorem scalarValue_write {j : Json} (hj : j.isWord = true) :
    Yaml.scalarValue (.ofSpelling j.write) j.text = .ok j.scalar := by
  cases j with
  | null => rfl
  | bool b => cases b <;> rfl
  | int n fits => exact Yaml.scalarValue_integerChars fits
  | float d => exact Yaml.scalarValue_floatChars d
  | string t => cases hj
  | array items => cases hj
  | object entries => cases hj

end Json

end TemplateTree
