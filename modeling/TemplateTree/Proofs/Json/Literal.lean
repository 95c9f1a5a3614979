import Mathlib.Data.Bool.AllAny
import TemplateTree.Proofs.Json.Basic
import TemplateTree.Proofs.Target.Lexer
import TemplateTree.Yaml.FlowScalar

/-!
# Texts of JSON documents in a data file

Between double quotes a data file has all escapes of JSON, and each of them stands for one code point
(`Yaml.quotedPieces_flatMap_escape`). So a text is read as itself unless it holds a supplementary
character, whose two escapes are read as two surrogates.

All characters of a text between quotes are printable ASCII (`Json.isPlain_literal`).
-/

namespace TemplateTree

/-! ## 1. Characters -/

/-- The printable characters of ASCII. -/
def Json.isPlain (c : Char) : Bool := ' ' ≤ c && c ≤ '~'

namespace Yaml

open Json

theorem isBreak_of_isPlain {c : Char} (h : isPlain c = true) : isBreak c = false := by
  rw [Bool.eq_false_iff]
  intro hb
  simp only [isBreak, Bool.or_eq_true, beq_iff_eq] at hb
  rcases hb with (((rfl | rfl) | rfl) | rfl) | rfl
  all_goals exact absurd h (by decide)

theorem isSpace_of_isPlain {c : Char} (h : isPlain c = true) (hc : c ≠ ' ') : isSpace c = false := by
  have htab : c ≠ '\t' := by
    intro htab
    rw [htab] at h
    exact absurd h (by decide)
  simp [isSpace, isBlank, isBreak_of_isPlain h, hc, htab]

theorem hexDigit?_digitChar : ∀ d < 16, hexDigit? (Nat.digitChar d) = some d := by decide

theorem hexDigit?_hexDigit (n : Nat) : hexDigit? (Literal.hexDigit n) = some (n % 16) :=
  hexDigit?_digitChar _ (Nat.mod_lt _ (by decide))

/-- Four digits are read as their number. -/
theorem hexNumber?_hex4 {n : Nat} (hn : n < 0x10000) :
    hexNumber? 4 0 (Literal.hex4 n) = some (n, []) := by
  have hv : ((n / 256 / 16 % 16 * 16 + n / 256 % 16) * 16 + n / 16 % 16) * 16 + n % 16 = n := by
    omega
  simp [Literal.hex4, Literal.hex2, hexNumber?, hexDigit?_hexDigit, hv]

/-- An escape by number stands for the code point with the number. -/
theorem escape_hex4 {n : Nat} {c : CodePoint} (hn : n < 0x10000)
    (hc : CodePoint.ofNat? n = some c) (behind : List Char) :
    Yaml.escape ('u' :: (Literal.hex4 n ++ behind)) = .ok ([c], 5) := by
  have htake : (Literal.hex4 n ++ behind).take 4 = Literal.hex4 n := rfl
  simp [Yaml.escape, escaped?, escapeDigits?, htake, hexNumber?_hex4 hn, hc]

/-! ## 2. Pieces of a text -/

section

variable {steps : Nat} {rest : List Char} {more : Text} {behind : Nat}

theorem quotedPieces_raw {c : Char} (hspace : isSpace c = false) (hquote : c ≠ '"')
    (hescape : c ≠ '\\') (h : quotedPieces true steps rest = .ok (more, behind)) :
    quotedPieces true (steps + 1) (c :: rest) = .ok (.scalar c :: more, 1 + behind) := by
  simp [quotedPieces, hspace, hquote, hescape, h, bind, Except.bind, pure, Except.pure]

theorem quotedPieces_escaped {p : CodePoint} {size : Nat} (hp : Yaml.escape rest = .ok ([p], size))
    (h : quotedPieces true steps (rest.drop size) = .ok (more, behind)) :
    quotedPieces true (steps + 1) ('\\' :: rest) = .ok (p :: more, 1 + size + behind) := by
  have hspace : isSpace '\\' = false := rfl
  have hdrop : ('\\' :: rest).drop (1 + size) = rest.drop size := by
    rw [Nat.add_comm, List.drop_succ_cons]
  simp [quotedPieces, hspace, hp, hdrop, h, bind, Except.bind, pure, Except.pure]

theorem quotedPieces_spaces {count : Nat} (hrest : rest.head?.all (!isSpace ·) = true)
    (h : quotedPieces true steps rest = .ok (more, behind)) :
    quotedPieces true (steps + 1) (List.replicate (count + 1) ' ' ++ rest)
      = .ok (List.replicate (count + 1) (.scalar ' ') ++ more, count + 1 + behind) := by
  have hspace : isSpace ' ' = true := rfl
  have hstop : rest.takeWhile isSpace = [] := by
    cases rest with
    | nil => rfl
    | cons c rest =>
      have hc : isSpace c = false := by simpa using hrest
      simp [hc]
  have htake : (List.replicate (count + 1) ' ' ++ rest).takeWhile isSpace
      = List.replicate (count + 1) ' ' := by
    rw [List.takeWhile_append_of_pos (by simp [hspace]), hstop, List.append_nil]
  have hbreaks : breaks (List.replicate (count + 1) ' ') = [] := by
    generalize count + 1 = k
    induction k with
    | zero => rfl
    | succ k ih => simpa [List.replicate_succ, breaks, isBreak] using ih
  have hline : atLineStart (List.replicate (count + 1) ' ') = false := by
    simp [atLineStart, List.getLast?_replicate, isBreak]
  have hspaces : quotedSpaces (List.replicate (count + 1) ' ' ++ rest)
      = .ok (List.replicate (count + 1) (.scalar ' '), count + 1) := by
    simp [quotedSpaces, htake, hbreaks, hline, Text.ofChars]
  have hdrop : (List.replicate (count + 1) ' ' ++ rest).drop (count + 1) = rest := by simp
  rw [List.replicate_succ, List.cons_append] at hspaces hdrop ⊢
  simp only [quotedPieces, hspace, hspaces, hdrop, h, if_true, bind, Except.bind, pure, Except.pure]

end

/-! ## 3. Whole texts -/

/-- The escape of a number is read as its code point. -/
theorem quotedPieces_escape16 {n : Nat} {c : CodePoint} (hn : n < 0x10000)
    (hc : CodePoint.ofNat? n = some c) {steps : Nat} {rest : List Char} {more : Text} {behind : Nat}
    (h : quotedPieces true steps rest = .ok (more, behind)) :
    quotedPieces true (steps + 1) (escape16 n ++ rest)
      = .ok (c :: more, (escape16 n).length + behind) :=
  quotedPieces_escaped (escape_hex4 hn hc rest) h

/-- **A code point below the supplementary ones is read as itself**; spaces are read together. -/
theorem quotedPieces_codePoint {c : CodePoint} (hc : c.val < 0x10000) (hspace : c ≠ .scalar ' ')
    {steps : Nat} {rest : List Char} {more : Text} {behind : Nat}
    (h : quotedPieces true steps rest = .ok (more, behind)) :
    quotedPieces true (steps + 1) (Json.escape c ++ rest)
      = .ok (c :: more, (Json.escape c).length + behind) := by
  unfold Json.escape
  split
  case h_8 ch hquote hbackslash _ _ _ _ _ =>
    have hlt : ch.toNat < 0x10000 := hc
    by_cases hplain : ' ' ≤ ch ∧ ch ≤ '~'
    · rw [if_pos hplain]
      have hch : isSpace ch = false :=
        isSpace_of_isPlain (by simpa [isPlain] using hplain) (by simpa using hspace)
      exact quotedPieces_raw hch (by simpa using hquote) (by simpa using hbackslash) h
    · rw [if_neg hplain, if_pos hlt]
      exact quotedPieces_escape16 hlt (Target.ofNat?_toNat ch) h
  case h_9 n => exact quotedPieces_escape16 hc (Target.ofNat?_surrogate n) h
  all_goals exact quotedPieces_escaped rfl h

theorem escape_head {c : CodePoint} (hc : c ≠ .scalar ' ') :
    ∃ a rest, Json.escape c = a :: rest ∧ isSpace a = false := by
  unfold Json.escape
  split
  case h_8 ch _ _ _ _ _ _ _ =>
    by_cases hplain : ' ' ≤ ch ∧ ch ≤ '~'
    · rw [if_pos hplain]
      exact ⟨ch, [], rfl, isSpace_of_isPlain (by simpa [isPlain] using hplain) (by simpa using hc)⟩
    · rw [if_neg hplain]
      split <;> exact ⟨'\\', _, rfl, rfl⟩
  all_goals exact ⟨'\\', _, rfl, rfl⟩

/-- A text is spaces, and what is behind them. -/
theorem exists_spaces (t : Text) :
    ∃ count rest, t = List.replicate count (.scalar ' ') ++ rest ∧
      rest.head? ≠ some (.scalar ' ') := by
  induction t with
  | nil => exact ⟨0, [], rfl, by simp⟩
  | cons c t ih =>
    by_cases hc : c = .scalar ' '
    · subst hc
      obtain ⟨count, rest, rfl, hrest⟩ := ih
      exact ⟨count + 1, rest, rfl, hrest⟩
    · exact ⟨0, c :: t, rfl, by simpa using hc⟩

theorem flatMap_escape_spaces (count : Nat) :
    (List.replicate count (CodePoint.scalar ' ')).flatMap Json.escape = List.replicate count ' ' := by
  induction count with
  | zero => rfl
  | succ count ih =>
    have hspace : Json.escape (.scalar ' ') = [' '] := rfl
    rw [List.replicate_succ, List.flatMap_cons, ih, hspace]
    rfl

/-- **A text without supplementary characters is read as itself.** -/
theorem quotedPieces_flatMap_escape {t : Text} (ht : ∀ c ∈ t, c.val < 0x10000) (behind : List Char)
    {steps : Nat} (hsteps : t.length < steps) :
    quotedPieces true steps (t.flatMap Json.escape ++ '"' :: behind)
      = .ok (t, (t.flatMap Json.escape).length + 1) := by
  -- The induction is on a bound of the length, since a run of spaces is passed at once.
  induction hn : t.length using Nat.strongRecOn generalizing t steps with
  | ind n ih =>
    obtain ⟨steps, rfl⟩ : ∃ k, steps = k + 1 := ⟨steps - 1, by omega⟩
    obtain ⟨count, rest, rfl, hhead⟩ := exists_spaces t
    simp only [List.length_append, List.length_replicate] at hn hsteps
    have hrest : ∀ c ∈ rest, c.val < 0x10000 := fun c hc => ht c (by simp [hc])
    rw [List.flatMap_append, flatMap_escape_spaces]
    cases count with
    | zero =>
      cases rest with
      | nil => simp [quotedPieces, isSpace, isBlank, isBreak]
      | cons c rest =>
        have hmore : quotedPieces true steps (rest.flatMap Json.escape ++ '"' :: behind)
            = .ok (rest, (rest.flatMap Json.escape).length + 1) :=
          ih rest.length (by simp at hn; omega) (fun d hd => hrest d (by simp [hd]))
            (by simp at hsteps; omega) rfl
        have h := quotedPieces_codePoint (hrest c (by simp)) (by simpa using hhead) hmore
        simpa [Nat.add_assoc] using h
    | succ count =>
      have hmore : quotedPieces true steps (rest.flatMap Json.escape ++ '"' :: behind)
          = .ok (rest, (rest.flatMap Json.escape).length + 1) :=
        ih rest.length (by omega) hrest (by omega) rfl
      have hstop : (rest.flatMap Json.escape ++ '"' :: behind).head?.all (!isSpace ·) = true := by
        cases rest with
        | nil => rfl
        | cons c rest =>
          obtain ⟨a, as, heq, ha⟩ := escape_head (by simpa using hhead : c ≠ .scalar ' ')
          simp [heq, ha]
      rw [List.append_assoc, quotedPieces_spaces hstop hmore]
      simp [Nat.add_assoc]

end Yaml

/-! ## 4. The characters of documents -/

namespace Json

theorem escape_ne_nil (c : CodePoint) : escape c ≠ [] := by
  unfold escape
  split
  case h_8 => split <;> (try split) <;> simp [escape16]
  all_goals simp [escape16]

theorem length_le_flatMap_escape (t : Text) : t.length ≤ (t.flatMap escape).length := by
  induction t with
  | nil => exact Nat.le_refl _
  | cons c t ih =>
    have hpos : 0 < (escape c).length := List.length_pos_iff.mpr (escape_ne_nil c)
    rw [List.flatMap_cons, List.length_append, List.length_cons]
    omega

theorem isPlain_hex4 (n : Nat) : ∀ c ∈ Literal.hex4 n, isPlain c = true := by
  have hdigit : ∀ d < 16, isPlain (Nat.digitChar d) = true := by decide
  have hall : ∀ k, isPlain (Literal.hexDigit k) = true := fun k =>
    hdigit _ (Nat.mod_lt _ (by decide))
  simp [Literal.hex4, Literal.hex2, hall]

theorem isPlain_escape16 (n : Nat) : ∀ c ∈ escape16 n, isPlain c = true := by
  intro c hc
  rcases List.mem_cons.mp hc with rfl | hc
  · decide
  · rcases List.mem_cons.mp hc with rfl | hc
    · decide
    · exact isPlain_hex4 n c hc

theorem isPlain_escape (p : CodePoint) : ∀ c ∈ escape p, isPlain c = true := by
  unfold escape
  split
  case h_8 ch _ _ _ _ _ _ _ =>
    split
    · rename_i hplain
      simpa [isPlain] using hplain
    · split
      · exact isPlain_escape16 _
      · intro c hc
        rcases List.mem_append.mp hc with hc | hc
        · exact isPlain_escape16 _ c hc
        · exact isPlain_escape16 _ c hc
  case h_9 n => exact isPlain_escape16 _
  all_goals exact List.all_iff_forall_prop.mp (by decide)

theorem isPlain_literal (t : Text) : ∀ c ∈ literal t, isPlain c = true := by
  intro c hc
  simp only [literal, List.cons_append, List.mem_cons, List.mem_append, List.mem_flatMap,
    List.not_mem_nil, or_false] at hc
  rcases hc with rfl | ⟨p, -, hc⟩ | rfl
  · decide
  · exact isPlain_escape p c hc
  · decide

end Json

end TemplateTree
