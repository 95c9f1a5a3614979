import TemplateTree.FileSystem
import TemplateTree.Text.Terminal
import Mathlib.Data.List.TakeWhile

/-!
# What printing keeps

Printing takes control sequences out of a text and leaves everything else. So a text is printed as it is
exactly if it holds no control sequence (`Terminal.text_eq_self_iff`), and a line end closes off what could
start one (`Terminal.holdsSequence_append_newline`). No surrogate is lost, so a printed text has bytes
exactly if the text has (`Terminal.encodable_text_iff`).
-/

namespace TemplateTree

/-! ## 1. Texts with bytes -/

/-- Whether every code point of a text is a character, so that the text has bytes. -/
def Text.Encodable (t : Text) : Prop := ∀ c ∈ t, c.char?.isSome = true

instance (t : Text) : Decidable t.Encodable :=
  inferInstanceAs (Decidable (∀ c ∈ t, c.char?.isSome = true))

theorem isSome_encodeFile?_iff (t : Text) : (encodeFile? t).isSome = true ↔ t.Encodable := by
  unfold encodeFile? Text.Encodable
  rw [Option.isSome_map]
  induction t with
  | nil => simp [Text.chars?]
  | cons c t ih =>
    cases c with
    | surrogate n => simp [Text.chars?, CodePoint.char?]
    | scalar c => simpa [Text.chars?, CodePoint.char?] using ih

namespace Terminal

/-! ## 2. Control sequences -/

/-- Whether a text holds a control sequence. -/
def holdsSequence : Text → Bool
  | [] => false
  | c :: rest => (c == escapeMark && (sequenceSize? rest).isSome) || holdsSequence rest

theorem holdsSequence_of_not_mem {t : Text} (h : escapeMark ∉ t) : holdsSequence t = false := by
  induction t with
  | nil => rfl
  | cons c t ih =>
    obtain ⟨hc, ht⟩ : escapeMark ≠ c ∧ escapeMark ∉ t := by simpa using h
    simp [holdsSequence, Ne.symm hc, ih ht]

theorem holdsSequence_append {s : Text} (hs : escapeMark ∉ s) (t : Text) :
    holdsSequence (s ++ t) = holdsSequence t := by
  induction s with
  | nil => rfl
  | cons c s ih =>
    obtain ⟨hc, hs⟩ : escapeMark ≠ c ∧ escapeMark ∉ s := by simpa using hs
    simp [holdsSequence, Ne.symm hc, ih hs]

/-- A control sequence is a bracket, parameters and a letter. -/
theorem exists_of_sequenceSize? {t : Text} {size : Nat} (h : sequenceSize? t = some size) :
    ∃ parameters c rest, t = .scalar '[' :: (parameters ++ c :: rest) ∧
      (∀ p ∈ parameters, isParameter p = true) ∧ isFinal c = true ∧
      size = parameters.length + 2 := by
  unfold sequenceSize? at h
  split at h
  · rename_i rest
    obtain ⟨behind, hbehind⟩ := List.takeWhile_prefix (p := isParameter) (l := rest)
    have hdrop := congrArg (List.drop (rest.takeWhile isParameter).length) hbehind
    rw [List.drop_left] at hdrop
    dsimp only at h
    rw [← hdrop] at h
    match behind with
    | [] => cases h
    | c :: behind =>
      by_cases hc : isFinal c = true
      · simp only [hc, if_true, Option.some.injEq] at h
        exact ⟨_, c, behind, by rw [hbehind], fun p hp => List.mem_takeWhile_imp hp, hc, h.symm⟩
      · simp [hc] at h
  · cases h

/-- A line end belongs to no control sequence. -/
theorem sequenceSize?_append_newline (s t : Text) :
    sequenceSize? (s ++ newline :: t) = sequenceSize? s := by
  match s with
  | [] => rfl
  | .surrogate n :: s => rfl
  | .scalar c :: s =>
    by_cases hc : c = '['
    · have hparameters : (s ++ newline :: t).takeWhile isParameter = s.takeWhile isParameter := by
        have hnone : (newline :: t).takeWhile isParameter = [] := rfl
        rw [List.takeWhile_append, hnone]
        split
        · rename_i hall
          rw [List.append_nil, (List.takeWhile_prefix isParameter).eq_of_length hall]
        · rfl
      have hbehind : (s ++ newline :: t).drop (s.takeWhile isParameter).length
          = s.drop (s.takeWhile isParameter).length ++ newline :: t :=
        List.drop_append_of_le_length (List.takeWhile_prefix isParameter).length_le
      rw [hc, List.cons_append, sequenceSize?, sequenceSize?, hparameters, hbehind]
      -- Behind the parameters stands the same, or the line end where nothing stood.
      cases s.drop (s.takeWhile isParameter).length with
      | nil => rfl
      | cons d behind => rfl
    · have hne : ∀ rest, sequenceSize? (.scalar c :: rest) = none := by
        intro rest
        unfold sequenceSize?
        split
        · rename_i heq
          exact absurd (CodePoint.scalar.inj (List.cons.inj heq).1) hc
        · rfl
      rw [List.cons_append, hne, hne]

theorem holdsSequence_append_newline (s t : Text) :
    holdsSequence (s ++ newline :: t) = (holdsSequence s || holdsSequence t) := by
  have hnewline : (newline == escapeMark) = false := by decide
  induction s with
  | nil => simp [holdsSequence, hnewline]
  | cons c s ih =>
    rw [List.cons_append, holdsSequence, holdsSequence, sequenceSize?_append_newline, ih,
      Bool.or_assoc]

/-! ## 3. Printed texts -/

theorem length_strip_le (skipped : Nat) (t : Text) : (strip skipped t).length ≤ t.length := by
  fun_induction strip skipped t with
  | case1 => exact Nat.le_refl _
  | case2 skipped c t ih => exact Nat.le_succ_of_le ih
  | case3 t size _ ih => exact Nat.le_succ_of_le ih
  | case4 t _ ih => exact Nat.succ_le_succ ih
  | case5 c t _ ih => exact Nat.succ_le_succ ih

/-- **A text is printed as it is exactly if it holds no control sequence.** -/
theorem text_eq_self_iff (t : Text) : text t = t ↔ holdsSequence t = false := by
  unfold text
  induction t with
  | nil => simp [strip, holdsSequence]
  | cons c t ih =>
    rw [strip, holdsSequence]
    by_cases hc : c = escapeMark
    · rw [if_pos hc]
      cases hsize : sequenceSize? t with
      | none => simp [ih]
      | some size =>
        -- What is printed then is shorter than the text.
        have hshort := length_strip_le size t
        have hne : strip size t ≠ c :: t := by
          intro heq
          rw [heq, List.length_cons] at hshort
          omega
        simp [hc ▸ hne, hc]
    · simp [hc, ih]

theorem isSome_char?_of_isParameter {c : CodePoint} (h : isParameter c = true) :
    c.char?.isSome = true := by
  cases c with
  | scalar c => rfl
  | surrogate n => cases h

theorem isSome_char?_of_isFinal {c : CodePoint} (h : isFinal c = true) : c.char?.isSome = true := by
  cases c with
  | scalar c => rfl
  | surrogate n => cases h

/-- A control sequence holds no surrogate. -/
theorem encodable_iff_drop {t : Text} {size : Nat} (h : sequenceSize? t = some size) :
    Text.Encodable t ↔ Text.Encodable (t.drop size) := by
  obtain ⟨parameters, c, rest, rfl, hparameters, hc, rfl⟩ := exists_of_sequenceSize? h
  have hdrop : (CodePoint.scalar '[' :: (parameters ++ c :: rest)).drop (parameters.length + 2)
      = rest := by
    simp
  have hfront : ∀ p ∈ parameters, p.char?.isSome = true := fun p hp =>
    isSome_char?_of_isParameter (hparameters p hp)
  rw [hdrop]
  unfold Text.Encodable
  rw [List.forall_mem_cons, List.forall_mem_append, List.forall_mem_cons]
  exact ⟨fun h => h.2.2.2, fun h => ⟨rfl, hfront, isSome_char?_of_isFinal hc, h⟩⟩

theorem encodable_strip_iff (skipped : Nat) (t : Text) :
    (strip skipped t).Encodable ↔ Text.Encodable (t.drop skipped) := by
  have hcons (c : CodePoint) (s : Text) :
      Text.Encodable (c :: s) ↔ c.char?.isSome = true ∧ s.Encodable := List.forall_mem_cons
  have hkept (c : CodePoint) {s t : Text} (h : s.Encodable ↔ t.Encodable) :
      Text.Encodable (c :: s) ↔ Text.Encodable (c :: t) := by
    rw [hcons, hcons, h]
  fun_induction strip skipped t with
  | case1 skipped => rw [List.drop_nil]
  | case2 skipped c t ih => exact ih
  | case3 t size hsize ih =>
    have hmark : escapeMark.char?.isSome = true := rfl
    calc (strip size t).Encodable
      _ ↔ Text.Encodable (t.drop size) := ih
      _ ↔ Text.Encodable t := (encodable_iff_drop hsize).symm
      _ ↔ Text.Encodable (escapeMark :: t) := ((hcons escapeMark t).trans (and_iff_right hmark)).symm
  | case4 t _ ih => exact hkept escapeMark ih
  | case5 c t _ ih => exact hkept c ih

/-- **A printed text has bytes exactly if the text has.** -/
theorem encodable_text_iff (t : Text) : (text t).Encodable ↔ t.Encodable :=
  encodable_strip_iff 0 t

end Terminal

end TemplateTree
