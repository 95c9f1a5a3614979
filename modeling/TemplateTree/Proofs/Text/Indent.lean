import TemplateTree.Text.Lines

/-!
# Indentation as insertion

Indenting a text line by line puts the margin in front of it and behind each of its line feeds, and
changes nothing else (`indent_eq`). The rest of the theory looks at indented code in this form only.
-/

namespace TemplateTree.Text

/-- A text with `margin` behind each of its line feeds. -/
def marginBehind (t margin : Text) : Text :=
  t.flatMap fun c => if c = newline then newline :: margin else [c]

@[simp] theorem marginBehind_nil (margin : Text) : marginBehind [] margin = [] := rfl

@[simp] theorem marginBehind_newline (t margin : Text) :
    marginBehind (newline :: t) margin = newline :: (margin ++ marginBehind t margin) := rfl

theorem marginBehind_cons {c : CodePoint} (t margin : Text) (hc : c ≠ newline) :
    marginBehind (c :: t) margin = c :: marginBehind t margin := by
  simp [marginBehind, hc]

theorem marginBehind_append (s t margin : Text) :
    marginBehind (s ++ t) margin = marginBehind s margin ++ marginBehind t margin :=
  List.flatMap_append

/-- Without a line feed there is nothing to put a margin behind. -/
theorem marginBehind_of_not_mem {t : Text} (h : newline ∉ t) (margin : Text) :
    marginBehind t margin = t := by
  induction t with
  | nil => rfl
  | cons c t ih =>
    rw [List.mem_cons, not_or] at h
    rw [marginBehind_cons t margin (Ne.symm h.1), ih h.2]

theorem marginBehind_empty (t : Text) : marginBehind t [] = t := by
  induction t with
  | nil => rfl
  | cons c t ih =>
    by_cases hc : c = newline
    · rw [hc, marginBehind_newline, ih, List.nil_append]
    · rw [marginBehind_cons t [] hc, ih]

/-- **Margins add up**: the outer one comes in front of the inner one. -/
theorem marginBehind_marginBehind {inner : Text} (h : newline ∉ inner) (t outer : Text) :
    marginBehind (marginBehind t inner) outer = marginBehind t (outer ++ inner) := by
  induction t with
  | nil => rfl
  | cons c t ih =>
    by_cases hc : c = newline
    · rw [hc, marginBehind_newline, marginBehind_newline, marginBehind_newline, marginBehind_append,
        marginBehind_of_not_mem h, ih, List.append_assoc]
    · rw [marginBehind_cons t inner hc, marginBehind_cons _ outer hc, ih, marginBehind_cons t _ hc]

@[simp] theorem unlines_singleton (t : Text) : unlines [t] = t := by
  simp [unlines, join, List.intercalate]

theorem unlines_cons (t : Text) {ts : List Text} (h : ts ≠ []) :
    unlines (t :: ts) = t ++ newline :: unlines ts := by
  cases ts with
  | nil => exact absurd rfl h
  | cons u us => simp [unlines, join, List.intercalate]

/-- **Indenting is inserting**: the margin stands in front and behind each line feed. -/
theorem indent_eq (t margin : Text) : indent t margin = margin ++ marginBehind t margin := by
  unfold indent
  induction t with
  | nil => simp [lines]
  | cons c rest ih =>
    simp only [lines]
    split
    · rename_i hc
      subst hc
      have hne : (lines rest).map (margin ++ ·) ≠ [] := by simp [lines_ne_nil]
      simp [unlines_cons _ hne, ih]
    · rename_i hc
      cases h : lines rest with
      | nil => exact absurd h (lines_ne_nil rest)
      | cons l ls =>
        rw [h] at ih
        rw [marginBehind_cons _ _ hc]
        -- The code point joins the first line; the lines behind it are the same on both sides.
        cases ls with
        | nil =>
          have hl : l = marginBehind rest margin := by simpa using ih
          simp [hl]
        | cons l' ls' =>
          have hne : (l' :: ls').map (margin ++ ·) ≠ [] := by simp
          rw [List.map_cons, unlines_cons _ hne, List.append_assoc,
            List.append_cancel_left_eq] at ih
          rw [List.map_cons, unlines_cons _ hne, ← ih]
          simp

end TemplateTree.Text
