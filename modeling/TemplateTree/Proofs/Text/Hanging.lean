import TemplateTree.Proofs.Text.Indent

/-!
# Hanging and indenting

A text is indented line by line as its line feeds cut it (`Text.indent`), and hung as every line
boundary cuts it (`Text.hang`). This file says when the two agree.

* `dedent?` takes a margin away again; it inverts `indent` (`dedent?_eq_some_iff`), so it tells
  whether a hung text still holds the lines it was made from.
* `filled` says that no line of a text is empty: an empty line is hung without its margin.
* `hang_eq_indent_iff`: a text without an empty line is hung as it is indented exactly if its only
  boundaries are line feeds.
-/

namespace TemplateTree.Text

/-! ## 1. Line feeds -/

theorem lines_append_newline {l : Text} (hl : newline ∉ l) (t : Text) :
    lines (l ++ newline :: t) = l :: lines t := by
  induction l with
  | nil => simp [lines]
  | cons c l ih =>
    obtain ⟨hc, hl⟩ : newline ≠ c ∧ newline ∉ l := by simpa using hl
    rw [List.cons_append, lines, if_neg hc.symm, ih hl]

theorem lines_of_not_mem {l : Text} (hl : newline ∉ l) : lines l = [l] := by
  induction l with
  | nil => rfl
  | cons c l ih =>
    obtain ⟨hc, hl⟩ : newline ≠ c ∧ newline ∉ l := by simpa using hl
    rw [lines, if_neg hc.symm, ih hl]

theorem newline_not_mem_of_mem_lines {t l : Text} (h : l ∈ lines t) : newline ∉ l := by
  induction t generalizing l with
  | nil =>
    obtain rfl : l = [] := by simpa [lines] using h
    simp
  | cons c t ih =>
    rw [lines] at h
    split at h
    · rcases List.mem_cons.mp h with rfl | h
      · simp
      · exact ih h
    · rename_i hc
      cases ht : lines t with
      | nil => exact absurd ht (lines_ne_nil t)
      | cons first rest =>
        rw [ht] at h ih
        rcases List.mem_cons.mp h with rfl | h
        · have hfirst := ih (l := first) (by simp)
          simp [hfirst, Ne.symm hc]
        · exact ih (List.mem_cons_of_mem first h)

/-- **Joining with line feeds is undone by cutting at them**, for pieces that hold none. -/
theorem lines_unlines {ls : List Text} (hne : ls ≠ []) (h : ∀ l ∈ ls, newline ∉ l) :
    lines (unlines ls) = ls := by
  induction ls with
  | nil => exact absurd rfl hne
  | cons l ls ih =>
    have hl := h l (by simp)
    by_cases hls : ls = []
    · rw [hls, unlines_singleton, lines_of_not_mem hl]
    · rw [unlines_cons l hls, lines_append_newline hl,
        ih hls fun l' hl' => h l' (List.mem_cons_of_mem l hl')]

theorem mem_join_iff {c : CodePoint} {separator : Text} (hc : c ∉ separator) (ts : List Text) :
    c ∈ join separator ts ↔ ∃ t ∈ ts, c ∈ t := by
  unfold join
  induction ts with
  | nil => simp
  | cons t ts ih =>
    cases ts with
    | nil => simp
    | cons u us =>
      rw [List.intercalate_cons_cons, List.mem_append, List.mem_append, ih]
      simp [hc]

theorem mem_unlines_iff {c : CodePoint} (hc : c ≠ newline) (ts : List Text) :
    c ∈ unlines ts ↔ ∃ t ∈ ts, c ∈ t :=
  mem_join_iff (by simpa using hc) ts

theorem mem_marginBehind_iff {c : CodePoint} {margin : Text} (hc : c ∉ margin) (t : Text) :
    c ∈ marginBehind t margin ↔ c ∈ t := by
  induction t with
  | nil => simp
  | cons d t ih =>
    by_cases hd : d = newline
    · rw [hd, marginBehind_newline, List.mem_cons, List.mem_append, ih]
      simp [hc]
    · rw [marginBehind_cons t margin hd, List.mem_cons, ih, List.mem_cons]

theorem mem_indent_iff {c : CodePoint} {margin : Text} (hc : c ∉ margin) (t : Text) :
    c ∈ indent t margin ↔ c ∈ t := by
  rw [indent_eq, List.mem_append, mem_marginBehind_iff hc]
  simp [hc]

/-! ## 2. Taking a margin away -/

/-- A line without the margin that it starts with. -/
def withoutMargin? (margin line : Text) : Option Text :=
  if line.take margin.length = margin then some (line.drop margin.length) else none

/-- A text, cut at its line feeds, without the margin that each of its lines starts with. -/
def dedent? (t margin : Text) : Option Text :=
  ((lines t).mapM (withoutMargin? margin)).map unlines

theorem withoutMargin?_eq_some_iff {margin line rest : Text} :
    withoutMargin? margin line = some rest ↔ line = margin ++ rest := by
  unfold withoutMargin?
  constructor
  · intro h
    split at h
    · rename_i hm
      obtain rfl : line.drop margin.length = rest := by simpa using h
      have hline := List.take_append_drop margin.length line
      rw [hm] at hline
      exact hline.symm
    · cases h
  · intro h
    simp [h]

theorem mapM_withoutMargin?_eq_some_iff {margin : Text} {ls rests : List Text} :
    ls.mapM (withoutMargin? margin) = some rests ↔ ls = rests.map (margin ++ ·) := by
  induction ls generalizing rests with
  | nil => cases rests <;> simp
  | cons l ls ih =>
    rw [List.mapM_cons]
    cases rests with
    | nil => simp [Option.bind_eq_bind, Option.bind_eq_some_iff]
    | cons rest rests =>
      simp [Option.bind_eq_bind, Option.bind_eq_some_iff, withoutMargin?_eq_some_iff, ih]

/-- **Taking a margin away undoes indenting**, and nothing else has that margin. -/
theorem dedent?_eq_some_iff {margin t code : Text} (hm : newline ∉ margin) :
    dedent? t margin = some code ↔ t = indent code margin := by
  rw [dedent?, Option.map_eq_some_iff]
  constructor
  · rintro ⟨ls, hls, rfl⟩
    rw [mapM_withoutMargin?_eq_some_iff] at hls
    have hne : ls ≠ [] := by
      intro h
      rw [h] at hls
      exact lines_ne_nil t hls
    have hfree : ∀ l ∈ ls, newline ∉ l := by
      intro l hl hmem
      have hin : margin ++ l ∈ lines t := hls ▸ List.mem_map_of_mem hl
      exact newline_not_mem_of_mem_lines hin (List.mem_append_right margin hmem)
    rw [indent, lines_unlines hne hfree, ← hls, unlines_lines]
  · intro h
    refine ⟨lines code, ?_, unlines_lines code⟩
    rw [mapM_withoutMargin?_eq_some_iff, h, indent, lines_unlines]
    · simpa using lines_ne_nil code
    · intro l hl
      obtain ⟨l', hl', rfl⟩ := List.mem_map.mp hl
      simp [hm, newline_not_mem_of_mem_lines hl']

/-! ## 3. Texts without an empty line -/

/-- Whether no line of a text is empty; `fresh` says that nothing stands in front of the text on its
    first line. -/
def filled (fresh : Bool) : Text → Bool
  | [] => !fresh
  | c :: rest => if c = newline then !fresh && filled true rest else filled false rest

theorem filled_newline (fresh : Bool) (t : Text) :
    filled fresh (newline :: t) = (!fresh && filled true t) := by
  simp [filled]

theorem filled_cons {c : CodePoint} (hc : c ≠ newline) (fresh : Bool) (t : Text) :
    filled fresh (c :: t) = filled false t := by
  simp [filled, hc]

/-- What is filled on a line of its own is filled behind something. -/
theorem filled_of_fresh {fresh : Bool} {t : Text} (h : filled true t = true) :
    filled fresh t = true := by
  cases t with
  | nil => cases h
  | cons c t =>
    by_cases hc : c = newline
    · rw [hc, filled_newline] at h
      cases h
    · rw [filled_cons hc] at h ⊢
      exact h

/-- Behind a filled text a line has begun. -/
theorem filled_append {fresh : Bool} {s : Text} (h : filled fresh s = true) (t : Text) :
    filled fresh (s ++ t) = filled false t := by
  induction s generalizing fresh with
  | nil =>
    obtain rfl : fresh = false := by simpa [filled] using h
    rfl
  | cons c s ih =>
    by_cases hc : c = newline
    · rw [hc, filled_newline, Bool.and_eq_true] at h
      rw [hc, List.cons_append, filled_newline, h.1, Bool.true_and, ih h.2]
    · rw [filled_cons hc] at h
      rw [List.cons_append, filled_cons hc, ih h]

theorem filled_of_not_mem {t : Text} (hne : t ≠ []) (ht : newline ∉ t) (fresh : Bool) :
    filled fresh t = true := by
  induction t generalizing fresh with
  | nil => exact absurd rfl hne
  | cons c t ih =>
    obtain ⟨hc, ht⟩ : newline ≠ c ∧ newline ∉ t := by simpa using ht
    rw [filled_cons hc.symm]
    by_cases hnil : t = []
    · rw [hnil]
      rfl
    · exact ih hnil ht false

theorem filled_unlines {ts : List Text} (hne : ts ≠ []) (h : ∀ t ∈ ts, filled true t = true) :
    filled true (unlines ts) = true := by
  induction ts with
  | nil => exact absurd rfl hne
  | cons t ts ih =>
    have ht := h t (by simp)
    by_cases hts : ts = []
    · rw [hts, unlines_singleton]
      exact ht
    · rw [unlines_cons t hts, filled_append ht, filled_newline,
        ih hts fun u hu => h u (List.mem_cons_of_mem t hu)]
      rfl

theorem filled_margin {margin t : Text} (hm : newline ∉ margin) (h : filled true t = true) :
    filled true (margin ++ t) = true := by
  by_cases hnil : margin = []
  · rw [hnil]
    exact h
  · rw [filled_append (filled_of_not_mem hnil hm true)]
    exact filled_of_fresh h

theorem filled_marginBehind {margin : Text} (hm : newline ∉ margin) {fresh : Bool} {t : Text}
    (h : filled fresh t = true) : filled fresh (marginBehind t margin) = true := by
  induction t generalizing fresh with
  | nil => exact h
  | cons c t ih =>
    by_cases hc : c = newline
    · rw [hc, filled_newline, Bool.and_eq_true] at h
      rw [hc, marginBehind_newline, filled_newline, h.1, Bool.true_and]
      exact filled_margin hm (ih h.2)
    · rw [filled_cons hc] at h
      rw [marginBehind_cons t margin hc, filled_cons hc]
      exact ih h

theorem filled_indent {margin t : Text} (hm : newline ∉ margin) (h : filled true t = true) :
    filled true (indent t margin) = true := by
  rw [indent_eq]
  exact filled_margin hm (filled_marginBehind hm h)

/-- The lines of a filled text are not empty, the first one apart that goes on something. -/
theorem ne_nil_of_filled {fresh : Bool} {t first : Text} {rest : List Text}
    (h : filled fresh t = true) (ht : lines t = first :: rest) :
    (fresh = true → first ≠ []) ∧ ∀ l ∈ rest, l ≠ [] := by
  induction t generalizing fresh first rest with
  | nil =>
    obtain ⟨rfl, rfl⟩ : first = [] ∧ rest = [] := by simpa [lines, eq_comm] using ht
    obtain rfl : fresh = false := by simpa [filled] using h
    simp
  | cons c t ih =>
    cases hlines : lines t with
    | nil => exact absurd hlines (lines_ne_nil t)
    | cons next others =>
      rw [lines, hlines] at ht
      by_cases hc : c = newline
      · rw [if_pos hc, List.cons.injEq] at ht
        rw [hc, filled_newline, Bool.and_eq_true] at h
        obtain ⟨hnext, hothers⟩ := ih h.2 hlines
        refine ⟨fun hfresh => absurd h.1 (by simp [hfresh]), ?_⟩
        rw [← ht.2]
        intro l hl
        rcases List.mem_cons.mp hl with rfl | hl
        · exact hnext rfl
        · exact hothers l hl
      · rw [if_neg hc, List.cons.injEq] at ht
        rw [filled_cons hc] at h
        rw [← ht.1, ← ht.2]
        exact ⟨fun _ => by simp, (ih h hlines).2⟩

/-! ## 4. Cutting at every boundary -/

theorem isBoundary_newline : isBoundary newline = true := by decide

theorem cutLines_newline (t : Text) : cutLines (newline :: t) = [] :: cutLines t := by
  rfl

theorem cutLines_cons {c : CodePoint} (hc : isBoundary c = false) {t first : Text}
    {rest : List Text} (ht : cutLines t = first :: rest) :
    cutLines (c :: t) = (c :: first) :: rest := by
  have hreturn : c ≠ .scalar '\r' := by
    rintro rfl
    cases hc
  simp [cutLines, hreturn, hc, ht]

/-- No piece of a text that is cut at every boundary holds one. -/
theorem isBoundary_of_mem_cutLines {t l : Text} {c : CodePoint} (hl : l ∈ cutLines t) (hc : c ∈ l) :
    isBoundary c = false := by
  fun_induction cutLines t generalizing l with
  | case1 => cases hl
  | case2 t ih =>
    rcases List.mem_cons.mp hl with rfl | hl
    · cases hc
    · exact ih hl hc
  | case3 d t _ _ ih =>
    rcases List.mem_cons.mp hl with rfl | hl
    · cases hc
    · exact ih hl hc
  | case4 d t _ hd _ _ =>
    obtain rfl : l = [d] := by simpa using hl
    obtain rfl : c = d := by simpa using hc
    simpa using hd
  | case5 d t _ hd first rest hrest ih =>
    rw [hrest] at ih
    rcases List.mem_cons.mp hl with rfl | hl
    · rcases List.mem_cons.mp hc with rfl | hc
      · simpa using hd
      · exact ih (List.mem_cons_self ..) hc
    · exact ih (List.mem_cons_of_mem first hl) hc

/-- A text whose boundaries are line feeds is cut at its line feeds. -/
theorem cutLines_append_newline {t : Text} (h : ∀ c ∈ t, isBoundary c = true → c = newline) :
    cutLines (t ++ [newline]) = lines t := by
  induction t with
  | nil => rfl
  | cons c t ih =>
    have ht := ih fun d hd => h d (List.mem_cons_of_mem c hd)
    rw [List.cons_append]
    by_cases hc : c = newline
    · rw [hc, cutLines_newline, ht, lines, if_pos rfl]
    · have hb : isBoundary c = false := by
        rw [Bool.eq_false_iff]
        intro hb
        exact hc (h c List.mem_cons_self hb)
      cases hlines : lines t with
      | nil => exact absurd hlines (lines_ne_nil t)
      | cons first rest => rw [cutLines_cons hb (ht.trans hlines), lines, if_neg hc, hlines]

/-! ## 5. Hanging -/

/-- A hung text has no boundary but line feeds. -/
theorem eq_newline_of_mem_hang {code margin : Text} (hm : ∀ c ∈ margin, isBoundary c = false)
    {c : CodePoint} (hc : c ∈ hang code margin) (hb : isBoundary c = true) : c = newline := by
  by_cases hnl : c = newline
  · exact hnl
  have hmargin : c ∉ margin := fun hmem => by
    rw [hm c hmem] at hb
    cases hb
  have hpiece : ∀ l ∈ cutLines (code ++ [newline]), c ∉ l := fun l hl hmem => by
    rw [isBoundary_of_mem_cutLines hl hmem] at hb
    cases hb
  unfold hang at hc
  split at hc
  · exact absurd hc hmargin
  · rename_i first rest hcut
    rw [hcut] at hpiece
    obtain ⟨l, hl, hcl⟩ := (mem_unlines_iff hnl _).mp hc
    -- A line is the margin, if any, and a piece, and neither holds a boundary.
    rcases List.mem_cons.mp hl with rfl | hl
    · have hfirst := hpiece first (List.mem_cons_self ..)
      exact absurd hcl (by simp [hmargin, hfirst])
    · obtain ⟨piece, hmem, rfl⟩ := List.mem_map.mp hl
      have hlater := hpiece piece (List.mem_cons_of_mem first hmem)
      split at hcl
      · cases hcl
      · exact absurd hcl (by simp [hmargin, hlater])

/-- **Hanging is indenting exactly if every boundary is a line feed**, for a text without an empty
    line. -/
theorem hang_eq_indent_iff {code margin : Text} (hm : ∀ c ∈ margin, isBoundary c = false)
    (hcode : filled true code = true) :
    hang code margin = indent code margin ↔ ∀ c ∈ code, isBoundary c = true → c = newline := by
  constructor
  · intro h c hc hb
    have hmargin : c ∉ margin := fun hmem => by
      rw [hm c hmem] at hb
      cases hb
    have hmem : c ∈ hang code margin := h ▸ (mem_indent_iff hmargin code).mpr hc
    exact eq_newline_of_mem_hang hm hmem hb
  · intro h
    rw [hang, cutLines_append_newline h, indent]
    cases hlines : lines code with
    | nil => exact absurd hlines (lines_ne_nil code)
    | cons first rest =>
      have hrest := (ne_nil_of_filled hcode hlines).2
      have hsame : (rest.map fun l => if l.isEmpty then [] else margin ++ l)
          = rest.map (margin ++ ·) := by
        refine List.map_congr_left fun l hl => ?_
        rw [if_neg (by simpa using hrest l hl)]
      rw [List.map_cons, ← hsame]

end TemplateTree.Text
