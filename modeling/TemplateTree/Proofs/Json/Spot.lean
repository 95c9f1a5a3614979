import TemplateTree.Proofs.Json.Word
import TemplateTree.Yaml.Lexeme

/-!
# Places in a text of one line

The text of a document is one line without comments, tags or anchors, so the reader of data files is
in few states on its way through it (`Yaml.Spot`). What it does at such a place is said once
(`Yaml.Spot.step_eq`), and from that for every kind of lexeme: from the place in front of it the reader
comes to a place behind it, and has the lexeme (`Yaml.Spot.Leads`).

The reader recognises a key by the colon behind it, and only if the key is not longer than
`Yaml.maxKeyLength`.
-/

namespace TemplateTree

/-! ## 1. Places on a line -/

namespace Yaml

open Json

/-- A place in a text of one line. No pending key is required, the end has not been reached, and no
    more is left than there is. -/
structure Spot where
  rest : List Char
  index : Nat
  flow : Nat
  keyAllowed : Bool
  pending : List (Nat × PendingKey)
  lexemes : List Lexeme
  size : Nat
  optional : ∀ p ∈ pending, p.2.required = false
  unfinished : Lexeme.streamEnd ∉ lexemes
  rest_le : rest.length ≤ size

namespace Spot

/-- The reader at a place. -/
def reader (s : Spot) : Reader where
  here := ⟨s.rest, s.index, 0, s.index⟩
  flow := s.flow
  keyAllowed := s.keyAllowed
  pending := s.pending
  lexemes := s.lexemes
  count := s.lexemes.length
  size := s.size

/-- The place without the pending keys that can no longer be keys. -/
def fresh (s : Spot) : Spot :=
  { s with
    pending := s.pending.filter fun p => !Reader.isStale s.reader.here p.2
    optional := fun p hp => s.optional p (List.mem_filter.mp hp).1 }

/-- The place without the pending key inside the innermost bracket. -/
def settled (s : Spot) : Spot :=
  { s with
    pending := s.pending.filter fun p => p.1 != s.flow
    optional := fun p hp => s.optional p (List.mem_filter.mp hp).1 }

/-- The place where the next lexeme is pending, if a key may start here. -/
def saved (s : Spot) : Spot :=
  if s.keyAllowed then
    { s with
      pending := (s.flow, ⟨s.lexemes.length, false, s.index, 0, s.index⟩) :: s.settled.pending
      optional := fun p hp => by
        rcases List.mem_cons.mp hp with rfl | hp
        · rfl
        · exact s.settled.optional p hp }
  else s

@[simp] theorem saved_rest (s : Spot) : s.saved.rest = s.rest := by
  unfold saved
  split <;> rfl

@[simp] theorem saved_flow (s : Spot) : s.saved.flow = s.flow := by
  unfold saved
  split <;> rfl

@[simp] theorem saved_lexemes (s : Spot) : s.saved.lexemes = s.lexemes := by
  unfold saved
  split <;> rfl

/-- The place behind some characters that are a lexeme. -/
def after (s : Spot) (count : Nat) (l : Lexeme) (hl : l ≠ .streamEnd) : Spot :=
  { s with
    rest := s.rest.drop count
    index := s.index + count
    lexemes := l :: s.lexemes
    unfinished := by simpa using ⟨hl.symm, s.unfinished⟩
    rest_le := Nat.le_trans (by simp) s.rest_le }

/-- The place where the last lexeme has become a key. -/
def keyed (s : Spot) {l : Lexeme} {ls : List Lexeme} (hlexemes : s.lexemes = l :: ls) : Spot :=
  { s.settled with
    lexemes := l :: .key :: ls
    unfinished := by simpa [hlexemes] using s.unfinished }

theorem dropStale_eq (s : Spot) : s.reader.dropStale = .ok s.fresh.reader := by
  have hany : (s.reader.pending.any fun p =>
      Reader.isStale s.reader.here p.2 && p.2.required) = false := by
    rw [List.any_eq_false]
    intro p hp
    simp [s.optional p hp]
  simp only [Reader.dropStale, hany]
  rfl

theorem dropPending_eq (s : Spot) : s.reader.dropPending = .ok s.settled.reader := by
  have hany : (s.reader.pending.any fun p => p.1 == s.reader.flow && p.2.required) = false := by
    rw [List.any_eq_false]
    intro p hp
    simp [s.optional p hp]
  simp only [Reader.dropPending, hany]
  rfl

theorem savePending_eq (s : Spot) : s.reader.savePending = .ok s.saved.reader := by
  unfold Reader.savePending saved
  have hrequired : (s.reader.flow == 0 && s.reader.indents.head? == some s.reader.here.column)
      = false := by
    simp [reader]
  by_cases hkey : s.keyAllowed = true
  · rw [if_pos hkey, if_pos (show s.reader.keyAllowed = true from hkey), dropPending_eq, hrequired]
    rfl
  · rw [if_neg hkey, if_neg (show ¬s.reader.keyAllowed = true from hkey)]

theorem dedent_eq (s : Spot) (stays : Nat → Bool) : s.reader.dedent stays = s.reader := by
  unfold Reader.dedent
  split
  · rfl
  · rfl

/-- A character that takes one column and is no break. -/
theorem next_eq {c : Char} (hc : isPlain c = true) (rest : List Char) (index : Nat) :
    (Cursor.mk (c :: rest) index 0 index).next = ⟨rest, index + 1, 0, index + 1⟩ := by
  have hbreak : isBreak c = false := isBreak_of_isPlain hc
  have hmark : (c == '\ufeff') = false := by
    rw [beq_eq_false_iff_ne]
    intro h
    rw [h] at hc
    exact absurd hc (by decide)
  simp [Cursor.next, hbreak, hmark]

theorem advance_eq {text rest : List Char} (htext : ∀ c ∈ text, isPlain c = true) (index : Nat) :
    (Cursor.mk (text ++ rest) index 0 index).advance text.length
      = ⟨rest, index + text.length, 0, index + text.length⟩ := by
  induction text generalizing index with
  | nil => rfl
  | cons c text ih =>
    rw [List.cons_append, List.length_cons, Cursor.advance, next_eq (htext c (by simp)),
      ih fun d hd => htext d (by simp [hd])]
    simp only [Cursor.mk.injEq, true_and]
    omega

theorem take_eq {s : Spot} {text rest : List Char} (hs : s.rest = text ++ rest)
    (htext : ∀ c ∈ text, isPlain c = true) {l : Lexeme} (hl : l ≠ .streamEnd) :
    s.reader.take text.length l = (s.after text.length l hl).reader := by
  have hdrop : s.rest.drop text.length = rest := by simp [hs]
  simp only [Reader.take, Reader.pass, Reader.push, reader, after, hdrop]
  rw [hs, advance_eq htext]
  rfl

/-! ## 2. Steps -/

/-- A character that starts a lexeme, which is no mark between documents or of a directive, whatever
    the column. -/
structure Starts (c : Char) (behind : List Char) : Prop where
  plain : isPlain c = true
  ne_space : c ≠ ' '
  ne_comment : c ≠ '#'
  ne_directive : c ≠ '%'
  no_start : startsDocument (c :: behind) = false
  no_end : endsDocument (c :: behind) = false

theorem Starts.ne_mark {c : Char} {behind : List Char} (h : Starts c behind) : c ≠ '\ufeff' := by
  intro hc
  have hplain := h.plain
  rw [hc] at hplain
  exact absurd hplain (by decide)

/-- The reader at the next lexeme skips nothing. -/
theorem skip_eq {s : Spot} {c : Char} {behind : List Char} (hs : s.rest = c :: behind)
    (h : Starts c behind) : s.reader.skip = s.reader := by
  have hbom : ¬(s.reader.here.index = 0 ∧ s.reader.rest.head? = some '\ufeff') := by
    intro hbom
    have hhead : some c = some '\ufeff' := by
      rw [← hbom.2]
      simp [Reader.rest, reader, hs]
    exact h.ne_mark (Option.some.inj hhead)
  have hignored : Reader.skipIgnored false false s.reader.here s.reader.here.rest
      = (s.reader.here, false) := by
    have hrest : s.reader.here.rest = c :: behind := hs
    have hc : (c == ' ') = false := by simpa using h.ne_space
    rw [hrest]
    simp [Reader.skipIgnored, isBreak_of_isPlain h.plain, hc, h.ne_comment]
  simp only [Reader.skip, if_neg hbom, hignored, Bool.false_and, Bool.or_false]

/-- **What the reader does at the start of a lexeme.** -/
theorem step_eq {s : Spot} {c : Char} {behind : List Char} (hs : s.rest = c :: behind)
    (h : Starts c behind) : s.reader.step = s.fresh.reader.lexeme c behind := by
  have hrest : s.fresh.reader.rest = c :: behind := hs
  unfold Reader.step
  rw [skip_eq hs h, dropStale_eq]
  simp only [bind, Except.bind]
  rw [dedent_eq, hrest]
  simp [h.ne_directive, h.no_start, h.no_end]

/-- A place behind a space. -/
def afterSpace (s : Spot) (c : Char) (behind : List Char) (hs : s.rest = ' ' :: c :: behind) : Spot :=
  { s with
    rest := c :: behind
    index := s.index + 1
    rest_le := by
      have := s.rest_le
      rw [hs] at this
      simp at this ⊢
      omega }

theorem step_afterSpace {s : Spot} {c : Char} {behind : List Char} (hs : s.rest = ' ' :: c :: behind)
    (h : Starts c behind) : s.reader.step = (s.afterSpace c behind hs).reader.step := by
  have hskip : s.reader.skip = (s.afterSpace c behind hs).reader.skip := by
    have hbehind : (s.afterSpace c behind hs).reader.skip = (s.afterSpace c behind hs).reader :=
      skip_eq rfl h
    rw [hbehind]
    have hbom : ¬(s.reader.here.index = 0 ∧ s.reader.rest.head? = some '\ufeff') := by
      intro hbom
      have hhead : some ' ' = some '\ufeff' := by
        rw [← hbom.2]
        simp [Reader.rest, reader, hs]
      exact absurd hhead (by decide)
    have hhere : s.reader.here = ⟨' ' :: c :: behind, s.index, 0, s.index⟩ := by
      simp [reader, hs]
    have hc : (c == ' ') = false := by simpa using h.ne_space
    have hignored : Reader.skipIgnored false false s.reader.here s.reader.here.rest
        = (⟨c :: behind, s.index + 1, 0, s.index + 1⟩, false) := by
      have hbreak : isBreak ' ' = false := rfl
      have hnext : s.reader.here.next = ⟨c :: behind, s.index + 1, 0, s.index + 1⟩ := by
        rw [hhere]
        exact next_eq rfl _ _
      have hrest : s.reader.here.rest = ' ' :: c :: behind := hs
      rw [hrest]
      simp [Reader.skipIgnored, hbreak, isBreak_of_isPlain h.plain, hc, h.ne_comment, hnext]
    simp only [Reader.skip, if_neg hbom, hignored, Bool.false_and, Bool.or_false]
    rfl
  unfold Reader.step
  rw [hskip]

theorem isDone_eq (s : Spot) : s.reader.isDone = false := by
  unfold Reader.isDone
  rw [beq_eq_false_iff_ne]
  intro h
  exact s.unfinished (List.mem_of_mem_head? h)

/-- The reader comes from one place to another, with no more steps than characters. -/
def Moves (s s' : Spot) : Prop :=
  ∃ steps, steps + s'.rest.length ≤ s.rest.length ∧
    ∀ fuel, Reader.run none (fuel + steps) s.reader = Reader.run none fuel s'.reader

theorem Moves.trans {s s' s'' : Spot} (h : Moves s s') (h' : Moves s' s'') : Moves s s'' := by
  obtain ⟨a, ha, hrun⟩ := h
  obtain ⟨b, hb, hrun'⟩ := h'
  refine ⟨b + a, by omega, fun fuel => ?_⟩
  rw [← Nat.add_assoc, hrun, hrun']

theorem run_succ {s : Spot} {r : Reader} (h : s.reader.step = .ok r) (fuel : Nat) :
    Reader.run none (fuel + 1) s.reader = Reader.run none fuel r := by
  simp [Reader.run, isDone_eq, Reader.stepWithin, h]

/-- **At the end of the text the reader is done.** -/
theorem run_end {s : Spot} (hs : s.rest = []) (fuel : Nat) :
    Reader.run none (fuel + 2) s.reader = ⟨s.lexemes.reverse ++ [.streamEnd], none⟩ := by
  have hskip : s.reader.skip = s.reader := by
    have hbom : ¬(s.reader.here.index = 0 ∧ s.reader.rest.head? = some '\ufeff') := by
      simp [Reader.rest, reader, hs]
    have hignored : Reader.skipIgnored false false s.reader.here s.reader.here.rest
        = (s.reader.here, false) := by
      have hrest : s.reader.here.rest = [] := hs
      rw [hrest]
      rfl
    simp only [Reader.skip, if_neg hbom, hignored, Bool.false_and, Bool.or_false]
  have hmargin : s.fresh.reader.atMargin
      = .ok { s.fresh.settled.reader with keyAllowed := false } := by
    rw [Reader.atMargin, Reader.dedentAll, dedent_eq, dropPending_eq]
    rfl
  have hstep : s.reader.step = .ok { s.fresh.settled.reader.push .streamEnd with
      keyAllowed := false, pending := [] } := by
    have hrest : s.fresh.reader.rest = [] := hs
    unfold Reader.step
    rw [hskip, dropStale_eq]
    simp only [bind, Except.bind]
    rw [dedent_eq, hrest]
    simp only [hmargin]
    rfl
  rw [run_succ hstep]
  simp [Reader.run, Reader.isDone, Reader.push, reader, settled, fresh]

theorem Moves.of_step {s s' : Spot} (h : s.reader.step = .ok s'.reader)
    (hlt : s'.rest.length < s.rest.length) : Moves s s' :=
  ⟨1, by omega, run_succ h⟩

/-- The reader comes from one place to another and finds some lexemes on the way. -/
structure Leads (s s' : Spot) (ls : List Lexeme) : Prop where
  moves : Moves s s'
  lexemes : s'.lexemes = ls.reverse ++ s.lexemes

theorem Leads.refl (s : Spot) : Leads s s [] := ⟨⟨0, by omega, fun _ => rfl⟩, rfl⟩

theorem Leads.trans {s s' s'' : Spot} {ls ls' : List Lexeme} (h : Leads s s' ls)
    (h' : Leads s' s'' ls') : Leads s s'' (ls ++ ls') where
  moves := h.moves.trans h'.moves
  lexemes := by rw [h'.lexemes, h.lexemes, List.reverse_append, List.append_assoc]

/-! ## 3. Lexemes -/

/-- What may stand in front of a lexeme. -/
def IsGap (gap : List Char) : Prop := gap = [] ∨ gap = [' ']

/-- **A lexeme is read at the place of its first character**, whatever stands in front of it. -/
theorem exists_place {s : Spot} {gap behind : List Char} {c : Char} (hgap : IsGap gap)
    (hs : s.rest = gap ++ c :: behind) (hc : Starts c behind) :
    ∃ p : Spot, p.rest = c :: behind ∧ s.reader.step = p.reader.lexeme c behind ∧
      p.rest.length ≤ s.rest.length ∧ p.flow = s.flow ∧ p.keyAllowed = s.keyAllowed ∧
      p.lexemes = s.lexemes := by
  rcases hgap with rfl | rfl
  · exact ⟨s.fresh, hs, step_eq hs hc, Nat.le_refl _, rfl, rfl, rfl⟩
  · refine ⟨(s.afterSpace c behind hs).fresh, rfl, ?_, ?_, rfl, rfl, rfl⟩
    · rw [step_afterSpace hs hc]
      exact step_eq rfl hc
    · rw [hs]
      simp [afterSpace, fresh]

/-- A step over some characters that are a lexeme, of which there are not more than are left. -/
theorem leads_of_take {s b : Spot} {text behind : List Char} {l : Lexeme} (hl : l ≠ .streamEnd)
    {flow : Nat} {keyAllowed : Bool} (hb : b.rest = text ++ behind)
    (htext : ∀ c ∈ text, isPlain c = true) (hne : text ≠ [])
    (hle : b.rest.length ≤ s.rest.length) (hlexemes : b.lexemes = s.lexemes)
    (hstep : s.reader.step = .ok { b.reader.take text.length l with flow, keyAllowed }) :
    Leads s { b.after text.length l hl with flow, keyAllowed } [l] := by
  have hpos : 0 < text.length := List.length_pos_iff.mpr hne
  refine ⟨.of_step ?_ ?_, ?_⟩
  · rw [hstep, take_eq hb htext hl]
    rfl
  · show (b.rest.drop text.length).length < s.rest.length
    rw [List.length_drop]
    rw [hb, List.length_append] at hle ⊢
    omega
  · show l :: b.lexemes = _
    rw [hlexemes]
    rfl

theorem after_rest {b : Spot} {text behind : List Char} {l : Lexeme} (hl : l ≠ .streamEnd)
    (hb : b.rest = text ++ behind) : (b.after text.length l hl).rest = behind := by
  simp [after, hb]

section

variable {s : Spot} {gap behind : List Char} (hgap : IsGap gap)

include hgap

/-- A bracket that opens. -/
theorem exists_open {c : Char} {l : Lexeme} (hs : s.rest = gap ++ c :: behind) (hc : Starts c behind)
    (hlexeme : ∀ r : Reader, r.lexeme c behind = r.openFlow l) (hl : l ≠ .streamEnd) :
    ∃ s', Leads s s' [l] ∧ s'.rest = behind ∧ s'.flow = s.flow + 1 ∧ s'.keyAllowed = true := by
  obtain ⟨p, hrest, hstep, hle, hflow, -, hlexemes⟩ := exists_place hgap hs hc
  have hb : p.saved.rest = [c] ++ behind := by rw [saved_rest]; exact hrest
  have hbflow : p.saved.flow = s.flow := by rw [saved_flow]; exact hflow
  rw [hlexeme, Reader.openFlow, savePending_eq] at hstep
  rw [← hbflow]
  exact ⟨_, leads_of_take hl hb (by simpa using hc.plain) (by simp) (by simpa using hle)
    (by simpa using hlexemes) hstep, after_rest hl hb, rfl, rfl⟩

/-- A bracket that closes. -/
theorem exists_close {c : Char} {l : Lexeme} (hs : s.rest = gap ++ c :: behind) (hc : Starts c behind)
    (hlexeme : ∀ r : Reader, r.lexeme c behind = r.closeFlow l) (hl : l ≠ .streamEnd) :
    ∃ s', Leads s s' [l] ∧ s'.rest = behind ∧ s'.flow = s.flow - 1 ∧ s'.keyAllowed = false := by
  obtain ⟨p, hrest, hstep, hle, hflow, -, hlexemes⟩ := exists_place hgap hs hc
  have hb : p.settled.rest = [c] ++ behind := hrest
  rw [hlexeme, Reader.closeFlow, dropPending_eq] at hstep
  rw [← hflow]
  exact ⟨_, leads_of_take hl hb (by simpa using hc.plain) (by simp) hle hlexemes hstep,
    after_rest hl hb, rfl, rfl⟩

/-- A comma between entries. -/
theorem exists_comma (hs : s.rest = gap ++ ',' :: behind) :
    ∃ s', Leads s s' [.flowEntry] ∧ s'.rest = behind ∧ s'.flow = s.flow ∧ s'.keyAllowed = true := by
  have hc : Starts ',' behind := ⟨rfl, by decide, by decide, by decide, rfl, rfl⟩
  obtain ⟨p, hrest, hstep, hle, hflow, -, hlexemes⟩ := exists_place hgap hs hc
  have hb : p.settled.rest = [','] ++ behind := hrest
  have hlexeme : p.reader.lexeme ',' behind = p.reader.flowEntry := rfl
  rw [hlexeme, Reader.flowEntry, dropPending_eq] at hstep
  rw [← hflow]
  have hl : Lexeme.flowEntry ≠ .streamEnd := by decide
  exact ⟨_, leads_of_take hl hb (by simp [isPlain]) (by simp) hle hlexemes hstep, after_rest hl hb, rfl,
    rfl⟩

/-- A text between quotes. Where a key may start, it is pending from then on. -/
theorem exists_literal {t : Text} (ht : ∀ c ∈ t, c.val < 0x10000)
    (hs : s.rest = gap ++ (literal t ++ behind)) :
    ∃ s', Leads s s' [.scalar false t] ∧ s'.rest = behind ∧ s'.flow = s.flow ∧
      s'.keyAllowed = false ∧
      (s.keyAllowed = true → ∃ k, s'.pending.head? = some (s.flow, k) ∧
        k.position = s.lexemes.length ∧ k.line = 0 ∧ s'.index = k.index + (literal t).length) := by
  have hwritten : literal t ++ behind = '"' :: (t.flatMap Json.escape ++ '"' :: behind) := by
    simp [literal]
  rw [hwritten] at hs
  have hc : Starts '"' (t.flatMap Json.escape ++ '"' :: behind) :=
    ⟨rfl, by decide, by decide, by decide, rfl, rfl⟩
  obtain ⟨p, hrest, hstep, hle, hflow, hkey, hlexemes⟩ := exists_place hgap hs hc
  have hb : p.saved.rest = literal t ++ behind := by
    rw [saved_rest, hwritten]
    exact hrest
  have hdrop : p.saved.reader.rest.drop 1 = t.flatMap Json.escape ++ '"' :: behind := by
    show p.saved.rest.drop 1 = _
    rw [hb, hwritten]
    rfl
  have hquoted : quoted true p.reader.size (t.flatMap Json.escape ++ '"' :: behind)
      = .ok (t, (t.flatMap Json.escape).length + 1) := by
    refine quotedPieces_flatMap_escape ht behind ?_
    have hsize : p.rest.length ≤ p.reader.size := p.rest_le
    have hescaped := length_le_flatMap_escape t
    rw [hrest, List.length_cons, List.length_append] at hsize
    omega
  have hlexeme : p.reader.lexeme '"' (t.flatMap Json.escape ++ '"' :: behind)
      = p.reader.keyLike fun cs =>
        (quoted true p.reader.size cs).map fun p => (.scalar false p.1, p.2) := rfl
  have hlength : 1 + ((t.flatMap Json.escape).length + 1) = (literal t).length := by
    simp [literal]
    omega
  rw [hlexeme, Reader.keyLike, savePending_eq] at hstep
  simp only [bind, Except.bind, hdrop, hquoted, Except.map, pure, Except.pure, hlength] at hstep
  have hl : Lexeme.scalar false t ≠ .streamEnd := by simp
  refine ⟨_, leads_of_take hl hb (isPlain_literal t) (by simp [literal]) (by simpa using hle)
    (by simpa using hlexemes) hstep, after_rest hl hb, ?_, rfl, ?_⟩
  · show p.saved.flow = s.flow
    rw [saved_flow, hflow]
  · intro hallowed
    have hsaved : p.saved.pending.head?
        = some (p.flow, ⟨p.lexemes.length, false, p.index, 0, p.index⟩) := by
      simp [saved, hkey, hallowed]
    have hindex : p.saved.index = p.index := by
      unfold saved
      split <;> rfl
    exact ⟨_, by rw [← hflow]; exact hsaved, by rw [← hlexemes], rfl, by rw [← hindex]; rfl⟩

omit hgap in
/-- A pending key that is not too long can still be one. -/
theorem lookup_fresh {k : PendingKey} (hhead : s.pending.head? = some (s.flow, k)) (hline : k.line = 0)
    (hlength : s.index - k.index ≤ maxKeyLength) :
    s.fresh.reader.pending.lookup s.flow = some k := by
  have hstale : Reader.isStale s.reader.here k = false := by
    simp [Reader.isStale, reader, hline, Nat.not_lt.mpr hlength]
  obtain ⟨more, hmore⟩ := List.head?_eq_some_iff.mp hhead
  show (s.pending.filter fun p => !Reader.isStale s.reader.here p.2).lookup s.flow = some k
  rw [hmore, List.filter_cons_of_pos (by simp [hstale]), List.lookup_cons_self]

omit hgap in
/-- A colon makes a key of the lexeme in front of it, if a key is pending there. -/
theorem value_eq {k : PendingKey} {l : Lexeme} {ls : List Lexeme} (hflow : s.flow ≠ 0)
    (hlexemes : s.lexemes = l :: ls) (hposition : k.position = ls.length)
    (hlookup : s.reader.pending.lookup s.flow = some k) :
    s.reader.value
      = .ok { (s.keyed hlexemes).reader.take 1 .value with keyAllowed := false } := by
  have hinsert : Reader.insert { s.reader with
      pending := s.reader.pending.filter fun p => p.1 != s.reader.flow } k.position .key
      = (s.keyed hlexemes).reader := by
    have hlater : s.lexemes.length - k.position = 1 := by
      rw [hlexemes, hposition, List.length_cons]
      omega
    have hlists : s.lexemes.take 1 ++ .key :: s.lexemes.drop 1 = (s.keyed hlexemes).lexemes := by
      rw [hlexemes]
      rfl
    have hcount : s.lexemes.length + 1 = (s.keyed hlexemes).lexemes.length := by
      rw [hlexemes]
      rfl
    simp only [Reader.insert, reader, hlater, hlists, hcount]
    rfl
  have hin : ¬((s.keyed hlexemes).reader.flow = 0
      ∧ (s.keyed hlexemes).reader.isDeeper k.column = true) := fun h => hflow h.1
  rw [Reader.value, show s.reader.pending.lookup s.reader.flow = some k from hlookup]
  simp only [hinsert, if_neg hin]
  rfl

/-- A text between quotes, where a key may start, and the colon behind it. -/
theorem exists_key {t : Text} (ht : ∀ c ∈ t, c.val < 0x10000)
    (hlength : (literal t).length ≤ maxKeyLength) (hallowed : s.keyAllowed = true)
    (hflow : s.flow ≠ 0) (hs : s.rest = gap ++ (literal t ++ ':' :: behind)) :
    ∃ s', Leads s s' [.key, .scalar false t, .value] ∧ s'.rest = behind ∧ s'.flow = s.flow ∧
      s'.keyAllowed = false := by
  obtain ⟨q, hq, hrest, hqflow, -, hpending⟩ := exists_literal hgap ht hs
  obtain ⟨k, hhead, hposition, hline, hindex⟩ := hpending hallowed
  rw [← hqflow] at hhead hflow
  have hlookup := lookup_fresh hhead hline (by omega)
  have hlexemes : q.fresh.lexemes = .scalar false t :: s.lexemes := hq.lexemes
  have hstep := step_eq hrest ⟨rfl, by decide, by decide, by decide, rfl, rfl⟩
  have hlexeme : q.fresh.reader.lexeme ':' behind = q.fresh.reader.value := by
    simp [Reader.lexeme, show q.fresh.reader.flow ≠ 0 from hflow]
  have hb : (q.fresh.keyed hlexemes).rest = [':'] ++ behind := hrest
  have hl : Lexeme.value ≠ .streamEnd := by decide
  refine ⟨{ (q.fresh.keyed hlexemes).after 1 .value hl with keyAllowed := false },
    ⟨hq.moves.trans (.of_step ?_ ?_), rfl⟩, after_rest hl hb, hqflow, rfl⟩
  · have hvalue := value_eq (s := q.fresh) hflow hlexemes hposition hlookup
    rw [hstep, hlexeme, hvalue]
    exact congrArg (fun r : Reader => Except.ok { r with keyAllowed := false })
      (take_eq hb (by simp [isPlain]) hl)
  · show ((q.fresh.keyed hlexemes).rest.drop 1).length < q.rest.length
    rw [hb, hrest]
    simp

end

/-! ## 4. Words -/

/-- What may stand behind a word: in brackets a comma or a bracket that closes, else nothing. -/
def Ends (flow : Nat) (behind : List Char) : Prop :=
  (flow = 0 ∧ behind = []) ∨
    (flow ≠ 0 ∧ ∃ c rest, behind = c :: rest ∧ c ∈ [',', ']', '\x7d'])

theorem isPlain_of_wordMark : ∀ c ∈ wordMarks, isPlain c = true :=
  List.all_iff_forall_prop.mp (by decide)

theorem endsPlain_of_wordMark (inFlow : Bool) {c : Char} (hc : c ∈ wordMarks) (rest : List Char) :
    endsPlain inFlow c rest = false := by
  have hall : ∀ c ∈ wordMarks, isSpace c = false ∧ c ≠ ':' ∧ c ≠ '?' ∧ isFlowMark c = false :=
    List.all_iff_forall_prop.mp (by decide)
  obtain ⟨hspace, hcolon, hmark, hflow⟩ := hall c hc
  simp [endsPlain, hspace, hcolon, hmark, hflow]

/-- A word ends where nothing of it can follow. -/
theorem plainWord_append {w behind : List Char} {flow : Nat} (hw : ∀ c ∈ w, c ∈ wordMarks)
    (hbehind : Ends flow behind) : plainWord (flow != 0) (w ++ behind) = (w, behind) := by
  induction w with
  | nil =>
    rcases hbehind with ⟨-, rfl⟩ | ⟨hflow, c, rest, rfl, hc⟩
    · rfl
    · have hall : ∀ c ∈ [',', ']', '\x7d'], isFlowMark c = true :=
        List.all_iff_forall_prop.mp (by decide)
      simp [plainWord, endsPlain, hflow, hall c hc]
  | cons c w ih =>
    have hmore := ih fun d hd => hw d (by simp [hd])
    have hc := endsPlain_of_wordMark (flow != 0) (hw c (by simp)) (w ++ behind)
    simp only [List.cons_append, plainWord, hc, hmore]
    rfl

/-- **A word is read as a plain scalar.** -/
theorem plain_word {w behind : List Char} {flow : Nat} (hw : Word w) (hbehind : Ends flow behind)
    (indent : Nat) {most : Nat} (hmost : 0 < most) :
    plain (flow != 0) indent most (w ++ behind) = ⟨w, w.length, false⟩ := by
  obtain ⟨most, rfl⟩ : ∃ k, most = k + 1 := ⟨most - 1, by omega⟩
  obtain ⟨c, rest, rfl, -⟩ := hw.head
  have hcomment : c ≠ '#' := by
    intro hc
    exact absurd (hw.marks c (by simp)) (by rw [hc]; decide)
  have hspaces : behind.takeWhile isGap = [] := by
    rcases hbehind with ⟨-, rfl⟩ | ⟨-, d, more, rfl, hd⟩
    · rfl
    · have hall : ∀ d ∈ [',', ']', '\x7d'], isGap d = false :=
        List.all_iff_forall_prop.mp (by decide)
      simp [hall d hd]
  have hbreaks : breaks [] = [] := rfl
  rw [plain, plainWords, plainWord_append hw.marks hbehind]
  simp [hcomment, hspaces, hbreaks]

theorem lexeme_word {c : Char} {rest behind : List Char} (hw : Word (c :: rest)) (r : Reader) :
    r.lexeme c (rest ++ behind) = r.plainScalar := by
  rcases hw.cases_head with hc | ⟨rfl, d, rest', rfl, hd⟩
  · simp only [digitMarks, List.cons_append, List.nil_append, List.mem_cons, List.not_mem_nil,
      or_false] at hc
    rcases hc with rfl | rfl | rfl | rfl | rfl | rfl | rfl | rfl | rfl | rfl | rfl | rfl | rfl <;> rfl
  · simp only [digitMarks, List.mem_cons, List.not_mem_nil, or_false] at hd
    rcases hd with rfl | rfl | rfl | rfl | rfl | rfl | rfl | rfl | rfl | rfl <;> rfl

theorem starts_word {c : Char} {rest behind : List Char} (hw : Word (c :: rest)) :
    Starts c (rest ++ behind) := by
  have hmarks : ∀ c ∈ wordMarks, c ≠ ' ' ∧ c ≠ '#' ∧ c ≠ '%' :=
    List.all_iff_forall_prop.mp (by decide)
  obtain ⟨hspace, hcomment, hdirective⟩ := hmarks c (hw.marks c (by simp))
  refine ⟨isPlain_of_wordMark c (hw.marks c (by simp)), hspace, hcomment, hdirective, ?_, ?_⟩
  · rcases hw.cases_head with hc | ⟨rfl, d, rest', rfl, hd⟩
    · have hall : ∀ c ∈ digitMarks ++ ['f', 'n', 't'], c ≠ '-' :=
        List.all_iff_forall_prop.mp (by decide)
      simp [startsDocument, hall c hc]
    · have hall : ∀ d ∈ digitMarks, d ≠ '-' :=
        List.all_iff_forall_prop.mp (by decide)
      simp [startsDocument, hall d hd]
  · have hall : ∀ c ∈ digitMarks ++ ['f', 'n', 't', '-'], c ≠ '.' :=
      List.all_iff_forall_prop.mp (by decide)
    have hc : c ≠ '.' := by
      rcases hw.cases_head with hc | ⟨rfl, -⟩
      · exact hall c (by simp at hc ⊢; grind)
      · decide
    simp [endsDocument, hc]

/-- A word or a number. -/
theorem exists_word {s : Spot} {gap w behind : List Char} (hgap : IsGap gap) (hw : Word w)
    (hbehind : Ends s.flow behind) (hs : s.rest = gap ++ (w ++ behind)) :
    ∃ s', Leads s s' [.scalar true (Text.ofChars w)] ∧ s'.rest = behind ∧ s'.flow = s.flow ∧
      s'.keyAllowed = false := by
  obtain ⟨c, rest, rfl, -⟩ := hw.head
  rw [List.cons_append] at hs
  obtain ⟨p, hrest, hstep, hle, hflow, -, hlexemes⟩ := exists_place hgap hs (starts_word hw)
  have hb : p.saved.rest = c :: rest ++ behind := by rw [saved_rest]; exact hrest
  have hbflow : p.saved.flow = s.flow := by rw [saved_flow, hflow]
  have hsize : 0 < p.saved.reader.size := by
    have hle := p.saved.rest_le
    rw [hb, List.cons_append, List.length_cons] at hle
    exact Nat.lt_of_lt_of_le (Nat.succ_pos _) hle
  have hplain : plain (p.saved.reader.flow != 0) 0 p.saved.reader.size p.saved.reader.rest
      = ⟨c :: rest, (c :: rest).length, false⟩ := by
    show plain (p.saved.flow != 0) 0 p.saved.reader.size p.saved.rest = _
    rw [hbflow, hb]
    exact plain_word hw hbehind 0 hsize
  rw [lexeme_word hw, Reader.plainScalar, savePending_eq] at hstep
  have hl : Lexeme.scalar true (Text.ofChars (c :: rest)) ≠ .streamEnd := by simp
  have htaken : s.reader.step = .ok { p.saved.reader.take (c :: rest).length
      (.scalar true (Text.ofChars (c :: rest))) with flow := p.saved.flow, keyAllowed := false } := by
    rw [hstep]
    exact congrArg (fun q : Plain => Except.ok { p.saved.reader.take q.size
      (.scalar true (Text.ofChars q.text)) with keyAllowed := q.brokeLine }) hplain
  exact ⟨_, leads_of_take hl hb (fun d hd => isPlain_of_wordMark d (hw.marks d hd)) (by simp)
    (by simpa using hle) (by simpa using hlexemes) htaken, after_rest hl hb, hbflow, rfl⟩

end Spot

end Yaml

end TemplateTree
