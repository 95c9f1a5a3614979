import TemplateTree.Proofs.Target.Syntax
import TemplateTree.Proofs.Text.Indent
import TemplateTree.Text.Literal
import TemplateTree.Number.Decimal

/-!
# From text to lexemes

The text of an expression is read from left to right by a machine (`Mode.step`) whose mode says what
it is in the middle of: nothing, a word, a colon that may turn out to bind a name, or a literal. Line
feeds count as blanks, as they do between brackets, but no literal goes over one; so blanks that are
put behind line feeds never change what is read (`scan_indent`).

* `lexemes?`: the lexemes of a text;
* `Scans`: a text is read as some lexemes from wherever a new lexeme may start; the texts of the
  language are put together by `Scans.append`.
-/

namespace TemplateTree.Target

/-! ## 1. Words -/

/-- Whether a code point belongs to a word: letters, digits, the underscore and everything outside
    ASCII. -/
def isWordPart : CodePoint → Bool
  | .scalar c => c.isAlphanum || c == '_' || 0x80 ≤ c.toNat
  | .surrogate _ => true

/-- The number that is written by a word of digits. -/
def number? (word : Text) : Option Nat :=
  match word.chars? with
  | some cs => if cs.all Char.isDigit then some (Nat.ofDigitChars 10 cs 0) else none
  | none => none

/-- The reserved words that occur in expressions. -/
def words : List (String × Lexeme) := [
  ("lambda", .lambdaWord), ("if", .ifWord), ("else", .elseWord), ("for", .forWord), ("in", .inWord),
  ("and", .andWord), ("or", .orWord), ("not", .notWord), ("None", .noneWord), ("True", .trueWord),
  ("False", .falseWord)]

/-- The lexeme of a word: a number, a reserved word or a name. -/
def Lexeme.ofWord? (word : Text) : Option Lexeme :=
  match number? word with
  | some n => some (.number n)
  | none =>
    match words.find? fun w => Text.ofString w.1 = word with
    | some w => some w.2
    | none => if Identifier.isName word then some (.name word) else none

/-! ## 2. The machine -/

/-- What the machine is in the middle of. -/
inductive Mode where
  | blank
  | word (seen : Text)
  | colon
  | literal (seen : Text)
  /-- Behind a backslash in a literal. -/
  | escape (seen : Text)
  /-- In the number of a code point in a literal, with so many digits to come. -/
  | hex (seen : Text) (missing value : Nat)
deriving DecidableEq, Repr

/-- The value of a lower case hexadecimal digit. -/
def hexValue? (c : Char) : Option Nat :=
  if '0' ≤ c ∧ c ≤ '9' then some (c.toNat - '0'.toNat)
  else if 'a' ≤ c ∧ c ≤ 'f' then some (c.toNat - 'a'.toNat + 10)
  else none

/-- The code point that a letter behind a backslash stands for. -/
def escaped? : Char → Option Char
  | '"' => some '"'
  | '\\' => some '\\'
  | 'n' => some '\n'
  | 'r' => some '\r'
  | 't' => some '\t'
  | 'b' => some '\x08'
  | 'f' => some '\x0c'
  | _ => none

namespace Mode

/-- What is pending in a mode and ends where a new lexeme starts. -/
def settle? : Mode → Option (List Lexeme)
  | blank => some []
  | word seen => (Lexeme.ofWord? seen).map ([·])
  | colon => some [.colon]
  | _ => none

/-- A mark, with which no word goes on. -/
def mark : Char → Option (Mode × List Lexeme)
  | ' ' => some (blank, [])
  | '\n' => some (blank, [])
  | '"' => some (literal [], [])
  | '(' => some (blank, [.openRound])
  | ')' => some (blank, [.closeRound])
  | '[' => some (blank, [.openSquare])
  | ']' => some (blank, [.closeSquare])
  | ',' => some (blank, [.comma])
  | '.' => some (blank, [.dot])
  | '=' => some (blank, [.equals])
  | '-' => some (blank, [.minus])
  | ':' => some (colon, [])
  | _ => none

/-- The first code point of a lexeme. -/
def enter (c : CodePoint) : Option (Mode × List Lexeme) :=
  if isWordPart c then some (word [c], []) else c.char?.bind mark

/-- A code point of a literal as it stands; line ends and surrogates do not stand in one. -/
def raw (seen : Text) : CodePoint → Option (Mode × List Lexeme)
  | .scalar '"' => some (blank, [.text seen])
  | .scalar '\\' => some (escape seen, [])
  | .scalar '\n' => none
  | .scalar '\r' => none
  | .scalar c => some (literal (seen ++ [.scalar c]), [])
  | .surrogate _ => none

/-- One more digit of the number of a code point. -/
def digit (seen : Text) (missing value : Nat) (c : CodePoint) : Option (Mode × List Lexeme) := do
  let value := 16 * value + (← hexValue? (← c.char?))
  match missing with
  | 0 => none
  | 1 => return (literal (seen ++ [← CodePoint.ofNat? value]), [])
  | missing + 2 => return (hex seen (missing + 1) value, [])

/-- One code point: the mode behind it, and the lexemes that are complete with it. -/
def step (m : Mode) (c : CodePoint) : Option (Mode × List Lexeme) :=
  match m with
  | literal seen => raw seen c
  | escape seen =>
    if c = .scalar 'u' then some (hex seen 4 0, [])
    else do return (literal (seen ++ [.scalar (← escaped? (← c.char?))]), [])
  | hex seen missing value => digit seen missing value c
  | word seen =>
    if isWordPart c then some (word (seen ++ [c]), [])
    else do
      let next ← enter c
      return (next.1, (← settle? (word seen)) ++ next.2)
  | colon =>
    if c = .scalar '=' then some (blank, [.binds])
    else do
      let next ← enter c
      return (next.1, .colon :: next.2)
  | blank => enter c

end Mode

/-- The mode behind a text, and the lexemes that are complete in it. -/
def scan (m : Mode) : Text → Option (Mode × List Lexeme)
  | [] => some (m, [])
  | c :: rest => do
    let first ← m.step c
    let second ← scan first.1 rest
    return (second.1, first.2 ++ second.2)

/-- The lexemes of a text. -/
def lexemes? (t : Text) : Option (List Lexeme) := do
  let (m, ls) ← scan .blank t
  return ls ++ (← m.settle?)

/-! ## 3. Texts one after another -/

theorem scan_cons {m m₁ m₂ : Mode} {c : CodePoint} {t : Text} {ls ks : List Lexeme}
    (h : m.step c = some (m₁, ls)) (ht : scan m₁ t = some (m₂, ks)) :
    scan m (c :: t) = some (m₂, ls ++ ks) := by
  simp [scan, h, ht]

theorem exists_of_scan_cons {m m₂ : Mode} {c : CodePoint} {t : Text} {ls : List Lexeme}
    (h : scan m (c :: t) = some (m₂, ls)) :
    ∃ m₁ ks₁ ks₂, m.step c = some (m₁, ks₁) ∧ scan m₁ t = some (m₂, ks₂) ∧ ls = ks₁ ++ ks₂ := by
  simp only [scan, Option.bind_eq_bind, Option.pure_def, Option.bind_eq_some_iff,
    Option.some.injEq] at h
  obtain ⟨⟨m₁, ks₁⟩, hc, ⟨m', ks₂⟩, hrest, heq⟩ := h
  obtain ⟨rfl, rfl⟩ := Prod.mk.inj heq
  exact ⟨m₁, ks₁, ks₂, hc, hrest, rfl⟩

theorem scan_append {m m₁ m₂ : Mode} {s t : Text} {ls ks : List Lexeme}
    (hs : scan m s = some (m₁, ls)) (ht : scan m₁ t = some (m₂, ks)) :
    scan m (s ++ t) = some (m₂, ls ++ ks) := by
  induction s generalizing m ls with
  | nil =>
    obtain ⟨rfl, rfl⟩ : m = m₁ ∧ [] = ls := by simpa [scan] using hs
    exact ht
  | cons c rest ih =>
    obtain ⟨m', ks₁, ks₂, hc, hrest, rfl⟩ := exists_of_scan_cons hs
    rw [List.cons_append, List.append_assoc]
    exact scan_cons hc (ih hrest)

/-- A text with which every lexeme in it is complete. -/
def Closes (t : Text) (ls : List Lexeme) : Prop := scan .blank t = some (.blank, ls)

/-- A text that is read as some lexemes, the last of which may have to be settled by what follows. -/
def Scans (t : Text) (ls : List Lexeme) : Prop :=
  ∃ m done pending, scan .blank t = some (m, done) ∧ m.settle? = some pending ∧
    ls = done ++ pending

/-- Whether a text starts with a code point that goes on with no lexeme in front of it. -/
def isParted : Text → Bool
  | [] => true
  | c :: _ => !isWordPart c && c != .scalar '='

theorem Closes.scans {t : Text} {ls : List Lexeme} (h : Closes t ls) : Scans t ls :=
  ⟨.blank, ls, [], h, rfl, (List.append_nil ls).symm⟩

theorem Scans.lexemes {t : Text} {ls : List Lexeme} (h : Scans t ls) : lexemes? t = some ls := by
  obtain ⟨m, done, pending, hscan, hsettle, rfl⟩ := h
  simp [lexemes?, hscan, hsettle]

theorem Closes.append {s t : Text} {ls ks : List Lexeme} (hs : Closes s ls) (ht : Closes t ks) :
    Closes (s ++ t) (ls ++ ks) :=
  scan_append hs ht

theorem Closes.append_scans {s t : Text} {ls ks : List Lexeme} (hs : Closes s ls)
    (ht : Scans t ks) : Scans (s ++ t) (ls ++ ks) := by
  obtain ⟨m, done, pending, hscan, hsettle, rfl⟩ := ht
  exact ⟨m, ls ++ done, pending, scan_append hs hscan, hsettle, by simp⟩

/-- What is pending is settled by a code point that starts something new. -/
theorem step_of_settle {m m' : Mode} {c : CodePoint} {pending ls : List Lexeme}
    (hm : m.settle? = some pending) (hc : isParted [c] = true)
    (h : Mode.step .blank c = some (m', ls)) : m.step c = some (m', pending ++ ls) := by
  obtain ⟨hw, heq⟩ : isWordPart c = false ∧ c ≠ .scalar '=' := by simpa [isParted] using hc
  have he : Mode.enter c = some (m', ls) := h
  cases m with
  | blank =>
    obtain rfl : [] = pending := by simpa [Mode.settle?] using hm
    exact h
  | word seen => simp [Mode.step, hw, he, hm]
  | colon =>
    obtain rfl : [Lexeme.colon] = pending := by simpa [Mode.settle?] using hm
    simp [Mode.step, heq, he]
  | literal | escape | hex => simp [Mode.settle?] at hm

theorem scan_of_settle {m m' : Mode} {t : Text} {pending ls : List Lexeme}
    (hm : m.settle? = some pending) (ht : isParted t = true) (hne : t ≠ [])
    (h : scan .blank t = some (m', ls)) : scan m t = some (m', pending ++ ls) := by
  cases t with
  | nil => exact absurd rfl hne
  | cons c rest =>
    obtain ⟨m₁, ks₁, ks₂, hc, hrest, rfl⟩ := exists_of_scan_cons h
    rw [← List.append_assoc]
    exact scan_cons (step_of_settle hm ht hc) hrest

/-- **Texts are read one after another**, where the second one starts something new. -/
theorem Scans.append {s t : Text} {ls ks : List Lexeme} (hs : Scans s ls) (ht : Scans t ks)
    (hp : isParted t = true) : Scans (s ++ t) (ls ++ ks) := by
  obtain ⟨m, done, pending, hscan, hsettle, rfl⟩ := hs
  obtain ⟨m', done', pending', hscan', hsettle', rfl⟩ := ht
  by_cases hne : t = []
  · subst hne
    obtain ⟨rfl, rfl⟩ : Mode.blank = m' ∧ [] = done' := by simpa [scan] using hscan'
    obtain rfl : [] = pending' := by simpa [Mode.settle?] using hsettle'
    exact ⟨m, done, pending, by simpa using hscan, hsettle, by simp⟩
  · have h := scan_append hscan (scan_of_settle hsettle hp hne hscan')
    exact ⟨m', done ++ (pending ++ done'), pending', h, hsettle', by simp⟩

theorem Scans.append_closes {s t : Text} {ls ks : List Lexeme} (hs : Scans s ls)
    (ht : Closes t ks) (hp : isParted t = true) (hne : t ≠ []) : Closes (s ++ t) (ls ++ ks) := by
  obtain ⟨m, done, pending, hscan, hsettle, rfl⟩ := hs
  rw [List.append_assoc]
  exact scan_append hscan (scan_of_settle hsettle hp hne ht)

/-! ## 4. Indentation -/

theorem step_newline {m m' : Mode} {ls : List Lexeme} (h : m.step newline = some (m', ls)) :
    m' = .blank := by
  have he : Mode.enter newline = some (.blank, []) := rfl
  have hw : isWordPart newline = false := rfl
  cases m with
  | blank => rw [Mode.step, he] at h; exact (Prod.mk.inj (Option.some.inj h)).1.symm
  | word seen =>
    simp only [Mode.step, hw, he, Option.bind_eq_bind, Option.bind_some, Option.pure_def,
      Option.bind_eq_some_iff, Option.some.injEq, Prod.mk.injEq, Bool.false_eq_true,
      if_false] at h
    obtain ⟨_, _, hm, _⟩ := h
    exact hm.symm
  | colon =>
    simp only [Mode.step, he, Option.bind_eq_bind, Option.bind_some, Option.pure_def] at h
    rw [if_neg (by decide)] at h
    exact (Prod.mk.inj (Option.some.inj h)).1.symm
  -- No literal goes over the end of a line.
  | literal seen => cases h
  | escape seen => cases h
  | hex seen missing value => cases h

theorem scan_blanks {margin : Text} (hm : ∀ c ∈ margin, c = .scalar ' ') :
    Closes margin [] := by
  induction margin with
  | nil => rfl
  | cons c rest ih =>
    obtain rfl : c = .scalar ' ' := hm c (by simp)
    have hs : Mode.step .blank (.scalar ' ') = some (.blank, []) := rfl
    exact scan_cons hs (ih fun d hd => hm d (by simp [hd]))

/-- **Blanks behind line feeds change nothing.** -/
theorem scan_marginBehind {margin : Text} (hm : ∀ c ∈ margin, c = .scalar ' ') {m m' : Mode}
    {t : Text} {ls : List Lexeme} (h : scan m t = some (m', ls)) :
    scan m (t.marginBehind margin) = some (m', ls) := by
  induction t generalizing m ls with
  | nil => exact h
  | cons c rest ih =>
    obtain ⟨m₁, ks₁, ks₂, hc, hrest, rfl⟩ := exists_of_scan_cons h
    by_cases hn : c = newline
    · subst hn
      obtain rfl := step_newline hc
      exact scan_cons hc (scan_append (scan_blanks hm) (ih hrest))
    · rw [Text.marginBehind_cons _ _ hn]
      exact scan_cons hc (ih hrest)

theorem Scans.indent {margin t : Text} {ls : List Lexeme} (hm : ∀ c ∈ margin, c = .scalar ' ')
    (h : Scans t ls) : Scans (t.indent margin) ls := by
  obtain ⟨m, done, pending, hscan, hsettle, rfl⟩ := h
  rw [Text.indent_eq]
  exact ⟨m, done, pending, scan_append (scan_blanks hm) (scan_marginBehind hm hscan), hsettle, rfl⟩

/-! ## 5. Literals -/

theorem hexValue?_digitChar : ∀ d < 16, hexValue? (Nat.digitChar d) = some d := by decide

theorem hexValue?_hexDigit (n : Nat) : hexValue? (Literal.hexDigit n) = some (n % 16) :=
  hexValue?_digitChar _ (Nat.mod_lt _ (by decide))

/-- Four digits are read as the code point of their number. -/
theorem scan_hex4 {n : Nat} {c : CodePoint} (seen : Text) (hn : n < 0x10000)
    (hc : CodePoint.ofNat? n = some c) :
    scan (.hex seen 4 0) (Text.ofChars (Literal.hex4 n)) = some (.literal (seen ++ [c]), []) := by
  have hv : 16 * (16 * (16 * (n / 256 / 16 % 16) + n / 256 % 16) + n / 16 % 16) + n % 16 = n := by
    omega
  simp [Literal.hex4, Literal.hex2, Text.ofChars, scan, Mode.step, Mode.digit, CodePoint.char?,
    hexValue?_hexDigit, hv, hc]

theorem ofNat?_toNat (c : Char) : CodePoint.ofNat? c.toNat = some (.scalar c) := by
  have hv : c.toNat < 0xD800 ∨ 0xDFFF < c.toNat ∧ c.toNat < 0x110000 := c.valid
  rw [CodePoint.ofNat?, dif_neg (by omega), if_pos (by omega), Char.ofNat_toNat]

theorem ofNat?_surrogate (n : Fin 0x800) :
    CodePoint.ofNat? (0xD800 + n.val) = some (.surrogate n) := by
  have hn := n.isLt
  rw [CodePoint.ofNat?, dif_pos (by omega)]
  simp

theorem scan_byNumber {n : Nat} {c : CodePoint} (seen : Text) (hn : n < 0x10000)
    (hc : CodePoint.ofNat? n = some c) :
    scan (.literal seen) (Text.ofChars (['\\', 'u'] ++ Literal.hex4 n))
      = some (.literal (seen ++ [c]), []) := by
  have hu : scan (.literal seen) (Text.ofChars ['\\', 'u']) = some (.hex seen 4 0, []) := rfl
  rw [Text.ofChars, List.map_append]
  exact scan_append hu (scan_hex4 seen hn hc)

/-- **The written form of a code point in a literal is read as the code point.** -/
theorem scan_escape (seen : Text) (c : CodePoint) :
    scan (.literal seen) (Text.ofChars (Literal.escape c)) = some (.literal (seen ++ [c]), []) := by
  unfold Literal.escape
  split
  case h_8 c hquote hback hline hreturn _ _ _ =>
    split
    · exact scan_byNumber seen (by omega) (ofNat?_toNat c)
    · have hraw : Mode.step (.literal seen) (.scalar c)
          = some (.literal (seen ++ [.scalar c]), []) := by
        unfold Mode.step Mode.raw
        split <;> simp_all
      exact scan_cons hraw rfl
  case h_9 n => exact scan_byNumber seen (by omega) (ofNat?_surrogate n)
  all_goals rfl

theorem scan_body (seen t : Text) :
    scan (.literal seen) (Text.ofChars (Literal.body t)) = some (.literal (seen ++ t), []) := by
  induction t generalizing seen with
  | nil => simp [Literal.body, Text.ofChars, scan]
  | cons c rest ih =>
    have h := scan_append (scan_escape seen c) (ih (seen ++ [c]))
    simpa [Literal.body, Text.ofChars] using h

/-- **A literal is read as its text.** -/
theorem Closes.literal (t : Text) : Closes (Literal.encode t) [.text t] := by
  have hopen : Mode.step .blank (.scalar '"') = some (.literal [], []) := rfl
  have hclose : scan (.literal t) [.scalar '"'] = some (.blank, [.text t]) := rfl
  have h := scan_cons hopen (scan_append (scan_body [] t) hclose)
  simpa [Closes, Literal.encode, Text.ofChars] using h

/-! ## 6. Words -/

theorem scan_wordParts {w : Text} (hw : w.all isWordPart = true) (seen : Text) :
    scan (.word seen) w = some (.word (seen ++ w), []) := by
  induction w generalizing seen with
  | nil => simp [scan]
  | cons c rest ih =>
    simp only [List.all_cons, Bool.and_eq_true] at hw
    have hc : Mode.step (.word seen) c = some (.word (seen ++ [c]), []) := by
      simp [Mode.step, hw.1]
    simpa using scan_cons hc (ih hw.2 (seen ++ [c]))

theorem Scans.word {w : Text} {l : Lexeme} (hw : w.all isWordPart = true) (hne : w ≠ [])
    (hl : Lexeme.ofWord? w = some l) : Scans w [l] := by
  cases w with
  | nil => exact absurd rfl hne
  | cons c rest =>
    simp only [List.all_cons, Bool.and_eq_true] at hw
    have hc : Mode.step .blank c = some (.word [c], []) := by
      simp [Mode.step, Mode.enter, hw.1]
    refine ⟨.word (c :: rest), [], [l], ?_, by simp [Mode.settle?, hl], rfl⟩
    simpa using scan_cons hc (scan_wordParts hw.2 [c])

/-- The ranges of ASCII with which an identifier may start. -/
theorem startRanges_ascii :
    Identifier.startRanges.filter (fun r => r.1 < 0x80)
      = [(0x41, 0x5a), (0x5f, 0x5f), (0x61, 0x7a)] := by
  decide +kernel

/-- The range of ASCII with which an identifier may only go on. -/
theorem continueRanges_ascii :
    Identifier.continueRanges.filter (fun r => r.1 < 0x80) = [(0x30, 0x39)] := by
  decide +kernel

theorem exists_range_of_ascii {ranges : List (Nat × Nat)} {c : CodePoint}
    (h : c.inRanges ranges = true) (hc : c.val < 0x80) :
    ∃ r ∈ ranges.filter (fun r => r.1 < 0x80), r.1 ≤ c.val ∧ c.val ≤ r.2 := by
  obtain ⟨r, hr, hin⟩ := List.any_eq_true.mp h
  have hin : r.1 ≤ c.val ∧ c.val ≤ r.2 := by simpa using hin
  exact ⟨r, List.mem_filter.mpr ⟨hr, by simp; omega⟩, hin⟩

/-- In ASCII an identifier starts with a letter or the underscore. -/
theorem ascii_of_isStart {c : CodePoint} (h : Identifier.isStart c = true) (hc : c.val < 0x80) :
    (0x41 ≤ c.val ∧ c.val ≤ 0x5a) ∨ c.val = 0x5f ∨ (0x61 ≤ c.val ∧ c.val ≤ 0x7a) := by
  obtain ⟨r, hr, hin⟩ := exists_range_of_ascii h hc
  rw [startRanges_ascii] at hr
  simp only [List.mem_cons, List.not_mem_nil, or_false] at hr
  rcases hr with rfl | rfl | rfl <;> omega

theorem isWordPart_of_isContinue {c : CodePoint} (h : Identifier.isContinue c = true) :
    isWordPart c = true := by
  cases c with
  | surrogate n => rfl
  | scalar c =>
    by_cases hc : c.toNat < 0x80
    · have hcases : (0x41 ≤ c.toNat ∧ c.toNat ≤ 0x5a) ∨ c.toNat = 0x5f ∨
          (0x61 ≤ c.toNat ∧ c.toNat ≤ 0x7a) ∨ (0x30 ≤ c.toNat ∧ c.toNat ≤ 0x39) := by
        rcases Bool.or_eq_true_iff.mp h with hs | hs
        · have := ascii_of_isStart hs hc
          simp only [CodePoint.val] at this
          omega
        · obtain ⟨r, hr, hin⟩ := exists_range_of_ascii hs hc
          rw [continueRanges_ascii, List.mem_singleton] at hr
          subst hr
          exact Or.inr (Or.inr (Or.inr hin))
      have hunder : c.toNat = 0x5f → c = '_' := fun e => by rw [← Char.ofNat_toNat c, e]
      have hupper : 0x41 ≤ c.toNat ∧ c.toNat ≤ 0x5a → c.isUpper = true := fun h =>
        decide_eq_true ⟨UInt32.le_iff_toNat_le.mpr h.1, UInt32.le_iff_toNat_le.mpr h.2⟩
      have hlower : 0x61 ≤ c.toNat ∧ c.toNat ≤ 0x7a → c.isLower = true := fun h =>
        Bool.and_eq_true_iff.mpr ⟨decide_eq_true (UInt32.le_iff_toNat_le.mpr h.1),
          decide_eq_true (UInt32.le_iff_toNat_le.mpr h.2)⟩
      have hdigit : 0x30 ≤ c.toNat ∧ c.toNat ≤ 0x39 → c.isDigit = true := fun h =>
        Bool.and_eq_true_iff.mpr ⟨decide_eq_true (UInt32.le_iff_toNat_le.mpr h.1),
          decide_eq_true (UInt32.le_iff_toNat_le.mpr h.2)⟩
      show (c.isUpper || c.isLower || c.isDigit || c == '_' || decide (0x80 ≤ c.toNat)) = true
      rcases hcases with h | h | h | h
      · simp [hupper h]
      · simp [hunder h]
      · simp [hlower h]
      · simp [hdigit h]
    · simp [isWordPart, Nat.le_of_not_lt hc]

/-- No identifier starts with a digit. -/
theorem isDigit_of_isStart {c : Char} (h : Identifier.isStart (.scalar c) = true) :
    c.isDigit = false := by
  rw [Bool.eq_false_iff]
  intro hd
  have hd : 48 ≤ c.toNat ∧ c.toNat ≤ 57 := by
    simpa [Char.isDigit, UInt32.le_iff_toNat_le] using hd
  have := ascii_of_isStart h (show c.toNat < 0x80 by omega)
  simp only [CodePoint.val] at this
  omega

theorem number?_eq_none {c : CodePoint} {rest : Text} (h : Identifier.isStart c = true) :
    number? (c :: rest) = none := by
  cases c with
  | surrogate n => rfl
  | scalar c =>
    have hd := isDigit_of_isStart h
    cases hr : rest.chars? with
    | none => simp [number?, Text.chars?, hr]
    | some cs => simp [number?, Text.chars?, hr, hd]

/-- Every reserved word of expressions is a reserved word of the language. -/
theorem words_subset_keywords :
    ∀ w ∈ words, Identifier.keywords.contains (Text.ofString w.1) = true := by
  decide

theorem ofWord?_name {w : Text} (h : Identifier.isName w = true) :
    Lexeme.ofWord? w = some (.name w) := by
  have hname := h
  simp only [Identifier.isName, Bool.and_eq_true, Bool.not_eq_true'] at hname
  obtain ⟨hid, hkey⟩ := hname
  have hnum : number? w = none := by
    cases w with
    | nil => cases hid
    | cons c rest =>
      simp only [Identifier.isIdentifier, Bool.and_eq_true] at hid
      exact number?_eq_none hid.1
  have hword : words.find? (fun x => Text.ofString x.1 = w) = none := by
    rw [List.find?_eq_none]
    intro x hx heq
    obtain rfl : Text.ofString x.1 = w := by simpa using heq
    rw [words_subset_keywords x hx] at hkey
    cases hkey
  simp [Lexeme.ofWord?, hnum, hword, h]

/-- Every code point of a name is part of a word. -/
theorem isWordPart_of_isName {w : Text} (h : Identifier.isName w = true) :
    ∀ c ∈ w, isWordPart c = true := by
  intro d hd
  have hid : Identifier.isIdentifier w = true := (Bool.and_eq_true_iff.mp h).1
  cases w with
  | nil => cases hid
  | cons c rest =>
    simp only [Identifier.isIdentifier, Bool.and_eq_true, List.all_eq_true] at hid
    rcases List.mem_cons.mp hd with rfl | hd
    · exact isWordPart_of_isContinue (by simp [Identifier.isContinue, hid.1])
    · exact isWordPart_of_isContinue (hid.2 d hd)

/-- **A name is read as itself.** -/
theorem Scans.name {w : Text} (h : Identifier.isName w = true) : Scans w [.name w] := by
  have hne : w ≠ [] := by
    intro hw
    subst hw
    cases h
  exact Scans.word (List.all_eq_true.mpr (isWordPart_of_isName h)) hne (ofWord?_name h)

/-- **A natural number is read as its value.** -/
theorem Scans.ofNat (n : Nat) : Scans (Decimal.ofNat n) [.number n] := by
  have hdigits : ∀ c ∈ Nat.toDigits 10 n, c.isDigit = true := fun c hc =>
    Nat.isDigit_of_mem_toDigits (by decide) (by decide) hc
  have hall : (Decimal.ofNat n).all isWordPart = true := by
    rw [List.all_eq_true]
    intro c hc
    obtain ⟨d, hd, rfl⟩ := List.mem_map.mp hc
    simp [isWordPart, Char.isAlphanum, hdigits d hd]
  have hnum : number? (Decimal.ofNat n) = some n := by
    rw [number?, Decimal.ofNat, Text.chars?_ofChars]
    simp only [List.all_eq_true.mpr hdigits, if_true, Nat.ofDigitChars_ten_toDigits]
  refine Scans.word hall ?_ (by simp [Lexeme.ofWord?, hnum])
  simp [Decimal.ofNat, Text.ofChars, Nat.toDigits_ne_nil]

end TemplateTree.Target
