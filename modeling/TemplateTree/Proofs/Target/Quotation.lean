import Mathlib.Data.List.Chain
import TemplateTree.Proofs.Target.Lexer

/-!
# Texts between quotes

How the generated language reads a literal, in two passes:

* `Quotes.body?` looks for the closing quotes, one or three; a backslash takes the code point behind it
  along, and a literal with single quotes does not go over the end of a line;
* `Quotation.items?` reads what stands between the quotes as items, which are code points as they stand
  (`Item.raw`) and escapes. A backslash that starts no escape stands for itself.

`literal?` puts the two together. The names of characters, by which an escape may ask for one, are a
parameter of all this.

A body without escapes is read as itself (`Quotation.items?_eq_map_raw`), and only such a body is: every
escape is longer than what it stands for (`Quotation.isChain_of_items?`).
-/

namespace TemplateTree.Target

/-! ## 1. Machines -/

/-- The mode of a machine behind a text, and what it gave out. -/
def runMachine {σ α : Type} (step : σ → CodePoint → Option (σ × List α)) (m : σ) :
    Text → Option (σ × List α)
  | [] => some (m, [])
  | c :: rest => do
    let first ← step m c
    let second ← runMachine step first.1 rest
    return (second.1, first.2 ++ second.2)

section

variable {σ α : Type} {step : σ → CodePoint → Option (σ × List α)} {m m₁ m₂ : σ}

theorem runMachine_cons {c : CodePoint} {t : Text} {xs ys : List α} (hc : step m c = some (m₁, xs))
    (ht : runMachine step m₁ t = some (m₂, ys)) :
    runMachine step m (c :: t) = some (m₂, xs ++ ys) := by
  simp [runMachine, hc, ht]

theorem exists_of_runMachine_cons {c : CodePoint} {t : Text} {xs : List α}
    (h : runMachine step m (c :: t) = some (m₂, xs)) :
    ∃ m₁ first second, step m c = some (m₁, first) ∧
      runMachine step m₁ t = some (m₂, second) ∧ xs = first ++ second := by
  simp only [runMachine, Option.bind_eq_bind, Option.pure_def, Option.bind_eq_some_iff,
    Option.some.injEq] at h
  obtain ⟨⟨m₁, first⟩, hc, ⟨m', second⟩, ht, heq⟩ := h
  obtain ⟨rfl, rfl⟩ := Prod.mk.inj heq
  exact ⟨m₁, first, second, hc, ht, rfl⟩

theorem runMachine_append {s t : Text} {xs ys : List α} (hs : runMachine step m s = some (m₁, xs))
    (ht : runMachine step m₁ t = some (m₂, ys)) :
    runMachine step m (s ++ t) = some (m₂, xs ++ ys) := by
  induction s generalizing m xs with
  | nil =>
    obtain ⟨rfl, rfl⟩ : m = m₁ ∧ [] = xs := by simpa [runMachine] using hs
    exact ht
  | cons c s ih =>
    obtain ⟨m', first, second, hc, hrest, rfl⟩ := exists_of_runMachine_cons hs
    rw [List.cons_append, List.append_assoc]
    exact runMachine_cons hc (ih hrest)

/-- A machine that gives out something for each piece is through with all pieces. -/
theorem runMachine_flatMap {β : Type} {piece : β → Text} {out : β → List α} {xs : List β}
    (h : ∀ x ∈ xs, runMachine step m (piece x) = some (m, out x)) :
    runMachine step m (xs.flatMap piece) = some (m, xs.flatMap out) := by
  induction xs with
  | nil => rfl
  | cons x xs ih =>
    rw [List.flatMap_cons, List.flatMap_cons]
    exact runMachine_append (h x List.mem_cons_self)
      (ih fun y hy => h y (List.mem_cons_of_mem x hy))

end

/-! ## 2. Closing quotes -/

/-- The quotation mark. -/
def quote : CodePoint := .scalar '"'

/-- The backslash. -/
def backslash : CodePoint := .scalar '\\'

/-- The quotes around a literal. -/
inductive Quotes where
  | single
  | triple
deriving DecidableEq, Repr

/-- The quotes as they are written. -/
def Quotes.text : Quotes → Text
  | single => [quote]
  | triple => [quote, quote, quote]

/-- Whether a code point can stand in a program, whose line ends are line feeds. -/
def isSource : CodePoint → Bool
  | .scalar c => c != '\x00' && c != '\r'
  | .surrogate _ => false

/-- What stands in front of the closing quotes of a literal and what stands behind them. -/
def Quotes.body? (q : Quotes) (escaped : Bool) : Text → Option (Text × Text)
  | [] => none
  | c :: rest =>
    if isSource c = false then none
    else if escaped then (body? q false rest).map fun r => (c :: r.1, r.2)
    else if q.text <+: c :: rest then some ([], (c :: rest).drop q.text.length)
    else if q = single ∧ c = newline then none
    else (body? q (c == backslash) rest).map fun r => (c :: r.1, r.2)

/-! ## 3. Items -/

namespace Quotation

/-- What a literal holds between its quotes. -/
inductive Item where
  /-- A code point as it stands. -/
  | raw (c : CodePoint)
  /-- An escape for a code point. -/
  | escape (c : CodePoint)
  /-- A backslash at the end of a line, which stands for nothing, nor does the line end. -/
  | joint
deriving DecidableEq, Repr

/-- The text that an item stands for. -/
def Item.text : Item → Text
  | raw c => [c]
  | escape c => [c]
  | joint => []

/-- What the reading is in the middle of. -/
inductive Mode where
  | plain
  /-- Behind a backslash. -/
  | behind
  /-- In a hexadecimal number, with so many digits to come. -/
  | hex (missing value : Nat)
  /-- In an octal number, with at most so many digits to come. -/
  | octal (missing value : Nat)
  /-- In front of the bracket that opens the name of a character. -/
  | unnamed
  | name (seen : Text)
deriving DecidableEq, Repr

/-- The value of a hexadecimal digit of either case. -/
def hexDigit? (c : Char) : Option Nat :=
  if '0' ≤ c ∧ c ≤ '9' then some (c.toNat - '0'.toNat)
  else if 'a' ≤ c ∧ c ≤ 'f' then some (c.toNat - 'a'.toNat + 10)
  else if 'A' ≤ c ∧ c ≤ 'F' then some (c.toNat - 'A'.toNat + 10)
  else none

/-- The value of an octal digit. -/
def octalDigit? (c : Char) : Option Nat :=
  if '0' ≤ c ∧ c ≤ '7' then some (c.toNat - '0'.toNat) else none

/-- The character that a sign behind a backslash stands for. -/
def sign? : Char → Option Char
  | '\\' => some '\\'
  | '\'' => some '\''
  | '"' => some '"'
  | 'a' => some '\x07'
  | 'b' => some '\x08'
  | 'f' => some '\x0c'
  | 'n' => some '\n'
  | 'r' => some '\r'
  | 't' => some '\t'
  | 'v' => some '\x0b'
  | _ => none

/-- The start of an escape behind a backslash, if it is one. -/
def start? : CodePoint → Option (Mode × List Item)
  | .scalar '\n' => some (.plain, [.joint])
  | .scalar 'x' => some (.hex 2 0, [])
  | .scalar 'u' => some (.hex 4 0, [])
  | .scalar 'U' => some (.hex 8 0, [])
  | .scalar 'N' => some (.unnamed, [])
  | .scalar c =>
    match sign? c with
    | some d => some (.plain, [.escape (.scalar d)])
    | none => (octalDigit? c).map fun d => (.octal 2 d, [])
  | .surrogate _ => none

/-- A code point where no escape has begun. -/
def enter (c : CodePoint) : Mode × List Item :=
  if c = backslash then (.behind, []) else (.plain, [.raw c])

/-- The end of a number. -/
def numbered? (value : Nat) : Option Item := (CodePoint.ofNat? value).map .escape

/-- One more code point of a hexadecimal number. -/
def hexStep (missing value : Nat) (c : CodePoint) : Option (Mode × List Item) := do
  let value := 16 * value + (← hexDigit? (← c.char?))
  if missing ≤ 1 then return (.plain, [← numbered? value]) else return (.hex (missing - 1) value, [])

/-- One more code point of an octal number, or the first one behind it. -/
def octalStep (missing value : Nat) (c : CodePoint) : Option (Mode × List Item) :=
  match c.char?.bind octalDigit? with
  | some d => do
    let value := 8 * value + d
    if missing ≤ 1 then return (.plain, [← numbered? value]) else return (.octal (missing - 1) value, [])
  | none => do
    let next := enter c
    return (next.1, (← numbered? value) :: next.2)

/-- One more code point of the name of a character. -/
def nameStep (named : Text → Option CodePoint) (seen : Text) (c : CodePoint) :
    Option (Mode × List Item) :=
  if c = .scalar '\x7d' then do return (.plain, [.escape (← named seen)])
  else some (.name (seen ++ [c]), [])

/-- One code point: the mode behind it, and the items that are complete with it. -/
def step (named : Text → Option CodePoint) (m : Mode) (c : CodePoint) : Option (Mode × List Item) :=
  match m with
  | .plain => some (enter c)
  | .behind => some ((start? c).getD (.plain, [.raw backslash, .raw c]))
  | .hex missing value => hexStep missing value c
  | .octal missing value => octalStep missing value c
  | .unnamed => if c = .scalar '\x7b' then some (.name [], []) else none
  | .name seen => nameStep named seen c

/-- What is complete with the end of the body. -/
def finish : Mode → Option (List Item)
  | .plain => some []
  | .octal _ value => (numbered? value).map ([·])
  | _ => none

/-- The items of a body. -/
def items? (named : Text → Option CodePoint) (body : Text) : Option (List Item) := do
  let (m, items) ← runMachine (step named) .plain body
  return items ++ (← finish m)

end Quotation

/-- The text of a literal that a text starts with, and what stands behind it. -/
def literal? (named : Text → Option CodePoint) (t : Text) : Option (Text × Text) := do
  let quotes := if Quotes.triple.text <+: t then Quotes.triple else Quotes.single
  if quotes.text <+: t then
    let (body, rest) ← quotes.body? false (t.drop quotes.text.length)
    return ((← Quotation.items? named body).flatMap Quotation.Item.text, rest)
  else none

/-! ## 4. Where a literal ends -/

section

variable {q : Quotes} {escaped : Bool}

theorem Quotes.body?_of_escaped {c : CodePoint} {rest : Text} (hc : isSource c = true) :
    q.body? true (c :: rest) = (q.body? false rest).map fun r => (c :: r.1, r.2) := by
  simp [body?, hc]

/-- A code point that neither closes a literal nor breaks its line is part of it. -/
theorem Quotes.body?_of_part {c : CodePoint} {rest : Text} (hc : isSource c = true)
    (hclose : ¬ q.text <+: c :: rest) (hline : q = single → c ≠ newline) :
    q.body? false (c :: rest)
      = (q.body? (c == backslash) rest).map fun r => (c :: r.1, r.2) := by
  have hbreak : ¬ (q = single ∧ c = newline) := fun h => hline h.1 h.2
  simp [body?, hc, hclose, hbreak]

theorem Quotes.body?_of_close (rest : Text) : q.body? false (q.text ++ rest) = some ([], rest) := by
  have hq : isSource quote = true := rfl
  cases q <;> simp [body?, text, hq]

/-- **A literal is its body, the closing quotes and what stands behind them.** -/
theorem Quotes.eq_of_body? {t body rest : Text} (h : q.body? escaped t = some (body, rest)) :
    t = body ++ (q.text ++ rest) := by
  induction t generalizing escaped body with
  | nil => cases h
  | cons c t ih =>
    rw [body?] at h
    by_cases hc : isSource c = false
    · rw [if_pos hc] at h
      cases h
    rw [if_neg hc] at h
    by_cases he : escaped = true
    · rw [if_pos he] at h
      obtain ⟨r, hr, heq⟩ := Option.map_eq_some_iff.mp h
      obtain ⟨rfl, rfl⟩ := Prod.mk.inj heq
      rw [ih hr, List.cons_append]
    rw [if_neg he] at h
    by_cases hclose : q.text <+: c :: t
    · rw [if_pos hclose] at h
      obtain ⟨rfl, rfl⟩ := Prod.mk.inj (Option.some.inj h)
      obtain ⟨behind, hbehind⟩ := hclose
      rw [← hbehind, List.drop_left, List.nil_append]
    rw [if_neg hclose] at h
    split at h
    · cases h
    · obtain ⟨r, hr, heq⟩ := Option.map_eq_some_iff.mp h
      obtain ⟨rfl, rfl⟩ := Prod.mk.inj heq
      rw [ih hr, List.cons_append]

end

/-! ## 5. Bodies without escapes -/

namespace Quotation

/-- Two neighbours that are not the start of an escape. -/
def NoEscape (a b : CodePoint) : Prop := a = backslash → start? b = none

instance : DecidableRel NoEscape := fun a b =>
  inferInstanceAs (Decidable (a = backslash → start? b = none))

theorem noEscape_of_ne {a : CodePoint} (ha : a ≠ backslash) (b : CodePoint) : NoEscape a b :=
  fun h => absurd h ha

theorem ne_backslash_of_start? {c : CodePoint} (h : start? c = none) : c ≠ backslash := by
  intro hc
  rw [hc] at h
  cases h

/-- How many code points a mode holds back at least that are no more than shortened. -/
def held : Mode → Nat
  | .plain => 0
  | _ => 1

section

variable {named : Text → Option CodePoint}

theorem text_numbered? {value : Nat} {item : Item} (h : numbered? value = some item) :
    item.text.length = 1 := by
  obtain ⟨c, -, rfl⟩ := Option.map_eq_some_iff.mp h
  rfl

theorem held_enter (c : CodePoint) :
    held (enter c).1 + ((enter c).2.flatMap Item.text).length = 1 := by
  unfold enter
  split <;> rfl

/-- **An escape starts with a loss**: what is held and given out is less than what was read. -/
theorem held_start? {c : CodePoint} {m : Mode} {items : List Item}
    (h : start? c = some (m, items)) : held m + (items.flatMap Item.text).length ≤ 1 := by
  unfold start? at h
  split at h
  case h_6 d _ _ _ _ _ =>
    split at h
    · obtain ⟨rfl, rfl⟩ := Prod.mk.inj (Option.some.inj h)
      exact Nat.le_refl 1
    · obtain ⟨v, -, heq⟩ := Option.map_eq_some_iff.mp h
      obtain ⟨rfl, rfl⟩ := Prod.mk.inj heq
      exact Nat.le_refl 1
  case h_7 => cases h
  all_goals
    obtain ⟨rfl, rfl⟩ := Prod.mk.inj (Option.some.inj h)
    decide

/-- **No code point is read as more than one.** -/
theorem held_step {m m' : Mode} {c : CodePoint} {items : List Item}
    (h : step named m c = some (m', items)) :
    held m' + (items.flatMap Item.text).length ≤ held m + 1 := by
  cases m with
  | plain =>
    have heq : enter c = (m', items) := Option.some.inj h
    have hc := held_enter c
    rw [heq] at hc
    exact Nat.le_of_eq hc
  | behind =>
    have heq : (start? c).getD (.plain, [.raw backslash, .raw c]) = (m', items) := Option.some.inj h
    cases hs : start? c with
    | none =>
      rw [hs] at heq
      obtain ⟨rfl, rfl⟩ := Prod.mk.inj heq
      exact Nat.le_refl 2
    | some first =>
      rw [hs] at heq
      obtain rfl : first = (m', items) := heq
      exact Nat.le_succ_of_le (held_start? hs)
  | hex missing value =>
    simp only [step, hexStep, Option.bind_eq_bind, Option.bind_eq_some_iff] at h
    obtain ⟨ch, -, d, -, h⟩ := h
    split at h
    · obtain ⟨item, hitem, heq⟩ := Option.bind_eq_some_iff.mp h
      obtain ⟨rfl, rfl⟩ := Prod.mk.inj (Option.some.inj heq)
      simp [held, text_numbered? hitem]
    · obtain ⟨rfl, rfl⟩ := Prod.mk.inj (Option.some.inj h)
      simp [held]
  | octal missing value =>
    simp only [step, octalStep] at h
    split at h
    · split at h
      · obtain ⟨item, hitem, heq⟩ := Option.bind_eq_some_iff.mp h
        obtain ⟨rfl, rfl⟩ := Prod.mk.inj (Option.some.inj heq)
        simp [held, text_numbered? hitem]
      · obtain ⟨rfl, rfl⟩ := Prod.mk.inj (Option.some.inj h)
        simp [held]
    · obtain ⟨item, hitem, heq⟩ := Option.bind_eq_some_iff.mp h
      obtain ⟨rfl, rfl⟩ := Prod.mk.inj (Option.some.inj heq)
      have hc := held_enter c
      rw [List.flatMap_cons, List.length_append, text_numbered? hitem]
      simp only [held] at hc ⊢
      omega
  | unnamed =>
    rw [step] at h
    split at h
    · obtain ⟨rfl, rfl⟩ := Prod.mk.inj (Option.some.inj h)
      simp [held]
    · cases h
  | name seen =>
    rw [step, nameStep] at h
    split at h
    · obtain ⟨p, -, heq⟩ := Option.bind_eq_some_iff.mp h
      obtain ⟨rfl, rfl⟩ := Prod.mk.inj (Option.some.inj heq)
      simp [held, Item.text]
    · obtain ⟨rfl, rfl⟩ := Prod.mk.inj (Option.some.inj h)
      simp [held]

theorem held_run {m m' : Mode} {t : Text} {items : List Item}
    (h : runMachine (step named) m t = some (m', items)) :
    held m' + (items.flatMap Item.text).length ≤ held m + t.length := by
  induction t generalizing m items with
  | nil =>
    obtain ⟨rfl, rfl⟩ : m = m' ∧ [] = items := by simpa [runMachine] using h
    exact Nat.le_refl _
  | cons c t ih =>
    obtain ⟨m₁, first, second, hc, ht, rfl⟩ := exists_of_runMachine_cons h
    have hfirst := held_step hc
    have hsecond := ih ht
    rw [List.flatMap_append, List.length_append, List.length_cons]
    omega

theorem held_finish {m : Mode} {items : List Item} (h : finish m = some items) :
    (items.flatMap Item.text).length ≤ held m := by
  cases m with
  | plain =>
    obtain rfl : [] = items := Option.some.inj h
    exact Nat.le_refl 0
  | octal missing value =>
    obtain ⟨item, hitem, rfl⟩ := Option.map_eq_some_iff.mp h
    simp [held, text_numbered? hitem]
  | behind | hex | unnamed | name => cases h

/-- Where reading goes on from a mode without an escape, and nothing got shorter, there is none. -/
theorem isChain_of_run {b : Bool} {t : Text} {m' : Mode} {items last : List Item}
    (h : runMachine (step named) (if b then .behind else .plain) t = some (m', items))
    (hlast : finish m' = some last)
    (hlength : t.length + (if b then 1 else 0) ≤ ((items ++ last).flatMap Item.text).length) :
    List.IsChain NoEscape ((if b then [backslash] else []) ++ t) := by
  -- The induction follows the two modes between which a text without escapes goes.
  induction t generalizing b items with
  | nil => cases b <;> simp
  | cons c t ih =>
    obtain ⟨m₁, first, second, hc, ht, rfl⟩ := exists_of_runMachine_cons h
    have hend := held_finish hlast
    rw [List.append_assoc, List.flatMap_append, List.length_append] at hlength
    cases b with
    | false =>
      have heq : enter c = (m₁, first) := Option.some.inj hc
      by_cases hb : c = backslash
      · rw [enter, if_pos hb] at heq
        obtain ⟨rfl, rfl⟩ := Prod.mk.inj heq
        have h' := ih (b := true) ht (by simpa using hlength)
        simpa [hb] using h'
      · rw [enter, if_neg hb] at heq
        obtain ⟨rfl, rfl⟩ := Prod.mk.inj heq
        have h' := ih (b := false) ht
          (by simpa [Item.text, Nat.add_comm 1] using hlength)
        exact List.isChain_cons.mpr ⟨fun d _ => noEscape_of_ne hb d, by simpa using h'⟩
    | true =>
      have heq : (start? c).getD (.plain, [.raw backslash, .raw c]) = (m₁, first) :=
        Option.some.inj hc
      cases hs : start? c with
      | some begun =>
        rw [hs] at heq
        obtain rfl : begun = (m₁, first) := heq
        have hloss := held_start? hs
        have hrest := held_run ht
        rw [List.flatMap_append, List.length_append] at hlength
        simp only [if_true, List.length_cons] at hlength
        omega
      | none =>
        rw [hs] at heq
        obtain ⟨rfl, rfl⟩ := Prod.mk.inj heq
        have h' := ih (b := false) ht (by
          simp only [List.flatMap_cons, List.flatMap_nil, Item.text, List.length_append,
            List.length_cons, List.length_nil, if_true] at hlength
          simp only [Bool.false_eq_true, if_false]
          omega)
        have hc' : List.IsChain NoEscape (c :: t) := List.isChain_cons.mpr
          ⟨fun d _ => noEscape_of_ne (ne_backslash_of_start? hs) d, by simpa using h'⟩
        exact List.isChain_cons_cons.mpr ⟨fun _ => hs, hc'⟩

/-- **Only a body without escapes is read as itself.** -/
theorem isChain_of_items? {body : Text} {items : List Item} (h : items? named body = some items)
    (htext : items.flatMap Item.text = body) : List.IsChain NoEscape body := by
  simp only [items?, Option.bind_eq_bind, Option.bind_eq_some_iff] at h
  obtain ⟨⟨m, begun⟩, hrun, last, hlast, heq⟩ := h
  obtain rfl : begun ++ last = items := Option.some.inj heq
  exact isChain_of_run (b := false) hrun hlast (by rw [htext]; simp)

theorem run_of_isChain {b : Bool} {t : Text} (hend : backslash ∉ t.getLast?)
    (hne : b = true → t ≠ [])
    (h : List.IsChain NoEscape ((if b then [backslash] else []) ++ t)) :
    runMachine (step named) (if b then .behind else .plain) t
      = some (.plain, ((if b then [backslash] else []) ++ t).map .raw) := by
  induction t generalizing b with
  | nil =>
    cases b with
    | false => rfl
    | true => exact absurd rfl (hne rfl)
  | cons c t ih =>
    have hend' : backslash ∉ t.getLast? := by
      cases t with
      | nil => simp
      | cons d t => simpa [List.getLast?_cons_cons] using hend
    cases b with
    | false =>
      by_cases hb : c = backslash
      · have ht : t ≠ [] := by
          intro ht
          rw [hb, ht] at hend
          simp at hend
        have hstep : step named .plain c = some (.behind, []) := by simp [step, enter, hb]
        have hrest := ih (b := true) hend' (fun _ => ht) (by simpa [hb] using h)
        simpa [hb] using runMachine_cons hstep hrest
      · have hstep : step named .plain c = some (.plain, [.raw c]) := by simp [step, enter, hb]
        have hrest := ih (b := false) hend' (by simp) (List.isChain_cons.mp h).2
        simpa using runMachine_cons hstep hrest
    | true =>
      obtain ⟨hbc, hct⟩ := List.isChain_cons_cons.mp h
      have hstep : step named .behind c = some (.plain, [.raw backslash, .raw c]) := by
        simp [step, hbc rfl]
      have hrest := ih (b := false) hend' (by simp) (List.isChain_cons.mp hct).2
      simpa using runMachine_cons hstep hrest

/-- **A body without escapes is read as itself.** -/
theorem items?_eq_map_raw {body : Text} (hend : backslash ∉ body.getLast?)
    (h : List.IsChain NoEscape body) : items? named body = some (body.map .raw) := by
  have hrun : runMachine (step named) .plain body = some (.plain, body.map .raw) :=
    run_of_isChain (b := false) hend (by simp) h
  simp [items?, hrun, finish]

end

end Quotation

end TemplateTree.Target
