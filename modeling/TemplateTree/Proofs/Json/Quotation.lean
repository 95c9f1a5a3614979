import TemplateTree.Proofs.Code.StringLiteral
import TemplateTree.Proofs.Json.Basic

/-!
# Literals read as JSON

The literal of a text is also a JSON string. A reader of JSON takes two neighbouring escapes of a high
and a low surrogate for the one supplementary character that they encode (`Reading.joined`), so the literal
is read as its text exactly if no high surrogate stands in front of a low one in it
(`Json.string?_code_iff`). Apart from that nothing is lost: the two texts have the same halves.
-/

namespace TemplateTree

open Target Quotation

/-! ## 1. Pairs of surrogates -/

/-- The supplementary character that a high and a low surrogate encode. -/
def CodePoint.pair? : CodePoint → CodePoint → Option CodePoint
  | .surrogate high, .surrogate low =>
    if high.val < 0x400 ∧ 0x400 ≤ low.val then
      some (.scalar (Char.ofNat (0x10000 + high.val * 0x400 + (low.val - 0x400))))
    else none
  | _, _ => none

/-- A supplementary character has the halves that encode it. -/
theorem CodePoint.halves_of_pair? {a b c : CodePoint} (h : a.pair? b = some c) :
    c.halves = [a, b] := by
  unfold pair? at h
  split at h
  · rename_i high low
    split at h
    · rename_i hpair
      obtain rfl := Option.some.inj h
      have hvalid : (0x10000 + high.val * 0x400 + (low.val - 0x400)).isValidChar := Or.inr (by omega)
      have hnat : (Char.ofNat (0x10000 + high.val * 0x400 + (low.val - 0x400))).toNat
          = 0x10000 + high.val * 0x400 + (low.val - 0x400) := by
        rw [Char.ofNat, dif_pos hvalid]
        rfl
      have hhigh : (high.val * 0x400 + (low.val - 0x400)) / 0x400 = high.val := by omega
      have hlow : 0x400 + (high.val * 0x400 + (low.val - 0x400)) % 0x400 = low.val := by omega
      rw [halves, hnat, if_neg (by omega), Nat.add_assoc, Nat.add_sub_cancel_left, hhigh, hlow]
      simp
    · cases h
  · cases h

/-- Only surrogates are a pair. -/
theorem CodePoint.eq_surrogate_of_pair? {a b c : CodePoint} (h : a.pair? b = some c) :
    (∃ n, a = .surrogate n) ∧ ∃ n, b = .surrogate n := by
  unfold pair? at h
  split at h
  · exact ⟨⟨_, rfl⟩, _, rfl⟩
  · cases h

namespace Json

/-! ## 2. The reader -/

namespace Reading

/-- What the reading of a string is in the middle of. -/
inductive Mode where
  | plain
  /-- Behind a backslash. -/
  | behind
  /-- In the number of a code point, with so many digits to come. -/
  | hex (missing value : Nat)
  /-- Behind the closing quote. -/
  | closed
deriving DecidableEq, Repr

/-- The character that a sign behind a backslash stands for. -/
def sign? : Char → Option Char
  | '"' => some '"'
  | '\\' => some '\\'
  | '/' => some '/'
  | 'b' => some '\x08'
  | 'f' => some '\x0c'
  | 'n' => some '\n'
  | 'r' => some '\r'
  | 't' => some '\t'
  | _ => none

/-- A code point where no escape has begun; control characters do not stand in a string. -/
def enter (c : CodePoint) : Option (Mode × List Item) :=
  if c = quote then some (.closed, [])
  else if c = backslash then some (.behind, [])
  else if c.val < 0x20 then none
  else some (.plain, [.raw c])

/-- One code point: the mode behind it, and the items that are complete with it. -/
def step (m : Mode) (c : CodePoint) : Option (Mode × List Item) :=
  match m with
  | .plain => enter c
  | .behind =>
    if c = .scalar 'u' then some (.hex 4 0, [])
    else do return (.plain, [.escape (.scalar (← sign? (← c.char?)))])
  | .hex missing value => do
    let value := 16 * value + (← Quotation.hexDigit? (← c.char?))
    if missing ≤ 1 then return (.plain, [.escape (← CodePoint.ofNat? value)])
    else return (.hex (missing - 1) value, [])
  | .closed => none

/-- The supplementary character that two escapes stand for together. -/
def pair? : Item → Item → Option CodePoint
  | .escape high, .escape low => high.pair? low
  | _, _ => none

/-- The text of some items. -/
def joined : List Item → Text
  | [] => []
  | [i] => i.text
  | i :: j :: rest =>
    match pair? i j with
    | some c => c :: joined rest
    | none => i.text ++ joined (j :: rest)

end Reading

open Reading

/-- The text that a JSON string stands for. -/
def string? (t : Text) : Option Text :=
  match t with
  | [] => none
  | c :: rest =>
    if c = quote then
      match runMachine step .plain rest with
      | some (.closed, items) => some (joined items)
      | _ => none
    else none

/-! ## 3. The items of a literal -/

namespace Reading

theorem run_byNumber {n : Nat} {c : CodePoint} (hn : n < 0x10000)
    (hc : CodePoint.ofNat? n = some c) :
    runMachine step .plain (Text.ofChars (['\\', 'u'] ++ Literal.hex4 n))
      = some (.plain, [.escape c]) := by
  have hv : 16 * (16 * (16 * (n / 256 / 16 % 16) + n / 256 % 16) + n / 16 % 16) + n % 16 = n := by
    omega
  simp [Literal.hex4, Literal.hex2, Text.ofChars, runMachine, step, enter, quote, backslash,
    CodePoint.char?, Literal.hexDigit?_hexDigit, hv, hc]

/-- **The written form of a code point is the same item for both readers.** -/
theorem run_escape (c : CodePoint) :
    runMachine step .plain (Text.ofChars (Literal.escape c))
      = some (.plain, [Literal.item c]) := by
  refine Literal.escape_cases (P := fun t i => runMachine step .plain t = some (.plain, [i]))
    ?sign (fun n c => run_byNumber) ?raw c
  case sign => decide
  case raw =>
    intro c hlow hquote hback
    have hq : CodePoint.scalar c ≠ quote := fun h => hquote (CodePoint.scalar.inj h)
    have hb : CodePoint.scalar c ≠ backslash := fun h => hback (CodePoint.scalar.inj h)
    have hvalue : ¬ (CodePoint.scalar c).val < 0x20 := Nat.not_lt.mpr hlow
    have hraw : step .plain (.scalar c) = some (.plain, [.raw (.scalar c)]) := by
      rw [step, enter, if_neg hq, if_neg hb, if_neg hvalue]
    exact runMachine_cons hraw rfl

end Reading

/-- **A literal is read as the items of its text.** -/
theorem string?_encode (t : Text) :
    string? (Literal.encode t) = some (joined (t.map Literal.item)) := by
  have hbody : Text.ofChars (Literal.body t) = t.flatMap fun c => Text.ofChars (Literal.escape c) := by
    simp [Literal.body, Text.ofChars, List.map_flatMap]
  have hitems : runMachine step .plain (t.flatMap fun c => Text.ofChars (Literal.escape c))
      = some (.plain, t.flatMap fun c => [Literal.item c]) := runMachine_flatMap fun c _ => run_escape c
  rw [← hbody, ← List.map_eq_flatMap] at hitems
  have hclose : runMachine step .plain [quote] = some (.closed, []) := rfl
  have hrun := runMachine_append hitems hclose
  rw [List.append_nil] at hrun
  rw [Literal.encode_eq, List.cons_append, string?, if_pos rfl, hrun]

/-! ## 4. What is joined -/

namespace Reading

theorem pair?_item (a b : CodePoint) : pair? (Literal.item a) (Literal.item b) = a.pair? b := by
  cases a with
  | surrogate high =>
    cases b with
    | surrogate low => rfl
    | scalar d =>
      rcases Literal.item_scalar d with h | h <;> rw [h] <;> rfl
  | scalar c =>
    rcases Literal.item_scalar c with h | h
    · rw [h]
      rfl
    · cases b with
      | surrogate low => rw [h]; rfl
      | scalar d => rcases Literal.item_scalar d with h' | h' <;> rw [h, h'] <;> rfl

section

variable {a b : CodePoint} {t : Text}

theorem joined_of_pair {c : CodePoint} (h : a.pair? b = some c) :
    joined ((a :: b :: t).map Literal.item) = c :: joined (t.map Literal.item) := by
  rw [List.map_cons, List.map_cons, joined, pair?_item, h]

theorem joined_of_parted (h : a.pair? b = none) :
    joined ((a :: b :: t).map Literal.item) = a :: joined ((b :: t).map Literal.item) := by
  rw [List.map_cons, List.map_cons, joined, pair?_item, h, Literal.text_item]
  rfl

end

theorem joined_singleton (a : CodePoint) : joined ([a].map Literal.item) = [a] :=
  Literal.text_item a

/-- **Joining changes no halves.** -/
theorem halved_joined (t : Text) : (joined (t.map Literal.item)).halved = t.halved := by
  induction h : t.length using Nat.strongRecOn generalizing t with
  | ind n ih =>
    match t with
    | [] => rfl
    | [a] => rw [joined_singleton]
    | a :: b :: t =>
      cases hp : a.pair? b with
      | none =>
        have hrest := ih (b :: t).length (by simp at h ⊢; omega) (b :: t) rfl
        rw [joined_of_parted hp]
        simp only [Text.halved, List.flatMap_cons] at hrest ⊢
        rw [hrest]
      | some c =>
        have hrest := ih t.length (by simp at h; omega) t rfl
        obtain ⟨⟨high, rfl⟩, low, rfl⟩ := CodePoint.eq_surrogate_of_pair? hp
        rw [joined_of_pair hp]
        simp only [Text.halved, List.flatMap_cons] at hrest ⊢
        rw [hrest, CodePoint.halves_of_pair? hp]
        rfl

theorem length_joined_le (t : Text) : (joined (t.map Literal.item)).length ≤ t.length := by
  induction h : t.length using Nat.strongRecOn generalizing t with
  | ind n ih =>
    match t with
    | [] => exact Nat.zero_le n
    | [a] =>
      rw [joined_singleton, ← h]
    | a :: b :: t =>
      rw [List.length_cons, List.length_cons] at h
      cases hp : a.pair? b with
      | none =>
        have hrest := ih (b :: t).length (by simp; omega) (b :: t) rfl
        rw [joined_of_parted hp, List.length_cons]
        rw [List.length_cons] at hrest
        omega
      | some c =>
        have hrest := ih t.length (by omega) t rfl
        rw [joined_of_pair hp, List.length_cons]
        omega

/-- **Nothing is joined exactly if no high surrogate stands in front of a low one.** -/
theorem joined_eq_iff (t : Text) :
    joined (t.map Literal.item) = t ↔ t.IsChain fun a b => a.pair? b = none := by
  induction t with
  | nil => simp [joined]
  | cons a t ih =>
    cases t with
    | nil => exact iff_of_true (joined_singleton a) (List.isChain_singleton a)
    | cons b t =>
      rw [List.isChain_cons_cons]
      cases hp : a.pair? b with
      | none =>
        rw [joined_of_parted hp, List.cons_inj_right, ih]
        simp
      | some c =>
        have hlength := length_joined_le t
        rw [joined_of_pair hp]
        constructor
        · intro heq
          have hshort := congrArg List.length heq
          simp only [List.length_cons] at hshort
          omega
        · intro h
          cases h.1

end Reading

/-- **The code of a text, read as a JSON string, stands for the text** exactly if no high surrogate
    stands in front of a low one in it; in any case for a text with the same halves. -/
theorem string?_code_iff (n : RuntimeNames) (v : Text) :
    ∃ u, string? ((Expr.string v).code n) = some u ∧ u.halved = v.halved ∧
      (u = v ↔ v.IsChain fun a b => a.pair? b = none) :=
  ⟨_, string?_encode v, halved_joined v, joined_eq_iff v⟩

/-- A high surrogate in front of a low one is read as the character that they encode. -/
theorem string?_code_pair :
    string? ((Expr.string [.surrogate 0x3D, .surrogate 0x600]).code {}) = some [.scalar '😀'] ∧
      string? ((Expr.string [.surrogate 0x3D, .surrogate 0x600]).code {})
        ≠ some [.surrogate 0x3D, .surrogate 0x600] := by
  decide +kernel

end Json

end TemplateTree
