/-!
# Texts as sequences of code points

A template may hold any sequence of Unicode code points, lone surrogates included, so the texts
of this library are lists of code points and not `String`s. This file fixes

* `CodePoint`: a Unicode scalar value or a lone surrogate, with its number (`CodePoint.val`) and
  the way back (`CodePoint.ofNat?`);
* `Text`, a list of code points, into which a `String` is read character by character
  (`Text.ofString`, used as a coercion for the literals of this library);
* the order of texts by code points (`Text.le`), and the text as characters, where it has no
  surrogate (`Text.chars?`).
-/

namespace TemplateTree

/-! ## 1. Code points -/

/-- A code point: a Unicode scalar value, or the surrogate `0xD800 + n`. -/
inductive CodePoint where
  | scalar (c : Char)
  | surrogate (n : Fin 0x800)
deriving DecidableEq, Repr, Inhabited

namespace CodePoint

/-- The number of a code point. -/
def val : CodePoint → Nat
  | scalar c => c.toNat
  | surrogate n => 0xD800 + n.val

/-- The code point with a given number; there is none from `0x110000` on. -/
def ofNat? (n : Nat) : Option CodePoint :=
  if h : 0xD800 ≤ n ∧ n < 0xE000 then
    some (surrogate ⟨n - 0xD800, by omega⟩)
  else if n < 0x110000 then
    some (scalar (Char.ofNat n))
  else
    none

/-- Whether the number of a code point lies in one of some closed ranges. -/
def inRanges (ranges : List (Nat × Nat)) (c : CodePoint) : Bool :=
  ranges.any fun r => r.1 ≤ c.val && c.val ≤ r.2

/-- The character of a code point that is not a surrogate. -/
def char? : CodePoint → Option Char
  | scalar c => some c
  | surrogate _ => none

end CodePoint

/-! ## 2. Texts -/

/-- A text is a list of code points. -/
abbrev Text := List CodePoint

namespace Text

/-- The text of a list of characters. -/
def ofChars (cs : List Char) : Text := cs.map .scalar

/-- The text of a string. -/
def ofString (s : String) : Text := ofChars s.toList

instance : Coe String Text := ⟨ofString⟩

/-- The characters of a text without surrogates. -/
def chars? : Text → Option (List Char)
  | [] => some []
  | .scalar c :: rest => (chars? rest).map (c :: ·)
  | .surrogate _ :: _ => none

/-- Texts in the order of their code point numbers, a proper beginning first. -/
def le : Text → Text → Bool
  | [], _ => true
  | _ :: _, [] => false
  | a :: s, b :: t => a.val < b.val || (a == b && le s t)

/-- The pieces of a list of texts with a separator between two neighbours. -/
def join (separator : Text) (pieces : List Text) : Text :=
  List.intercalate separator pieces

theorem chars?_ofChars (cs : List Char) : chars? (ofChars cs) = some cs := by
  induction cs with
  | nil => rfl
  | cons c rest ih =>
    have h : chars? (ofChars (c :: rest)) = (chars? (ofChars rest)).map (c :: ·) := rfl
    rw [h, ih]
    rfl

end Text

end TemplateTree
