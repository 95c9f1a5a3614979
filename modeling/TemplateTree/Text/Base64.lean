/-!
# Base 64

Bytes are written in base 64 with four characters for three bytes and padding at the end. Characters
outside the alphabet are passed over, and reading stops at complete padding (`Base64.decode?`); a
text that stops in the middle of a group has no bytes.
-/

namespace TemplateTree.Base64

/-- The value of a character of the alphabet. -/
def sextet? (c : Char) : Option Nat :=
  if 'A' ≤ c ∧ c ≤ 'Z' then some (c.toNat - 'A'.toNat)
  else if 'a' ≤ c ∧ c ≤ 'z' then some (c.toNat - 'a'.toNat + 26)
  else if '0' ≤ c ∧ c ≤ '9' then some (c.toNat - '0'.toNat + 52)
  else if c = '+' then some 62
  else if c = '/' then some 63
  else none

/-- The bytes of the characters behind a partial group: `place` characters of the group were read,
    `left` are their bits not yet used, and `pads` marks of padding stand directly in front. -/
def decodeFrom : (place left pads : Nat) → List Char → Option (List UInt8)
  | place, _, _, [] => if place = 0 then some [] else none
  | place, left, pads, c :: rest =>
    if c = '=' then
      if 2 ≤ place then
        if 4 ≤ place + pads + 1 then some [] else decodeFrom place left (pads + 1) rest
      else
        decodeFrom place left pads rest
    else
      match sextet? c with
      | none => decodeFrom place left pads rest
      | some s =>
        match place with
        | 0 => decodeFrom 1 s 0 rest
        | 1 => (decodeFrom 2 (s % 16) 0 rest).map (UInt8.ofNat (left * 4 + s / 16) :: ·)
        | 2 => (decodeFrom 3 (s % 4) 0 rest).map (UInt8.ofNat (left * 16 + s / 4) :: ·)
        | _ => (decodeFrom 0 0 0 rest).map (UInt8.ofNat (left * 64 + s) :: ·)

/-- The bytes of a text in base 64. -/
def decode? (cs : List Char) : Option (List UInt8) := decodeFrom 0 0 0 cs

end TemplateTree.Base64
