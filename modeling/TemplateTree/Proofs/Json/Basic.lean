import TemplateTree.Number.Shortest
import TemplateTree.Proofs.Number.Rounding
import TemplateTree.Text.Literal
import TemplateTree.Value.Basic

/-!
# JSON documents

A `Json` is a JSON document: null, truth values, integers, finite doubles, texts, arrays and objects.
`Json.value` is the decoded value that it stands for, and `Json.write` its text: one line of ASCII, in
which a comma and a colon have a space behind them, and everything outside the printable part of ASCII
is escaped in texts, a supplementary character by two escapes.

An integer that is too long to be written and a double that is not finite are no part of a document.
What else a document may or may not hold is said of its parts (`Json.parts`). A supplementary character
is written as the two surrogates that encode it would be, so a document has the same text as the
document with these halves (`Json.write_halved`).
-/

namespace TemplateTree

/-! ## 1. Documents -/

/-- A JSON document. -/
inductive Json where
  | null
  | bool (value : Bool)
  | int (value : Int) (fits : Decimal.fits value = true)
  | float (value : Finite64)
  | string (value : Text)
  | array (items : List Json)
  | object (entries : List (Text × Json))

namespace Json

section

variable {motive : Json → Prop}
  (null : motive .null)
  (bool : ∀ value, motive (.bool value))
  (int : ∀ value fits, motive (.int value fits))
  (float : ∀ value, motive (.float value))
  (string : ∀ value, motive (.string value))
  (array : ∀ items, (∀ j ∈ items, motive j) → motive (.array items))
  (object : ∀ entries, (∀ e ∈ entries, motive e.2) → motive (.object entries))

include null bool int float string array object

/-- **Induction over documents**, with the hypothesis for everything that stands in an array or an
    object. -/
@[elab_as_elim, induction_eliminator]
theorem induction (j : Json) : motive j := by
  refine @Json.rec motive (fun js => ∀ j ∈ js, motive j) (fun es => ∀ e ∈ es, motive e.2)
    (fun e => motive e.2) null bool int float string array object ?nil ?cons ?noEntry ?entry ?pair j
  case nil => simp
  case cons =>
    intro j js hj hjs x hx
    rcases List.mem_cons.mp hx with rfl | hx
    · exact hj
    · exact hjs x hx
  case noEntry => simp
  case entry =>
    intro e es he hes x hx
    rcases List.mem_cons.mp hx with rfl | hx
    · exact he
    · exact hes x hx
  case pair => exact fun k j hj => hj

end

/-! ## 2. Values -/

mutual

/-- The value of a document. -/
def value : Json → Value
  | null => .null
  | bool b => .scalar (.bool b)
  | int n _ => .scalar (.int n)
  | float d => .scalar (.float d.toBinary64)
  | string t => .ofText t
  | array items => .list (values items)
  | object entries => .mapping (entryValues entries)

/-- The values of some documents. -/
def values : List Json → List Value
  | [] => []
  | j :: js => value j :: values js

/-- The values under some keys. -/
def entryValues : List (Text × Json) → List (Scalar × Value)
  | [] => []
  | (k, j) :: es => (.text k, value j) :: entryValues es

end

theorem values_eq_map (items : List Json) : values items = items.map value := by
  induction items with
  | nil => rfl
  | cons j js ih => rw [values, ih, List.map_cons]

theorem entryValues_eq_map (entries : List (Text × Json)) :
    entryValues entries = entries.map fun e => (.text e.1, e.2.value) := by
  induction entries with
  | nil => rfl
  | cons e es ih => rw [entryValues, ih, List.map_cons]

/-! ## 3. Texts -/

/-- The escape of a number of sixteen bits. -/
def escape16 (n : Nat) : List Char := '\\' :: 'u' :: Literal.hex4 n

/-- A code point as it is written in a text. -/
def escape (c : CodePoint) : List Char :=
  match c with
  | .scalar '"' => ['\\', '"']
  | .scalar '\\' => ['\\', '\\']
  | .scalar '\n' => ['\\', 'n']
  | .scalar '\r' => ['\\', 'r']
  | .scalar '\t' => ['\\', 't']
  | .scalar '\x08' => ['\\', 'b']
  | .scalar '\x0c' => ['\\', 'f']
  | .scalar ch =>
    if ' ' ≤ ch ∧ ch ≤ '~' then [ch]
    else if ch.toNat < 0x10000 then escape16 ch.toNat
    else escape16 (0xD800 + (ch.toNat - 0x10000) / 0x400)
      ++ escape16 (0xDC00 + (ch.toNat - 0x10000) % 0x400)
  | .surrogate n => escape16 (0xD800 + n.val)

/-- A text with its quotes. -/
def literal (t : Text) : List Char := '"' :: t.flatMap escape ++ ['"']

/-- The characters of an integer. -/
def integerChars (n : Int) : List Char :=
  (if n < 0 then ['-'] else []) ++ Nat.toDigits 10 n.natAbs

/-- The characters of a finite double: the shortest decimal that is read as the double. -/
def floatChars (d : Finite64) : List Char :=
  (if d.negative then ['-'] else [])
    ++ if d.mantissa = 0 then ['0', '.', '0'] else Shortest.positive d.mantissa d.exponent

mutual

/-- The text of a document. -/
def write : Json → List Char
  | null => ['n', 'u', 'l', 'l']
  | bool true => ['t', 'r', 'u', 'e']
  | bool false => ['f', 'a', 'l', 's', 'e']
  | int n _ => integerChars n
  | float d => floatChars d
  | string t => literal t
  | array items => '[' :: writeItems true items ++ [']']
  | object entries => '\x7b' :: writeEntries true entries ++ ['\x7d']

/-- The items of an array, each but the first one behind a comma. -/
def writeItems (isFirst : Bool) : List Json → List Char
  | [] => []
  | j :: js => (if isFirst then [] else [',', ' ']) ++ write j ++ writeItems false js

/-- The entries of an object, each but the first one behind a comma. -/
def writeEntries (isFirst : Bool) : List (Text × Json) → List Char
  | [] => []
  | (k, j) :: es =>
    (if isFirst then [] else [',', ' ']) ++ literal k ++ [':', ' '] ++ write j
      ++ writeEntries false es

end

/-- The text of a document. -/
def text (j : Json) : Text := Text.ofChars j.write

/-! ## 4. Parts -/

mutual

/-- A document and everything that stands in it. -/
def parts : Json → List Json
  | array items => array items :: itemParts items
  | object entries => object entries :: entryParts entries
  | j => [j]

/-- Some documents and everything that stands in them. -/
def itemParts : List Json → List Json
  | [] => []
  | j :: js => parts j ++ itemParts js

/-- The documents under some keys and everything that stands in them. -/
def entryParts : List (Text × Json) → List Json
  | [] => []
  | (_, j) :: es => parts j ++ entryParts es

end

/-- The keys of an object. -/
def keys : Json → List Text
  | object entries => entries.map Prod.fst
  | _ => []

/-- The texts of a node: the text that it is, or its keys. -/
def texts : Json → List Text
  | string t => [t]
  | j => j.keys

/-- A double whose text has no point, though an exponent: `1e+16` is one. -/
def isPointless : Json → Bool
  | float d => !(floatChars d).contains '.'
  | _ => false

/-- What stands under a key of an object. -/
def find? (key : Text) : Json → Option Json
  | object entries => (entries.find? fun e => e.1 = key).map Prod.snd
  | _ => none

theorem mem_parts_self (j : Json) : j ∈ j.parts := by
  cases j <;> simp [parts]

theorem mem_itemParts {items : List Json} {part : Json} :
    part ∈ itemParts items ↔ ∃ j ∈ items, part ∈ j.parts := by
  induction items with
  | nil => simp [itemParts]
  | cons j js ih => simp [itemParts, ih]

theorem mem_entryParts {entries : List (Text × Json)} {part : Json} :
    part ∈ entryParts entries ↔ ∃ e ∈ entries, part ∈ e.2.parts := by
  induction entries with
  | nil => simp [entryParts]
  | cons e es ih => simp [entryParts, ih]

theorem mem_parts_array {items : List Json} {j part : Json} (hj : j ∈ items)
    (h : part ∈ j.parts) : part ∈ (array items).parts :=
  List.mem_cons_of_mem _ (mem_itemParts.mpr ⟨j, hj, h⟩)

theorem mem_parts_object {entries : List (Text × Json)} {e : Text × Json} {part : Json}
    (he : e ∈ entries) (h : part ∈ e.2.parts) : part ∈ (object entries).parts :=
  List.mem_cons_of_mem _ (mem_entryParts.mpr ⟨e, he, h⟩)

end Json

/-! ## 5. Supplementary characters -/

/-- A supplementary character as the two surrogates that encode it; any other code point as it is. -/
def CodePoint.halves : CodePoint → Text
  | .scalar ch =>
    if ch.toNat < 0x10000 then [.scalar ch]
    else [.surrogate (.ofNat _ ((ch.toNat - 0x10000) / 0x400)),
      .surrogate (.ofNat _ (0x400 + (ch.toNat - 0x10000) % 0x400))]
  | .surrogate n => [.surrogate n]

/-- A text with every supplementary character in two halves. -/
def Text.halved (t : Text) : Text := t.flatMap CodePoint.halves

namespace CodePoint

theorem halves_of_lt {c : CodePoint} (hc : c.val < 0x10000) : c.halves = [c] := by
  cases c with
  | scalar ch => exact if_pos hc
  | surrogate n => rfl

theorem val_lt_of_mem_halves {c d : CodePoint} (hd : d ∈ c.halves) : d.val < 0x10000 := by
  have hsurrogate (n : Fin 0x800) : (surrogate n).val < 0x10000 := by
    rw [val]
    omega
  cases c with
  | scalar ch =>
    rw [halves] at hd
    split at hd
    · rename_i hlt
      obtain rfl := List.mem_singleton.mp hd
      exact hlt
    · rcases List.mem_pair.mp hd with rfl | rfl <;> exact hsurrogate _
  | surrogate n =>
    obtain rfl := List.mem_singleton.mp hd
    exact hsurrogate n

end CodePoint

namespace Json

mutual

/-- A document with every supplementary character in two halves. -/
def halved : Json → Json
  | string t => string t.halved
  | array items => array (halvedItems items)
  | object entries => object (halvedEntries entries)
  | j => j

/-- Some documents with every supplementary character in two halves. -/
def halvedItems : List Json → List Json
  | [] => []
  | j :: js => halved j :: halvedItems js

/-- Some entries with every supplementary character in two halves. -/
def halvedEntries : List (Text × Json) → List (Text × Json)
  | [] => []
  | (k, j) :: es => (k.halved, halved j) :: halvedEntries es

end

theorem escape_supplementary {ch : Char} (hch : ¬ ch.toNat < 0x10000) :
    escape (.scalar ch) = escape16 (0xD800 + (ch.toNat - 0x10000) / 0x400)
      ++ escape16 (0xDC00 + (ch.toNat - 0x10000) % 0x400) := by
  have hspecial {d : Char} (heq : CodePoint.scalar ch = .scalar d) : ¬ d.toNat < 0x10000 :=
    CodePoint.scalar.inj heq ▸ hch
  have hprintable : ¬ (' ' ≤ ch ∧ ch ≤ '~') := fun h =>
    hch (Nat.lt_of_le_of_lt (show ch.toNat ≤ '~'.toNat from h.2) (by decide))
  unfold escape
  split
  case h_8 _ _ _ _ _ _ _ _ heq =>
    obtain rfl := CodePoint.scalar.inj heq
    rw [if_neg hprintable, if_neg hch]
  case h_9 heq => cases heq
  all_goals
    rename_i heq
    exact absurd (by decide) (hspecial heq)

/-- The escapes of a supplementary character are those of its halves. -/
theorem flatMap_escape_halves (c : CodePoint) : c.halves.flatMap escape = escape c := by
  by_cases hc : c.val < 0x10000
  · rw [CodePoint.halves_of_lt hc, List.flatMap_singleton]
  cases c with
  | surrogate n =>
    rw [CodePoint.val] at hc
    omega
  | scalar ch =>
    have hch : ¬ ch.toNat < 0x10000 := hc
    have hvalid : ch.toNat < 0x110000 := by
      rcases ch.valid with h | h
      · exact Nat.lt_trans h (by decide)
      · exact h.2
    have hhigh : (Fin.ofNat 0x800 ((ch.toNat - 0x10000) / 0x400)).val
        = (ch.toNat - 0x10000) / 0x400 := Nat.mod_eq_of_lt (by omega)
    have hlow : (Fin.ofNat 0x800 (0x400 + (ch.toNat - 0x10000) % 0x400)).val
        = 0x400 + (ch.toNat - 0x10000) % 0x400 := Nat.mod_eq_of_lt (by omega)
    rw [escape_supplementary hch, CodePoint.halves, if_neg hch, List.flatMap_cons,
      List.flatMap_singleton, escape, escape, hhigh, hlow, ← Nat.add_assoc]

theorem literal_halved (t : Text) : literal t.halved = literal t := by
  rw [literal, literal, Text.halved, List.flatMap_assoc, funext flatMap_escape_halves]

theorem halvedItems_eq_map (items : List Json) : halvedItems items = items.map halved := by
  induction items with
  | nil => rfl
  | cons j js ih => rw [halvedItems, ih, List.map_cons]

theorem halvedEntries_eq_map (entries : List (Text × Json)) :
    halvedEntries entries = entries.map fun e => (e.1.halved, e.2.halved) := by
  induction entries with
  | nil => rfl
  | cons e es ih => rw [halvedEntries, ih, List.map_cons]

/-- **A document is written as if its supplementary characters were in two halves.** -/
theorem write_halved (j : Json) : j.halved.write = j.write := by
  induction j with
  | string t => exact literal_halved t
  | array items ih =>
    have hitems (isFirst : Bool) :
        writeItems isFirst (halvedItems items) = writeItems isFirst items := by
      induction items generalizing isFirst with
      | nil => rfl
      | cons j js ihs =>
        rw [halvedItems, writeItems, writeItems, ih j (by simp), ihs fun i hi => ih i (by simp [hi])]
    rw [halved, write, write, hitems]
  | object entries ih =>
    have hentries (isFirst : Bool) :
        writeEntries isFirst (halvedEntries entries) = writeEntries isFirst entries := by
      induction entries generalizing isFirst with
      | nil => rfl
      | cons e es ihs =>
        obtain ⟨k, j⟩ := e
        rw [halvedEntries, writeEntries, writeEntries, literal_halved, ih (k, j) (by simp),
          ihs fun i hi => ih i (by simp [hi])]
    rw [halved, write, write, hentries]
  | _ => rfl

/-- A part of a document without supplementary characters in its texts. -/
def IsBasic (part : Json) : Prop := ∀ t ∈ part.texts, ∀ c ∈ t, c.val < 0x10000

instance (part : Json) : Decidable part.IsBasic :=
  inferInstanceAs (Decidable (∀ t ∈ part.texts, ∀ c ∈ t, c.val < 0x10000))

theorem halved_text {t : Text} (ht : ∀ c ∈ t, c.val < 0x10000) : t.halved = t := by
  rw [Text.halved]
  induction t with
  | nil => rfl
  | cons c t ih =>
    rw [List.flatMap_cons, CodePoint.halves_of_lt (ht c (by simp)),
      ih fun d hd => ht d (by simp [hd])]
    rfl

/-- A document without supplementary characters stays as it is. -/
theorem halved_of_isBasic {j : Json} (hj : ∀ part ∈ j.parts, part.IsBasic) : j.halved = j := by
  induction j with
  | string t => rw [halved, halved_text (hj _ (mem_parts_self _) t (by simp [texts]))]
  | array items ih =>
    have hitems : ∀ i ∈ items, halved i = id i := fun i hi =>
      ih i hi fun part hpart => hj part (mem_parts_array hi hpart)
    rw [halved, halvedItems_eq_map, List.map_congr_left hitems, List.map_id]
  | object entries ih =>
    have hentries : ∀ e ∈ entries, (e.1.halved, halved e.2) = id e := fun e he => by
      rw [ih e he fun part hpart => hj part (mem_parts_object he hpart),
        halved_text (hj _ (mem_parts_self _) e.1 (List.mem_map_of_mem he)), id]
    rw [halved, halvedEntries_eq_map, List.map_congr_left hentries, List.map_id]
  | _ => rfl

/-- The halves of a document have no supplementary characters. -/
theorem isBasic_halved (j : Json) : ∀ part ∈ j.halved.parts, part.IsBasic := by
  have htext (t : Text) : ∀ c ∈ t.halved, c.val < 0x10000 := by
    intro c hc
    obtain ⟨d, -, hd⟩ := List.mem_flatMap.mp hc
    exact CodePoint.val_lt_of_mem_halves hd
  intro part hpart t ht
  induction j with
  | string s =>
    obtain rfl := List.mem_singleton.mp hpart
    obtain rfl := List.mem_singleton.mp ht
    exact htext s
  | array items ih =>
    rw [halved, parts, halvedItems_eq_map] at hpart
    rcases List.mem_cons.mp hpart with rfl | hpart
    · cases ht
    · obtain ⟨i, hi, hpart⟩ := mem_itemParts.mp hpart
      obtain ⟨k, hk, rfl⟩ := List.mem_map.mp hi
      exact ih k hk hpart
  | object entries ih =>
    rw [halved, parts, halvedEntries_eq_map] at hpart
    rcases List.mem_cons.mp hpart with rfl | hpart
    · obtain ⟨e, he, rfl⟩ := List.mem_map.mp ht
      obtain ⟨d, -, rfl⟩ := List.mem_map.mp he
      exact htext d.1
    · obtain ⟨e, he, hpart⟩ := mem_entryParts.mp hpart
      obtain ⟨d, hd, rfl⟩ := List.mem_map.mp he
      exact ih d hd hpart
  | _ =>
    obtain rfl := List.mem_singleton.mp hpart
    cases ht

end Json

end TemplateTree
