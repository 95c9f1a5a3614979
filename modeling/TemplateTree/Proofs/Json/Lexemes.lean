import TemplateTree.Proofs.Json.Spot

/-!
# Lexemes of JSON documents

The lexemes of a document are its brackets, commas and colons, its texts and its words
(`Json.lexemes`). From the place in front of a document, wherever it stands, the reader comes to the
place behind it and has these lexemes: this is proved by induction over the document (`Json.isRead`),
and holds of the whole text (`Json.ofStream_write`).
-/

namespace TemplateTree

/-! ## 1. Documents -/

namespace Json

open Yaml

mutual

/-- The lexemes of a document. -/
def lexemes : Json → List Lexeme
  | string t => [.scalar false t]
  | array items => .flowSequenceStart :: itemLexemes true items ++ [.flowSequenceEnd]
  | object entries => .flowMappingStart :: entryLexemes true entries ++ [.flowMappingEnd]
  | j => [.scalar true j.text]

/-- The lexemes of the items of an array, each but the first one behind a comma. -/
def itemLexemes (isFirst : Bool) : List Json → List Lexeme
  | [] => []
  | j :: js => (if isFirst then [] else [.flowEntry]) ++ lexemes j ++ itemLexemes false js

/-- The lexemes of the entries of an object, each but the first one behind a comma. -/
def entryLexemes (isFirst : Bool) : List (Text × Json) → List Lexeme
  | [] => []
  | (k, j) :: es =>
    (if isFirst then [] else [.flowEntry]) ++ [.key, .scalar false k, .value] ++ lexemes j
      ++ entryLexemes false es

end

/-- A part of a document whose texts can be read: they have no supplementary characters, and none of
    its keys is too long. -/
structure IsLegible (part : Json) : Prop where
  basic : part.IsBasic
  short : ∀ k ∈ part.keys, (literal k).length ≤ maxKeyLength

/-- What the reader does with a document, wherever it stands. -/
def IsRead (j : Json) : Prop :=
  ∀ {s : Spot} {gap behind : List Char}, Spot.IsGap gap → Spot.Ends s.flow behind →
    s.rest = gap ++ (j.write ++ behind) →
    ∃ s', s.Leads s' j.lexemes ∧ s'.rest = behind ∧ s'.flow = s.flow ∧ s'.keyAllowed = false

theorem isRead_word {j : Json} (hj : j.isWord = true) : j.IsRead := by
  intro s gap behind hgap hbehind hs
  have hlexemes : j.lexemes = [.scalar true j.text] := by
    cases j with
    | null => rfl
    | bool b => rfl
    | int n fits => rfl
    | float d => rfl
    | string t => cases hj
    | array items => cases hj
    | object entries => cases hj
  rw [hlexemes]
  exact Spot.exists_word hgap (word_write hj) hbehind hs

/-- What stands behind an item goes on with a comma or the closing bracket. -/
theorem ends_writeItems {flow : Nat} (hflow : flow ≠ 0) (js : List Json) {c : Char}
    (hc : c ∈ [',', ']', '\x7d']) (behind : List Char) :
    Spot.Ends flow (writeItems false js ++ c :: behind) := by
  cases js with
  | nil => exact .inr ⟨hflow, c, behind, rfl, hc⟩
  | cons j js => exact .inr ⟨hflow, ',', _, rfl, by simp⟩

theorem ends_writeEntries {flow : Nat} (hflow : flow ≠ 0) (es : List (Text × Json)) {c : Char}
    (hc : c ∈ [',', ']', '\x7d']) (behind : List Char) :
    Spot.Ends flow (writeEntries false es ++ c :: behind) := by
  cases es with
  | nil => exact .inr ⟨hflow, c, behind, rfl, hc⟩
  | cons e es => exact .inr ⟨hflow, ',', _, rfl, by simp⟩

/-- Behind the comma in front of an item, or at the first one. -/
theorem exists_separator {s : Spot} {isFirst : Bool} {behind : List Char}
    (hs : s.rest = (if isFirst then [] else [',', ' ']) ++ behind)
    (hkey : isFirst = true → s.keyAllowed = true) :
    ∃ s' gap, s.Leads s' (if isFirst then [] else [.flowEntry]) ∧ Spot.IsGap gap ∧
      s'.rest = gap ++ behind ∧ s'.flow = s.flow ∧ s'.keyAllowed = true := by
  cases isFirst with
  | true => exact ⟨s, [], .refl s, .inl rfl, hs, rfl, hkey rfl⟩
  | false =>
    obtain ⟨s', hleads, hrest, hflow, hallowed⟩ := Spot.exists_comma (.inl rfl) hs
    exact ⟨s', [' '], hleads, .inr rfl, hrest, hflow, hallowed⟩

/-- The items of an array are read one after the other. -/
theorem exists_items {items : List Json} (hitems : ∀ j ∈ items, j.IsRead) {s : Spot} {isFirst : Bool}
    {behind : List Char} (hflow : s.flow ≠ 0)
    (hs : s.rest = writeItems isFirst items ++ ']' :: behind)
    (hkey : isFirst = true → s.keyAllowed = true) :
    ∃ s', s.Leads s' (itemLexemes isFirst items) ∧ s'.rest = ']' :: behind ∧ s'.flow = s.flow := by
  induction items generalizing s isFirst with
  | nil => exact ⟨s, .refl s, hs, rfl⟩
  | cons j js ih =>
    rw [writeItems, List.append_assoc, List.append_assoc] at hs
    obtain ⟨a, gap, ha, hgap, harest, haflow, -⟩ := exists_separator hs hkey
    have hends : Spot.Ends a.flow (writeItems false js ++ ']' :: behind) :=
      ends_writeItems (by rwa [haflow]) js (by simp) behind
    obtain ⟨b, hb, hbrest, hbflow, -⟩ := hitems j (by simp) hgap hends harest
    rw [haflow] at hbflow
    obtain ⟨s', hs', hrest, hflow'⟩ := ih (fun i hi => hitems i (by simp [hi])) (by rwa [hbflow])
      hbrest (by simp)
    exact ⟨s', (ha.trans hb).trans hs', hrest, by rw [hflow', hbflow]⟩

/-- The entries of an object are read one after the other. -/
theorem exists_entries {entries : List (Text × Json)} (hentries : ∀ e ∈ entries, e.2.IsRead)
    (hkeys : ∀ e ∈ entries, (∀ c ∈ e.1, c.val < 0x10000) ∧ (literal e.1).length ≤ maxKeyLength)
    {s : Spot} {isFirst : Bool} {behind : List Char} (hflow : s.flow ≠ 0)
    (hs : s.rest = writeEntries isFirst entries ++ '\x7d' :: behind)
    (hkey : isFirst = true → s.keyAllowed = true) :
    ∃ s', s.Leads s' (entryLexemes isFirst entries) ∧ s'.rest = '\x7d' :: behind ∧
      s'.flow = s.flow := by
  induction entries generalizing s isFirst with
  | nil => exact ⟨s, .refl s, hs, rfl⟩
  | cons e es ih =>
    obtain ⟨k, j⟩ := e
    rw [writeEntries, List.append_assoc, List.append_assoc, List.append_assoc, List.append_assoc] at hs
    obtain ⟨a, gap, ha, hgap, harest, haflow, hallowed⟩ := exists_separator hs hkey
    obtain ⟨hbasic, hshort⟩ := hkeys (k, j) (by simp)
    obtain ⟨b, hb, hbrest, hbflow, -⟩ :=
      Spot.exists_key hgap hbasic hshort hallowed (by rwa [haflow]) harest
    rw [haflow] at hbflow
    have hends : Spot.Ends b.flow (writeEntries false es ++ '\x7d' :: behind) :=
      ends_writeEntries (by rwa [hbflow]) es (by simp) behind
    obtain ⟨c, hc, hcrest, hcflow, -⟩ := hentries (k, j) (by simp) (.inr rfl) hends hbrest
    rw [hbflow] at hcflow
    obtain ⟨s', hs', hrest, hflow'⟩ := ih (fun i hi => hentries i (by simp [hi]))
      (fun i hi => hkeys i (by simp [hi])) (by rwa [hcflow]) hcrest (by simp)
    refine ⟨s', ?_, hrest, by rw [hflow', hcflow]⟩
    exact ((ha.trans hb).trans hc).trans hs'

/-- **Every document is read as its lexemes**, wherever it stands. -/
theorem isRead (j : Json) (hj : ∀ part ∈ j.parts, part.IsLegible) : j.IsRead := by
  induction j with
  | null => exact isRead_word rfl
  | bool b => exact isRead_word rfl
  | int n fits => exact isRead_word rfl
  | float d => exact isRead_word rfl
  | string t =>
    intro s gap behind hgap _ hs
    have hbasic := (hj _ (mem_parts_self _)).basic t (by simp [texts])
    obtain ⟨s', hleads, hrest, hflow, hallowed, -⟩ := Spot.exists_literal hgap hbasic hs
    exact ⟨s', hleads, hrest, hflow, hallowed⟩
  | array items ih =>
    intro s gap behind hgap _ hs
    have hs' : s.rest = gap ++ '[' :: (writeItems true items ++ ']' :: behind) := by
      rw [hs, write]
      simp
    obtain ⟨a, ha, harest, haflow, hallowed⟩ := Spot.exists_open hgap hs'
      ⟨rfl, by decide, by decide, by decide, rfl, rfl⟩ (fun _ => rfl) (by decide)
    obtain ⟨b, hb, hbrest, hbflow⟩ := exists_items
      (fun i hi => ih i hi fun part hpart => hj part (mem_parts_array hi hpart)) (by omega) harest
      (fun _ => hallowed)
    obtain ⟨s', hclose, hrest, hflow, hlast⟩ := Spot.exists_close (.inl rfl) hbrest
      ⟨rfl, by decide, by decide, by decide, rfl, rfl⟩ (fun _ => rfl) (by decide)
    exact ⟨s', (ha.trans hb).trans hclose, hrest, by omega, hlast⟩
  | object entries ih =>
    intro s gap behind hgap _ hs
    have hlegible := hj _ (mem_parts_self _)
    have hs' : s.rest = gap ++ '\x7b' :: (writeEntries true entries ++ '\x7d' :: behind) := by
      rw [hs, write]
      simp
    obtain ⟨a, ha, harest, haflow, hallowed⟩ := Spot.exists_open hgap hs'
      ⟨rfl, by decide, by decide, by decide, rfl, rfl⟩ (fun _ => rfl) (by decide)
    have hkeys : ∀ e ∈ entries,
        (∀ c ∈ e.1, c.val < 0x10000) ∧ (literal e.1).length ≤ maxKeyLength := fun e he =>
      ⟨hlegible.basic e.1 (List.mem_map_of_mem he), hlegible.short e.1 (List.mem_map_of_mem he)⟩
    obtain ⟨b, hb, hbrest, hbflow⟩ := exists_entries
      (fun i hi => ih i hi fun part hpart => hj part (mem_parts_object hi hpart)) hkeys (by omega)
      harest (fun _ => hallowed)
    obtain ⟨s', hclose, hrest, hflow, hlast⟩ := Spot.exists_close (.inl rfl) hbrest
      ⟨rfl, by decide, by decide, by decide, rfl, rfl⟩ (fun _ => rfl) (by decide)
    exact ⟨s', (ha.trans hb).trans hclose, hrest, by omega, hlast⟩

/-! ## 2. The whole text -/

theorem isPlain_writeItems {items : List Json} (h : ∀ j ∈ items, ∀ c ∈ j.write, isPlain c = true)
    (isFirst : Bool) : ∀ c ∈ writeItems isFirst items, isPlain c = true := by
  induction items generalizing isFirst with
  | nil => simp [writeItems]
  | cons j js ih =>
    intro c hc
    simp only [writeItems, List.mem_append] at hc
    rcases hc with (hc | hc) | hc
    · have hall : ∀ c ∈ (if isFirst then [] else [',', ' ']), isPlain c = true := by
        cases isFirst <;> exact List.all_iff_forall_prop.mp (by decide)
      exact hall c hc
    · exact h j (by simp) c hc
    · exact ih (fun i hi => h i (by simp [hi])) false c hc

theorem isPlain_writeEntries {entries : List (Text × Json)}
    (h : ∀ e ∈ entries, ∀ c ∈ e.2.write, isPlain c = true) (isFirst : Bool) :
    ∀ c ∈ writeEntries isFirst entries, isPlain c = true := by
  induction entries generalizing isFirst with
  | nil => simp [writeEntries]
  | cons e es ih =>
    obtain ⟨k, j⟩ := e
    intro c hc
    simp only [writeEntries, List.mem_append] at hc
    rcases hc with (((hc | hc) | hc) | hc) | hc
    · have hall : ∀ c ∈ (if isFirst then [] else [',', ' ']), isPlain c = true := by
        cases isFirst <;> exact List.all_iff_forall_prop.mp (by decide)
      exact hall c hc
    · exact isPlain_literal k c hc
    · have hall : ∀ c ∈ [':', ' '], isPlain c = true :=
        List.all_iff_forall_prop.mp (by decide)
      exact hall c hc
    · exact h (k, j) (by simp) c hc
    · exact ih (fun i hi => h i (by simp [hi])) false c hc

/-- **All characters of a document are printable ASCII.** -/
theorem isPlain_write (j : Json) : ∀ c ∈ j.write, isPlain c = true := by
  have hword {j : Json} (hj : j.isWord = true) : ∀ c ∈ j.write, isPlain c = true := fun c hc =>
    Spot.isPlain_of_wordMark c ((word_write hj).marks c hc)
  induction j with
  | null => exact hword rfl
  | bool b => exact hword rfl
  | int n fits => exact hword rfl
  | float d => exact hword rfl
  | string t => exact isPlain_literal t
  | array items ih =>
    intro c hc
    simp only [write, List.cons_append, List.mem_cons, List.mem_append, List.not_mem_nil,
      or_false] at hc
    rcases hc with rfl | hc | rfl
    · rfl
    · exact isPlain_writeItems ih true c hc
    · rfl
  | object entries ih =>
    intro c hc
    simp only [write, List.cons_append, List.mem_cons, List.mem_append, List.not_mem_nil,
      or_false] at hc
    rcases hc with rfl | hc | rfl
    · rfl
    · exact isPlain_writeEntries ih true c hc
    · rfl

theorem ofChars_write (j : Json) : Stream.ofChars j.write = ⟨j.write, none⟩ := by
  have hall : j.write.all isPrintable = true := by
    rw [List.all_eq_true]
    intro c hc
    have hplain : (' ' ≤ c && c ≤ '~') = true := isPlain_write j c hc
    simp [isPrintable, hplain]
  rw [Stream.ofChars, if_pos hall]

/-- **The lexemes of the text of a document.** -/
theorem ofStream_write {j : Json} (hj : ∀ part ∈ j.parts, part.IsLegible) :
    Lexemes.ofStream (.ofChars j.write) = ⟨j.lexemes ++ [.streamEnd], none⟩ := by
  let start : Spot := ⟨j.write, 0, 0, true, [], [], j.write.length, by simp, by simp, Nat.le_refl _⟩
  obtain ⟨s, ⟨⟨steps, hsteps, hrun⟩, hlexemes⟩, hrest, -⟩ :=
    isRead j hj (s := start) (.inl rfl) (.inl ⟨rfl, rfl⟩) (List.append_nil _).symm
  have hstart : Lexemes.ofStream (.ofChars j.write)
      = Reader.run none (j.write.length + 2) start.reader := by
    rw [ofChars_write]
    rfl
  have hfuel : j.write.length + 2 = (j.write.length - steps) + 2 + steps := by
    have : steps ≤ j.write.length := by
      rw [hrest] at hsteps
      exact hsteps
    omega
  rw [hstart, hfuel, hrun, Spot.run_end hrest, hlexemes]
  simp [start]

end Json

end TemplateTree
