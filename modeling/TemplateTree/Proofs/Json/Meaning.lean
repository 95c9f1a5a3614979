import TemplateTree.Document.Parse
import TemplateTree.Proofs.Document.Likeness
import TemplateTree.Proofs.Json.Decoding

/-!
# What JSON documents mean

The nodes of a document are ordinary ones (`Json.seen_nodes`), so the parts of the graph that its text
is decoded to look like the parts of its value (`Json.exists_load`). The tree of the text of a document
is the tree of its value (`Json.parse_text`), unless the document has supplementary characters, keys
that are too long, or a number without a point in the place of a line. A supplementary character is
read as its two halves.
-/

namespace TemplateTree

/-! ## 1. Nodes in an array -/

namespace Yaml

/-- Some nodes stand in an array, one after the other from a number on. -/
def Stands (ns : Array Node) (start : Nat) (l : List Node) : Prop :=
  ∀ (k : Nat) (n : Node), l[k]? = some n → ns[start + k]? = some n

namespace Stands

variable {ns : Array Node} {start : Nat} {n : Node} {l l' : List Node}

theorem toArray (l : List Node) : Stands l.toArray 0 l := by
  intro k n hk
  rw [Nat.zero_add, List.getElem?_toArray]
  exact hk

theorem head (h : Stands ns start (n :: l)) : ns[start]? = some n := h 0 n rfl

theorem tail (h : Stands ns start (n :: l)) : Stands ns (start + 1) l := by
  intro k m hk
  rw [Nat.add_assoc, Nat.add_comm 1]
  exact h (k + 1) m hk

theorem left (h : Stands ns start (l ++ l')) : Stands ns start l := by
  intro k m hk
  refine h k m ?_
  rw [List.getElem?_append_left (List.getElem?_eq_some_iff.mp hk).1]
  exact hk

theorem right (h : Stands ns start (l ++ l')) : Stands ns (start + l.length) l' := by
  intro k m hk
  rw [Nat.add_assoc]
  refine h (l.length + k) m ?_
  rw [List.getElem?_append_right (Nat.le_add_right ..), Nat.add_sub_cancel_left]
  exact hk

end Stands

theorem nodeAt_of_getElem? {ns : Array Node} {i : Nat} {n : Node} (h : ns[i]? = some n) :
    Merge.nodeAt ns i = n := by
  rw [Merge.nodeAt, Array.getD_eq_getD_getElem?, h]
  rfl

/-- What is seen at a node that is an ordinary one. -/
def levelOf (ns : Array Node) : Node → Level Nat
  | .scalar tag t => .scalar ((scalarValue tag t).toOption.getD .null)
  | .sequence _ items => .list items
  | .mapping _ entries => .mapping (entries.map fun e => (.text (keyText ns e.1), e.2))

theorem seen_scalar (ns : Array Node) {tag : Tag} {t : Text} {s : Scalar}
    (hvalue : scalarValue tag t = .ok s) (hnan : s ≠ .float .nan) :
    Seen ns (.scalar tag t) (levelOf ns (.scalar tag t)) := by
  have htag : tag.isScalar = true := by
    unfold scalarValue at hvalue
    split at hvalue
    case h_8 => cases hvalue
    all_goals rfl
  rw [levelOf, hvalue]
  exact .scalar htag hvalue hnan

end Yaml

namespace Json

open Yaml

/-! ## 2. Nodes of a document -/

theorem exists_nodes (start : Nat) (j : Json) : ∃ n l, j.nodes start = n :: l := by
  cases j <;> exact ⟨_, _, rfl⟩

section

variable {ns : Array Node} {start : Nat}

theorem lt_size_of_stands {j : Json} (h : Stands ns start (j.nodes start)) : start < ns.size := by
  obtain ⟨n, l, hnodes⟩ := exists_nodes start j
  rw [hnodes] at h
  exact (Array.getElem?_eq_some_iff.mp h.head).1

theorem forall_left {α β : Type} {R : α → β → Prop} {p : α → Prop} {as : List α} {bs : List β}
    (h : List.Forall₂ R as bs) (hp : ∀ a b, R a b → p a) : ∀ a ∈ as, p a :=
  ((List.forall₂_and_left ..).mp (h.imp fun a b hab => ⟨hp a b hab, hab⟩)).1

/-- Every item stands where its number says. -/
theorem forall₂_items {items : List Json} (h : Stands ns start (itemNodes start items)) :
    List.Forall₂ (fun c j => j ∈ items ∧ start ≤ c ∧ Stands ns c (j.nodes c))
      (itemNumbers start items) items := by
  induction items generalizing start with
  | nil => exact .nil
  | cons j js ih =>
    rw [itemNodes] at h
    have hright := h.right
    rw [length_nodes] at hright
    refine .cons ⟨by simp, Nat.le_refl _, h.left⟩ ((ih hright).imp fun c i hi => ?_)
    exact ⟨List.mem_cons_of_mem _ hi.1, by omega, hi.2.2⟩

/-- Every key and what stands under it stand where their numbers say. -/
theorem forall₂_entries {entries : List (Text × Json)}
    (h : Stands ns start (entryNodes start entries)) :
    List.Forall₂ (fun p e => e ∈ entries ∧ Merge.nodeAt ns p.1 = .scalar .text e.1 ∧ start < p.2 ∧
      Stands ns p.2 (e.2.nodes p.2)) (entryNumbers start entries) entries := by
  induction entries generalizing start with
  | nil => exact .nil
  | cons e es ih =>
    obtain ⟨k, j⟩ := e
    rw [entryNodes] at h
    have hright := h.right
    rw [List.length_cons, length_nodes] at hright
    refine .cons ⟨by simp, nodeAt_of_getElem? h.left.head, Nat.lt_succ_self _, h.left.tail⟩
      ((ih hright).imp fun p e he => ?_)
    exact ⟨List.mem_cons_of_mem _ he.1, he.2.1, by omega, he.2.2.2⟩

theorem exists_of_mem_itemNodes {items : List Json} {n : Node}
    (h : Stands ns start (itemNodes start items)) (hn : n ∈ itemNodes start items) :
    ∃ j ∈ items, ∃ c, Stands ns c (j.nodes c) ∧ n ∈ j.nodes c := by
  induction items generalizing start with
  | nil => cases hn
  | cons j js ih =>
    rw [itemNodes] at h hn
    rcases List.mem_append.mp hn with hn | hn
    · exact ⟨j, by simp, start, h.left, hn⟩
    · have hright := h.right
      rw [length_nodes] at hright
      obtain ⟨i, hi, hrest⟩ := ih hright hn
      exact ⟨i, by simp [hi], hrest⟩

theorem exists_of_mem_entryNodes {entries : List (Text × Json)} {n : Node}
    (h : Stands ns start (entryNodes start entries)) (hn : n ∈ entryNodes start entries) :
    (∃ k, n = .scalar .text k) ∨
      ∃ e ∈ entries, ∃ c, Stands ns c (e.2.nodes c) ∧ n ∈ e.2.nodes c := by
  induction entries generalizing start with
  | nil => cases hn
  | cons e es ih =>
    obtain ⟨k, j⟩ := e
    rw [entryNodes] at h hn
    rcases List.mem_append.mp hn with hn | hn
    · rcases List.mem_cons.mp hn with rfl | hn
      · exact .inl ⟨k, rfl⟩
      · exact .inr ⟨(k, j), by simp, start + 1, h.left.tail, hn⟩
    · have hright := h.right
      rw [List.length_cons, length_nodes] at hright
      rcases ih hright hn with hkey | ⟨d, hd, hrest⟩
      · exact .inl hkey
      · exact .inr ⟨d, by simp [hd], hrest⟩

theorem seen_text (k : Text) : Seen ns (.scalar .text k) (levelOf ns (.scalar .text k)) :=
  seen_scalar ns rfl (by simp)

theorem scalar_ne_nan (j : Json) : j.scalar ≠ .float .nan := by
  cases j with
  | float d =>
    show (if (floatChars d).contains '.' then Scalar.float d.toBinary64
      else .text (Text.ofChars (floatChars d))) ≠ _
    split <;> nofun
  | _ => nofun

theorem seen_word {j : Json} (hj : j.isWord = true) :
    Seen ns (.scalar (.ofSpelling j.write) j.text)
      (levelOf ns (.scalar (.ofSpelling j.write) j.text)) :=
  seen_scalar ns (scalarValue_write hj) (scalar_ne_nan j)

theorem keyTexts_eq {entries : List (Text × Json)} (h : Stands ns start (entryNodes start entries)) :
    (entryNumbers start entries).map (fun p => keyText ns p.1) = entries.map Prod.fst := by
  rw [← List.forall₂_eq_eq_eq, List.forall₂_map_left_iff, List.forall₂_map_right_iff]
  refine (forall₂_entries h).imp fun p e he => ?_
  rw [keyText, he.2.1]

/-- **The nodes of a document are ordinary ones**, if no key is repeated. -/
theorem seen_nodes (j : Json) (hkeys : ∀ part ∈ j.parts, part.keys.Nodup)
    (h : Stands ns start (j.nodes start)) : ∀ n ∈ j.nodes start, Seen ns n (levelOf ns n) := by
  induction j generalizing start with
  | null => simpa [nodes] using seen_word (j := .null) rfl
  | bool b => simpa [nodes] using seen_word (j := .bool b) rfl
  | int n fits => simpa [nodes] using seen_word (j := .int n fits) rfl
  | float d => simpa [nodes] using seen_word (j := .float d) rfl
  | string t => simpa [nodes] using seen_text t
  | array items ih =>
    rw [nodes] at h ⊢
    intro n hn
    rcases List.mem_cons.mp hn with rfl | hn
    · exact .sequence (forall_left (forall₂_items h.tail) fun c j hj => lt_size_of_stands hj.2.2)
    · obtain ⟨j, hj, c, hstands, hn⟩ := exists_of_mem_itemNodes h.tail hn
      exact ih j hj (fun part hpart => hkeys part (mem_parts_array hj hpart)) hstands n hn
  | object entries ih =>
    rw [nodes] at h ⊢
    intro n hn
    rcases List.mem_cons.mp hn with rfl | hn
    · have hentries := forall₂_entries h.tail
      refine .mapping (forall_left hentries fun p e he => ?_)
        (forall_left hentries fun p e he => lt_size_of_stands he.2.2.2) ?_
      · rw [keyText, he.2.1]
      · rw [keyTexts_eq h.tail]
        exact hkeys _ (mem_parts_self _)
    · rcases exists_of_mem_entryNodes h.tail hn with ⟨k, rfl⟩ | ⟨e, he, c, hstands, hn⟩
      · exact seen_text k
      · exact ih e he (fun part hpart => hkeys part (mem_parts_object he hpart)) hstands n hn

end

/-! ## 3. Values of a document -/

theorem height_lt_array {items : List Json} {j : Json} (hj : j ∈ items) :
    j.value.height < (array items).value.height := by
  rw [value, values_eq_map]
  exact Value.height_lt_list (List.mem_map_of_mem hj)

theorem height_lt_object {entries : List (Text × Json)} {e : Text × Json} (he : e ∈ entries) :
    e.2.value.height < (object entries).value.height := by
  rw [value, entryValues_eq_map]
  exact Value.height_lt_mapping (k := .text e.1) (List.mem_map.mpr ⟨e, he, rfl⟩)

/-- A document has no more levels than nodes. -/
theorem height_value_le_size (j : Json) : j.value.height ≤ j.size := by
  induction j with
  | array items ih =>
    rw [value, Value.height, size, Nat.add_le_add_iff_right]
    induction items with
    | nil => exact Nat.le_refl 0
    | cons j js ihs =>
      have hj := ih j (by simp)
      have hjs := ihs fun i hi => ih i (by simp [hi])
      rw [values, Value.heights, itemSizes]
      omega
  | object entries ih =>
    rw [value, Value.height, size, Nat.add_le_add_iff_right]
    induction entries with
    | nil => exact Nat.le_refl 0
    | cons e es ihs =>
      obtain ⟨k, j⟩ := e
      have hj : j.value.height ≤ j.size := ih (k, j) (by simp)
      have hes := ihs fun i hi => ih i (by simp [hi])
      rw [entryValues, Value.entryHeights, entrySizes]
      omega
  | _ => exact Nat.le_refl 1

/-! ## 4. Likeness of the decoded document -/

/-- A document without repeated keys, in which no number without a point stands under a key `line`;
    if it is strict, there is no such number at all. -/
structure IsExact (strict : Bool) (j : Json) : Prop where
  keys : ∀ part ∈ j.parts, part.keys.Nodup
  lines : ∀ part ∈ j.parts, ∀ l ∈ part.find? "line", ∀ q ∈ l.parts, q.isPointless = false
  numbers : strict = true → ∀ part ∈ j.parts, part.isPointless = false

theorem find?_of_mem {entries : List (Text × Json)} (hkeys : (entries.map Prod.fst).Nodup)
    {e : Text × Json} (he : e ∈ entries) : (object entries).find? e.1 = some e.2 := by
  rw [find?]
  induction entries with
  | nil => cases he
  | cons d entries ih =>
    rw [List.map_cons, List.nodup_cons] at hkeys
    rcases List.mem_cons.mp he with rfl | he
    · simp
    · have hne : d.1 ≠ e.1 := fun heq => hkeys.1 (heq ▸ List.mem_map_of_mem he)
      rw [List.find?_cons_of_neg (by simpa using hne)]
      exact ih hkeys.2 he

namespace IsExact

variable {strict : Bool}

theorem item {items : List Json} (h : (array items).IsExact strict) {j : Json} (hj : j ∈ items) :
    j.IsExact strict :=
  ⟨fun part hpart => h.keys part (mem_parts_array hj hpart),
    fun part hpart => h.lines part (mem_parts_array hj hpart),
    fun hstrict part hpart => h.numbers hstrict part (mem_parts_array hj hpart)⟩

theorem entry {entries : List (Text × Json)} (h : (object entries).IsExact strict)
    {e : Text × Json} (he : e ∈ entries) : e.2.IsExact (strict || Scalar.text e.1 == .text "line") := by
  refine ⟨fun part hpart => h.keys part (mem_parts_object he hpart),
    fun part hpart => h.lines part (mem_parts_object he hpart), fun hstrict part hpart => ?_⟩
  rcases Bool.or_eq_true_iff.mp hstrict with hstrict | hline
  · exact h.numbers hstrict part (mem_parts_object he hpart)
  · have hfind := find?_of_mem (h.keys _ (mem_parts_self _)) he
    rw [Scalar.text.inj (eq_of_beq hline)] at hfind
    exact h.lines _ (mem_parts_self _) e.2 hfind part hpart

end IsExact

end Json

theorem Level.Like.and_children {alike : Bool → Nat → Value → Prop} {met : Nat → Prop}
    {strict : Bool} {level : Level Nat} {v : Value} (h : level.Like alike strict v)
    (hmet : ∀ c ∈ Yaml.children level, met c) :
    level.Like (fun strict c w => met c ∧ alike strict c w) strict v := by
  cases h with
  | scalar hscalar => exact .scalar hscalar
  | list hparts => exact .list ((List.forall₂_and_left ..).mpr ⟨hmet, hparts⟩)
  | mapping hparts =>
    have hboth := (List.forall₂_and_left ..).mpr
      ⟨fun p hp => hmet p.2 (List.mem_map_of_mem hp), hparts⟩
    exact .mapping (hboth.imp fun p e hpe => ⟨hpe.2.1, hpe.1, hpe.2.2⟩)

namespace Json

open Yaml

section

variable {ns : Array Node} {i : Nat} {strict : Bool}

/-- What stands in the place of a value: a document with that value. -/
def StandsFor (ns : Array Node) (strict : Bool) (i : Nat) (v : Value) : Prop :=
  ∃ j : Json, v = j.value ∧ Stands ns i (j.nodes i) ∧ j.IsExact strict

theorem like_scalar {j : Json} (hj : j.IsExact strict) {s : Scalar} (hs : j.value = .scalar s) :
    j.scalar.Like strict s := by
  cases j with
  | null =>
    obtain rfl := Value.scalar.inj hs
    exact .same _
  | bool b =>
    obtain rfl := Value.scalar.inj hs
    exact .same _
  | int n fits =>
    obtain rfl := Value.scalar.inj hs
    exact .same _
  | string t =>
    obtain rfl := Value.scalar.inj hs
    exact .same _
  | float d =>
    obtain rfl := Value.scalar.inj hs
    by_cases hpoint : (floatChars d).contains '.' = true
    · have hscalar : (float d).scalar = .float d.toBinary64 := if_pos hpoint
      rw [hscalar]
      exact .same _
    · have hscalar : (float d).scalar = .text (Shortest.text d.toBinary64) := if_neg hpoint
      rw [hscalar]
      refine .number ?_ _
      by_contra hstrict
      have := hj.numbers (Bool.eq_true_of_not_eq_false hstrict) _ (mem_parts_self _)
      rw [isPointless, Bool.not_eq_false'] at this
      exact hpoint this
  | array items => cases hs
  | object entries => cases hs

theorem like_word {alike : Bool → Nat → Value → Prop} {j : Json} (hj : j.IsExact strict)
    (hword : j.isWord = true) {s : Scalar} (hs : j.value = .scalar s)
    (hnodes : j.nodes i = [.scalar (.ofSpelling j.write) j.text]) (h : Stands ns i (j.nodes i)) :
    (levelOf ns (Merge.nodeAt ns i)).Like alike strict j.value := by
  have hlevel : levelOf ns (.scalar (.ofSpelling j.write) j.text) = .scalar j.scalar := by
    rw [levelOf, scalarValue_write hword]
    rfl
  rw [hnodes] at h
  rw [nodeAt_of_getElem? h.head, hlevel, hs]
  exact .scalar (like_scalar hj hs)

/-- **A document looks like its value**, wherever its nodes stand. -/
theorem like_value {j : Json} (hj : j.IsExact strict) (h : Stands ns i (j.nodes i)) :
    (levelOf ns (Merge.nodeAt ns i)).Like (fun strict c w =>
      i < c ∧ w.height < j.value.height ∧ StandsFor ns strict c w) strict j.value := by
  cases j with
  | null => exact like_word hj rfl rfl rfl h
  | bool b => exact like_word hj rfl rfl rfl h
  | int n fits => exact like_word hj rfl rfl rfl h
  | float d => exact like_word hj rfl rfl rfl h
  | string t =>
    rw [nodes] at h
    rw [nodeAt_of_getElem? h.head]
    exact .scalar (.same (.text t))
  | array items =>
    rw [nodes] at h
    rw [nodeAt_of_getElem? h.head, levelOf, value, values_eq_map]
    refine .list (List.forall₂_map_right_iff.mpr ((forall₂_items h.tail).imp fun c j hcj => ?_))
    obtain ⟨hmem, hlt, hstands⟩ := hcj
    have hheight := height_lt_array hmem
    rw [value, values_eq_map] at hheight
    exact ⟨hlt, hheight, j, rfl, hstands, hj.item hmem⟩
  | object entries =>
    rw [nodes] at h
    rw [nodeAt_of_getElem? h.head, levelOf, value, entryValues_eq_map]
    refine .mapping (List.forall₂_map_left_iff.mpr (List.forall₂_map_right_iff.mpr
      ((forall₂_entries h.tail).imp fun p e hpe => ?_)))
    obtain ⟨hmem, hkey, hlt, hstands⟩ := hpe
    have hheight := height_lt_object hmem
    rw [value, entryValues_eq_map] at hheight
    rw [keyText, hkey]
    exact ⟨rfl, by omega, hheight, e.2, rfl, hstands, hj.entry hmem⟩

/-- The parts of a graph that shows the nodes of a document look like the parts of its value. -/
def likeness {g : Graph} {met : Nat → Prop}
    (hlevels : ∀ i, met i → g.level i = levelOf ns (Merge.nodeAt ns i) ∧
      ∀ c ∈ children (levelOf ns (Merge.nodeAt ns i)), met c)
    {root : Json} (hroot : root.size ≤ g.parts.size) : Likeness g.view root.value.view where
  Alike strict i v := met i ∧ StandsFor ns strict i v ∧ v.height ≤ root.value.height
  level := by
    rintro strict i v ⟨hmet, ⟨j, rfl, hstands, hj⟩, hheight⟩
    obtain ⟨hlevel, hchildren⟩ := hlevels i hmet
    show (g.level i).Like _ _ _
    rw [hlevel]
    refine ((like_value hj hstands).and_children hchildren).imp fun strict c w hcw => ?_
    obtain ⟨hmet, hlt, hlower, hstandsFor⟩ := hcw
    exact ⟨hlt, hlower, hmet, hstandsFor, by omega⟩
  reach := by
    rintro strict i v ⟨-, -, hheight⟩
    have hsize := height_value_le_size root
    exact ⟨show v.height ≤ g.parts.size by omega, hheight⟩
  graph_same := by
    intro i c hlt
    exact beq_eq_false_iff_ne.mpr (Nat.ne_of_gt hlt)
  tree_level := rfl
  tree_same _ _ := rfl

end

/-! ## 5. Trees -/

/-- A part of a document that can be read: no key is repeated or too long, and no number without a
    point stands under a key `line`. -/
structure IsReadable (part : Json) : Prop where
  distinct : part.keys.Nodup
  short : ∀ k ∈ part.keys, (literal k).length ≤ maxKeyLength
  pointed : ∀ l ∈ part.find? "line", ∀ q ∈ l.parts, q.isPointless = false

instance (part : Json) : Decidable part.IsReadable :=
  decidable_of_iff (part.keys.Nodup ∧ (∀ k ∈ part.keys, (literal k).length ≤ maxKeyLength) ∧
      ∀ l ∈ part.find? "line", ∀ q ∈ l.parts, q.isPointless = false)
    ⟨fun h => ⟨h.1, h.2.1, h.2.2⟩, fun h => ⟨h.distinct, h.short, h.pointed⟩⟩

section

variable {j : Json} (hbasic : ∀ part ∈ j.parts, part.IsBasic)
  (hreadable : ∀ part ∈ j.parts, part.IsReadable)

include hbasic hreadable

/-- **The text of a document is decoded to a graph that looks like its value.** -/
theorem exists_load :
    ∃ g : Graph, Document.read j.text = .ok g ∧
      ∃ L : Likeness g.view j.value.view, L.Alike false g.root j.value := by
  have hkeys : ∀ part ∈ j.parts, part.keys.Nodup := fun part hpart => (hreadable part hpart).distinct
  have hstands := Stands.toArray (j.nodes 0)
  have hseen : ∀ i < (j.nodes 0).toArray.size, Seen (j.nodes 0).toArray
      (Merge.nodeAt (j.nodes 0).toArray i)
      (levelOf (j.nodes 0).toArray (Merge.nodeAt (j.nodes 0).toArray i)) := by
    intro i hi
    refine seen_nodes j hkeys hstands _ ?_
    rw [nodeAt_of_getElem? (Array.getElem?_eq_getElem hi)]
    exact List.getElem_mem _
  obtain ⟨g, met, hdecode, hroot, hsize, hmet, hlevels⟩ :=
    decode_ordinary hseen (lt_size_of_stands hstands)
  have hload : Yaml.load j.text = .ok g := by
    have hlexemes := ofStream_write fun part hpart =>
      IsLegible.mk (hbasic part hpart) (hreadable part hpart).short
    rw [ofChars_write] at hlexemes
    rw [Yaml.load, text, Text.chars?_ofChars]
    show loadStream (.ofChars j.write) = _
    rw [ofChars_write, loadStream, hlexemes, ofLexemes_lexemes, if_neg (by simp)]
    exact hdecode
  have hnodes : j.size ≤ g.parts.size := by
    rw [hsize, List.size_toArray, length_nodes]
  refine ⟨g, by rw [Document.read, hload], likeness hlevels hnodes, ?_⟩
  rw [hroot]
  exact ⟨hmet, ⟨j, rfl, hstands, hkeys, fun part hpart => (hreadable part hpart).pointed,
    fun hstrict => absurd hstrict Bool.false_ne_true⟩, Nat.le_refl _⟩

omit hbasic hreadable in
theorem eq_null_of_like {alike : Bool → Nat → Value → Prop} {strict : Bool}
    (h : (Level.scalar .null).Like alike strict j.value) : j = .null := by
  generalize hvalue : j.value = v at h
  cases h with
  | scalar hscalar =>
    cases hscalar with
    | same =>
      cases j with
      | null => rfl
      | _ => cases hvalue

/-- The tree of the text of a document without supplementary characters. -/
theorem parse_of_isBasic (hnull : j ≠ .null) {s : Settings} {marker : Text}
    (hmarker : s.negationMarker = .ofText marker) :
    Document.parse s j.text = Document.build s.negationMarker unknownLine j.value := by
  obtain ⟨g, hread, L, halike⟩ := exists_load hbasic hreadable
  have htree := L.tree_eq halike marker unknownLine
  rw [← hmarker] at htree
  unfold Document.parse
  rw [hread, ok_bind]
  split
  · rename_i hempty
    have hlevel := L.level halike
    rw [show g.view.level g.root = _ from hempty] at hlevel
    exact absurd (eq_null_of_like hlevel) hnull
  · exact htree

end

/-- **JSON documents mean what they say, but for supplementary characters.** The tree of the text of a
    document, or the refusal of it, is that of the value of the document with every supplementary
    character in two halves; so it is that of its value, if there are no such characters. -/
theorem parse_text {s : Settings} {marker : Text} (hmarker : s.negationMarker = .ofText marker)
    {j : Json} (hnull : j ≠ .null) (hj : ∀ part ∈ j.halved.parts, part.IsReadable) :
    Document.parse s j.text = Document.build s.negationMarker unknownLine j.halved.value ∧
      ((∀ part ∈ j.parts, part.IsBasic) →
        Document.parse s j.text = Document.build s.negationMarker unknownLine j.value) := by
  have hhalved : j.halved ≠ .null := by
    cases j with
    | null => exact absurd rfl hnull
    | _ => nofun
  have hparse := parse_of_isBasic (isBasic_halved j) hj hhalved hmarker
  rw [text, write_halved] at hparse
  refine ⟨hparse, fun hbasic => ?_⟩
  rw [halved_of_isBasic hbasic] at hparse
  exact hparse

/-- A loop with a negated test, a number without a point in it, and a line of its own. -/
theorem parse_text_loop : ∃ j : Json,
    j.text = Text.ofString ("\x7b\"while\": [\"not\", [\"poll\", 1e+16]], "
      ++ "\"do\": \x7b\"command\": [\"\\u00e9\\n\\\"\"], \"line\": 3\x7d\x7d") ∧
    j ≠ .null ∧ (∀ part ∈ j.halved.parts, part.IsReadable) ∧ (∀ part ∈ j.parts, part.IsBasic) ∧
    Document.parse {} j.text = .ok (.whileLoop
      (.condition true [.command (-1) (.string "poll") [.string "1e+16"]])
      (.command 3 (.string "é\n\"") [])) := by
  let j : Json := .object [
    ("while", .array [.string "not", .array [.string "poll",
      .float ⟨false, 5000000000000000, 1, by decide, by decide, by decide, by decide⟩]]),
    ("do", .object [("command", .array [.string "é\n\""]), ("line", .int 3 (by decide +kernel))])]
  have hobject (entries : List (Text × Json)) : Json.object entries ≠ .null := nofun
  have hreadable : ∀ part ∈ j.halved.parts, part.IsReadable := by decide +kernel
  have hbasic : ∀ part ∈ j.parts, part.IsBasic := by decide +kernel
  have hparse := (parse_text (s := {}) rfl (hobject _) hreadable).2 hbasic
  have hvalue : j.value = .mapping [
    (.text "while", .list [.ofText "not", .list [.ofText "poll",
      .scalar (.float (.finite false 5000000000000000 1))]]),
    (.text "do", .mapping [(.text "command", .list [.ofText "é\n\""]),
      (.text "line", .scalar (.int 3))])] := rfl
  rw [hvalue] at hparse
  exact ⟨j, by decide +kernel, hobject _, hreadable, hbasic, hparse⟩

/-- A supplementary character is read as two surrogates, which are another text. -/
theorem parse_supplementary :
    (Json.string "😀").text = Text.ofString "\"\\ud83d\\ude00\"" ∧
      Document.parse {} (Json.string "😀").text = .ok (.string [.surrogate 0x3d, .surrogate 0x600]) ∧
      Document.parse {} (Json.string "😀").text
        ≠ Document.build (.ofText "not") unknownLine (Json.string "😀").value := by
  have hreadable : ∀ part ∈ (Json.string "😀").halved.parts, part.IsReadable := by decide
  have hparse := parse_of_isBasic (s := {}) (isBasic_halved _) hreadable nofun rfl
  rw [text, write_halved] at hparse
  refine ⟨by decide +kernel, hparse, fun heq => ?_⟩
  have hbuild : Document.build (.ofText "not") unknownLine (Json.string "😀").value
      = .ok (.string "😀") := rfl
  have hstring := Except.ok.inj ((hparse.symm.trans heq).trans hbuild)
  exact absurd (Expr.string.inj hstring) (by decide)

end Json

end TemplateTree
