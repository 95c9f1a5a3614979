import TemplateTree.Proofs.Json.Lexemes
import TemplateTree.Yaml.Node

/-!
# Nodes of JSON documents

The nodes of a document are numbered from front to back: an array or an object has its number before
everything that stands in it, and a key has its number before what stands under it (`Json.nodes`). The
lexemes of a document are put together to these nodes (`Json.isParsed`).
-/

namespace TemplateTree

/-! ## 1. Steps of the parser -/

namespace Yaml

/-- A step gives a result and a new state. -/
def Runs {σ ε α : Type} (m : StateT σ (Except ε) α) (s : σ) (a : α) (s' : σ) : Prop :=
  m.run s = .ok (a, s')

theorem Runs.bind {σ ε α β : Type} {m : StateT σ (Except ε) α} {f : α → StateT σ (Except ε) β}
    {s s' s'' : σ} {a : α} {b : β} (h : Runs m s a s') (h' : Runs (f a) s' b s'') :
    Runs (m >>= f) s b s'' := by
  unfold Runs at *
  rw [StateT.run_bind, h]
  exact h'

namespace Node

section

variable {steps : Nat} {c : Context} (place : Place) {ls ls' : List Lexeme} {ns ns' : Array Node}
  {anchors : List (List Char × Nat)}

theorem runs_scalar (isPlain : Bool) (t : Text) :
    Runs (parse (steps + 1) c place) ⟨.scalar isPlain t :: ls, ns, anchors⟩ ns.size
      ⟨ls, ns.push (.scalar (scalarTag none isPlain t) t), anchors⟩ := rfl

/-- A collection has its number before its parts have theirs. -/
theorem runs_collection {α : Type} {m : Parse α} {f : α → Node} {a : α} {s : State}
    (h : Runs m s a ⟨ls', ns', anchors⟩) (i : Nat) :
    Runs (do
        let n ← (do return f (← m))
        modify fun s => { s with nodes := s.nodes.setIfInBounds i n }
        return i)
      s i ⟨ls', ns'.setIfInBounds i (f a), anchors⟩ :=
  Runs.bind (Runs.bind h rfl) rfl

theorem runs_advance {α : Type} {m : Parse α} {a : α} {s : State} {l : Lexeme}
    (h : Runs m ⟨ls, ns, anchors⟩ a s) : Runs (do advance; m) ⟨l :: ls, ns, anchors⟩ a s :=
  Runs.bind (rfl : Runs advance ⟨l :: ls, ns, anchors⟩ () ⟨ls, ns, anchors⟩) h

/-- A bracket that opens a sequence: the node has its number before its items have theirs. -/
theorem runs_sequence {items : List Nat}
    (h : Runs (flowItems steps c true) ⟨ls, ns.push empty, anchors⟩ items ⟨ls', ns', anchors⟩) :
    Runs (parse (steps + 1) c place) ⟨.flowSequenceStart :: ls, ns, anchors⟩ ns.size
      ⟨ls', ns'.setIfInBounds ns.size (.sequence .sequence items), anchors⟩ :=
  runs_collection (runs_advance h) ns.size

/-- A bracket that opens a mapping. -/
theorem runs_mapping {entries : List (Nat × Nat)}
    (h : Runs (flowEntries steps c true) ⟨ls, ns.push empty, anchors⟩ entries ⟨ls', ns', anchors⟩) :
    Runs (parse (steps + 1) c place) ⟨.flowMappingStart :: ls, ns, anchors⟩ ns.size
      ⟨ls', ns'.setIfInBounds ns.size (.mapping .mapping entries), anchors⟩ :=
  runs_collection (runs_advance h) ns.size

/-- The lexemes with which a document starts. -/
inductive IsStart : Lexeme → Prop
  | scalar (isPlain : Bool) (t : Text) : IsStart (.scalar isPlain t)
  | sequence : IsStart .flowSequenceStart
  | mapping : IsStart .flowMappingStart

/-- The only document of a text. -/
theorem runs_document {l : Lexeme} (hl : IsStart l) {i : Nat}
    (h : Runs (parse (steps + 1) c .block) ⟨l :: ls, ns, anchors⟩ i ⟨[.streamEnd], ns', anchors⟩) :
    Runs (document (steps + 1) c) ⟨l :: ls, ns, anchors⟩ (some i) ⟨[.streamEnd], ns', anchors⟩ := by
  have hend : Runs (do
      let root ← parse (steps + 1) c .block
      skipDocumentEnds c (steps + 1)
      if (← peek c) = .streamEnd then
        return some root
      let _ ← directives c (steps + 1) false []
      let _ ← peek c
      throw .malformed) ⟨l :: ls, ns, anchors⟩ (some i) ⟨[.streamEnd], ns', anchors⟩ := h.bind rfl
  cases hl with
  | scalar isPlain t => exact hend
  | sequence => exact hend
  | mapping => exact hend

theorem runs_lastItem (isFirst : Bool) :
    Runs (flowItems (steps + 1) c isFirst) ⟨.flowSequenceEnd :: ls, ns, anchors⟩ []
      ⟨ls, ns, anchors⟩ := rfl

theorem runs_lastEntry (isFirst : Bool) :
    Runs (flowEntries (steps + 1) c isFirst) ⟨.flowMappingEnd :: ls, ns, anchors⟩ []
      ⟨ls, ns, anchors⟩ := rfl

section

variable {l : Lexeme} (hl : IsStart l) {i : Nat} {s : State}

include hl

/-- An item of a sequence and the items behind it. -/
theorem runs_item (isFirst : Bool) {items : List Nat}
    (h : Runs (parse steps c .flow) ⟨l :: ls, ns, anchors⟩ i ⟨ls', ns', anchors⟩)
    (h' : Runs (flowItems steps c false) ⟨ls', ns', anchors⟩ items s) :
    Runs (flowItems (steps + 1) c isFirst)
      ⟨(if isFirst then [] else [.flowEntry]) ++ l :: ls, ns, anchors⟩ (i :: items) s := by
  have hrest : Runs (do
      let item ← parse steps c .flow
      return item :: (← flowItems steps c false)) ⟨l :: ls, ns, anchors⟩ (i :: items) s :=
    h.bind (h'.bind rfl)
  cases hl with
  | scalar isPlain t => cases isFirst <;> exact hrest
  | sequence => cases isFirst <;> exact hrest
  | mapping => cases isFirst <;> exact hrest

/-- A key, what stands under it, and the entries behind it. -/
theorem runs_entry (isFirst : Bool) {key : Text} {entries : List (Nat × Nat)}
    (h : Runs (parse (steps + 1) c .flow) ⟨l :: ls, ns.push (.scalar .text key), anchors⟩ i
      ⟨ls', ns', anchors⟩)
    (h' : Runs (flowEntries (steps + 2) c false) ⟨ls', ns', anchors⟩ entries s) :
    Runs (flowEntries (steps + 3) c isFirst)
      ⟨(if isFirst then [] else [.flowEntry]) ++ [.key, .scalar false key, .value] ++ l :: ls, ns,
        anchors⟩ ((ns.size, i) :: entries) s := by
  have hentry : Runs (flowEntry (steps + 2) c .flowMappingEnd)
      ⟨.key :: .scalar false key :: .value :: l :: ls, ns, anchors⟩ (ns.size, i)
      ⟨ls', ns', anchors⟩ := by
    have hvalue : Runs (do return (ns.size, ← parse (steps + 1) c .flow))
        ⟨l :: ls, ns.push (.scalar .text key), anchors⟩ (ns.size, i) ⟨ls', ns', anchors⟩ :=
      h.bind rfl
    cases hl with
    | scalar isPlain t => exact hvalue
    | sequence => exact hvalue
    | mapping => exact hvalue
  have hrest : Runs (do
      let entry ← flowEntry (steps + 2) c .flowMappingEnd
      return entry :: (← flowEntries (steps + 2) c false))
      ⟨.key :: .scalar false key :: .value :: l :: ls, ns, anchors⟩ ((ns.size, i) :: entries) s :=
    hentry.bind (h'.bind rfl)
  cases isFirst <;> exact hrest

end

end

end Node

end Yaml

/-! ## 2. Nodes -/

namespace Json

open Yaml

mutual

/-- The number of nodes of a document. -/
def size : Json → Nat
  | array items => itemSizes items + 1
  | object entries => entrySizes entries + 1
  | _ => 1

/-- The number of nodes of some documents. -/
def itemSizes : List Json → Nat
  | [] => 0
  | j :: js => size j + itemSizes js

/-- The number of nodes of some entries. -/
def entrySizes : List (Text × Json) → Nat
  | [] => 0
  | (_, j) :: es => size j + 1 + entrySizes es

end

/-- The numbers of the items of an array. -/
def itemNumbers (start : Nat) : List Json → List Nat
  | [] => []
  | j :: js => start :: itemNumbers (start + j.size) js

/-- The numbers of the keys of an object and of what stands under them. -/
def entryNumbers (start : Nat) : List (Text × Json) → List (Nat × Nat)
  | [] => []
  | (_, j) :: es => (start, start + 1) :: entryNumbers (start + (j.size + 1)) es

mutual

/-- The nodes of a document, of which the first one has a given number. -/
def nodes (start : Nat) : Json → List Node
  | string t => [.scalar .text t]
  | array items => .sequence .sequence (itemNumbers (start + 1) items) :: itemNodes (start + 1) items
  | object entries =>
    .mapping .mapping (entryNumbers (start + 1) entries) :: entryNodes (start + 1) entries
  | j => [.scalar (.ofSpelling j.write) j.text]

/-- The nodes of the items of an array. -/
def itemNodes (start : Nat) : List Json → List Node
  | [] => []
  | j :: js => nodes start j ++ itemNodes (start + j.size) js

/-- The nodes of the entries of an object. -/
def entryNodes (start : Nat) : List (Text × Json) → List Node
  | [] => []
  | (k, j) :: es => .scalar .text k :: nodes (start + 1) j ++ entryNodes (start + (j.size + 1)) es

end

theorem length_itemNodes {items : List Json} (h : ∀ j ∈ items, ∀ start, (nodes start j).length = j.size)
    (start : Nat) : (itemNodes start items).length = itemSizes items := by
  induction items generalizing start with
  | nil => rfl
  | cons j js ih =>
    rw [itemNodes, itemSizes, List.length_append, h j (by simp), ih fun i hi => h i (by simp [hi])]

theorem length_entryNodes {entries : List (Text × Json)}
    (h : ∀ e ∈ entries, ∀ start, (nodes start e.2).length = e.2.size) (start : Nat) :
    (entryNodes start entries).length = entrySizes entries := by
  induction entries generalizing start with
  | nil => rfl
  | cons e es ih =>
    obtain ⟨k, j⟩ := e
    rw [entryNodes, entrySizes, List.length_append, List.length_cons, h (k, j) (by simp),
      ih fun i hi => h i (by simp [hi])]

theorem length_nodes (j : Json) (start : Nat) : (nodes start j).length = j.size := by
  induction j generalizing start with
  | null => rfl
  | bool b => rfl
  | int n fits => rfl
  | float d => rfl
  | string t => rfl
  | array items ih => rw [nodes, size, List.length_cons, length_itemNodes ih]
  | object entries ih => rw [nodes, size, List.length_cons, length_entryNodes ih]

/-! ## 3. Parsing -/

/-- A node that takes its place in front of others. -/
theorem setIfInBounds_push (ns : Array Node) (n n' : Node) (more : List Node) :
    (ns.push n ++ more.toArray).setIfInBounds ns.size n' = ns ++ (n' :: more).toArray := by
  apply Array.ext'
  simp

theorem append_append_toArray (ns : Array Node) (more most : List Node) :
    ns ++ more.toArray ++ most.toArray = ns ++ (more ++ most).toArray := by
  apply Array.ext'
  simp

/-- What the parser does with the lexemes of a document, wherever they stand. -/
def IsParsed (j : Json) : Prop :=
  ∀ {fuel : Nat} {c : Node.Context} {place : Node.Place} {ls : List Lexeme} {ns : Array Node}
    {anchors : List (List Char × Nat)}, j.lexemes.length ≤ fuel →
    Runs (Node.parse fuel c place) ⟨j.lexemes ++ ls, ns, anchors⟩ ns.size
      ⟨ls, ns ++ (nodes ns.size j).toArray, anchors⟩

theorem exists_start (j : Json) : ∃ l ls, j.lexemes = l :: ls ∧ Node.IsStart l := by
  cases j with
  | null => exact ⟨_, _, rfl, .scalar _ _⟩
  | bool b => exact ⟨_, _, rfl, .scalar _ _⟩
  | int n fits => exact ⟨_, _, rfl, .scalar _ _⟩
  | float d => exact ⟨_, _, rfl, .scalar _ _⟩
  | string t => exact ⟨_, _, rfl, .scalar _ _⟩
  | array items => exact ⟨_, _, rfl, .sequence⟩
  | object entries => exact ⟨_, _, rfl, .mapping⟩

theorem isParsed_scalar {j : Json} {isPlain : Bool} {t : Text}
    (hlexemes : j.lexemes = [.scalar isPlain t])
    (hnodes : ∀ start, j.nodes start = [.scalar (Node.scalarTag none isPlain t) t]) : j.IsParsed := by
  intro fuel c place ls ns anchors hfuel
  obtain ⟨fuel, rfl⟩ : ∃ k, fuel = k + 1 := by
    rw [hlexemes, List.length_singleton] at hfuel
    exact ⟨fuel - 1, by omega⟩
  rw [hlexemes, hnodes]
  exact Node.runs_scalar place isPlain t

theorem spelled_text (j : Json) : Node.spelled j.text = .ofSpelling j.write := by
  rw [Node.spelled, text, Text.chars?_ofChars]

/-- The items of an array are parsed one after the other. -/
theorem runs_items {items : List Json} (h : ∀ j ∈ items, j.IsParsed) {isFirst : Bool} {fuel : Nat}
    {c : Node.Context} {ls : List Lexeme} {ns : Array Node} {anchors : List (List Char × Nat)}
    (hfuel : (itemLexemes isFirst items).length < fuel) :
    Runs (Node.flowItems fuel c isFirst)
      ⟨itemLexemes isFirst items ++ .flowSequenceEnd :: ls, ns, anchors⟩ (itemNumbers ns.size items)
      ⟨ls, ns ++ (itemNodes ns.size items).toArray, anchors⟩ := by
  induction items generalizing isFirst fuel ns with
  | nil =>
    obtain ⟨fuel, rfl⟩ : ∃ k, fuel = k + 1 := ⟨fuel - 1, by omega⟩
    rw [itemNodes, Array.append_empty]
    exact Node.runs_lastItem isFirst
  | cons j js ih =>
    obtain ⟨fuel, rfl⟩ : ∃ k, fuel = k + 1 := ⟨fuel - 1, by omega⟩
    obtain ⟨l, more, hlexemes, hl⟩ := exists_start j
    have hpos : 0 < j.lexemes.length := by rw [hlexemes]; simp
    rw [itemLexemes, List.length_append, List.length_append] at hfuel
    have hitem : Runs (Node.parse fuel c .flow)
        ⟨j.lexemes ++ (itemLexemes false js ++ .flowSequenceEnd :: ls), ns, anchors⟩ ns.size
        ⟨_, ns ++ (nodes ns.size j).toArray, anchors⟩ := h j (by simp) (by omega)
    have hsize : (ns ++ (nodes ns.size j).toArray).size = ns.size + j.size := by
      simp [length_nodes]
    have hrest : Runs (Node.flowItems fuel c false)
        ⟨itemLexemes false js ++ .flowSequenceEnd :: ls, ns ++ (nodes ns.size j).toArray, anchors⟩
        _ _ :=
      ih (fun i hi => h i (by simp [hi])) (by omega)
    rw [hsize, append_append_toArray] at hrest
    rw [hlexemes, List.cons_append] at hitem
    have hboth := Node.runs_item hl isFirst hitem hrest
    rw [itemLexemes, hlexemes, List.append_assoc, List.append_assoc]
    exact hboth

/-- The entries of an object are parsed one after the other. -/
theorem runs_entries {entries : List (Text × Json)} (h : ∀ e ∈ entries, e.2.IsParsed)
    {isFirst : Bool} {fuel : Nat} {c : Node.Context} {ls : List Lexeme} {ns : Array Node}
    {anchors : List (List Char × Nat)} (hfuel : (entryLexemes isFirst entries).length < fuel) :
    Runs (Node.flowEntries fuel c isFirst)
      ⟨entryLexemes isFirst entries ++ .flowMappingEnd :: ls, ns, anchors⟩
      (entryNumbers ns.size entries) ⟨ls, ns ++ (entryNodes ns.size entries).toArray, anchors⟩ := by
  induction entries generalizing isFirst fuel ns with
  | nil =>
    obtain ⟨fuel, rfl⟩ : ∃ k, fuel = k + 1 := ⟨fuel - 1, by omega⟩
    rw [entryNodes, Array.append_empty]
    exact Node.runs_lastEntry isFirst
  | cons e es ih =>
    obtain ⟨k, j⟩ := e
    obtain ⟨l, more, hlexemes, hl⟩ := exists_start j
    have hpos : 0 < j.lexemes.length := by rw [hlexemes]; simp
    rw [entryLexemes, List.length_append, List.length_append, List.length_append] at hfuel
    have hthree : [Lexeme.key, .scalar false k, .value].length = 3 := rfl
    obtain ⟨fuel, rfl⟩ : ∃ k, fuel = k + 3 := ⟨fuel - 3, by omega⟩
    have hvalue : Runs (Node.parse (fuel + 1) c .flow)
        ⟨j.lexemes ++ (entryLexemes false es ++ .flowMappingEnd :: ls), ns.push (.scalar .text k),
          anchors⟩ (ns.size + 1)
        ⟨entryLexemes false es ++ .flowMappingEnd :: ls,
          ns.push (.scalar .text k) ++ (nodes (ns.size + 1) j).toArray, anchors⟩ := by
      rw [← Array.size_push (.scalar .text k)]
      exact h (k, j) (by simp) (show j.lexemes.length ≤ fuel + 1 by omega)
    have hnodes : ns.push (.scalar .text k) ++ (nodes (ns.size + 1) j).toArray
        = ns ++ (.scalar .text k :: nodes (ns.size + 1) j).toArray := by
      apply Array.ext'
      simp
    have hsize : (ns ++ (Node.scalar .text k :: nodes (ns.size + 1) j).toArray).size
        = ns.size + (j.size + 1) := by
      simp [length_nodes]
    rw [hnodes] at hvalue
    have hrest : Runs (Node.flowEntries (fuel + 2) c false)
        ⟨entryLexemes false es ++ .flowMappingEnd :: ls,
          ns ++ (.scalar .text k :: nodes (ns.size + 1) j).toArray, anchors⟩ _ _ :=
      ih (fun i hi => h i (by simp [hi])) (by omega)
    rw [hsize, append_append_toArray] at hrest
    rw [hlexemes, List.cons_append] at hvalue
    have hboth := Node.runs_entry hl isFirst hvalue hrest
    rw [entryLexemes, hlexemes, List.append_assoc, List.append_assoc]
    exact hboth

/-- **The lexemes of a document are put together to its nodes**, wherever they stand. -/
theorem isParsed (j : Json) : j.IsParsed := by
  have hword {j : Json} (hlexemes : j.lexemes = [.scalar true j.text])
      (hnodes : ∀ start, j.nodes start = [.scalar (.ofSpelling j.write) j.text]) : j.IsParsed :=
    isParsed_scalar hlexemes fun start => by rw [hnodes, ← spelled_text]; rfl
  induction j with
  | null => exact hword rfl fun _ => rfl
  | bool b => exact hword rfl fun _ => rfl
  | int n fits => exact hword rfl fun _ => rfl
  | float d => exact hword rfl fun _ => rfl
  | string t => exact isParsed_scalar rfl fun _ => rfl
  | array items ih =>
    intro fuel c place ls ns anchors hfuel
    rw [lexemes, List.length_append, List.length_cons] at hfuel
    obtain ⟨fuel, rfl⟩ : ∃ k, fuel = k + 1 := ⟨fuel - 1, by omega⟩
    have hitems : Runs (Node.flowItems fuel c true)
        ⟨itemLexemes true items ++ .flowSequenceEnd :: ls, ns.push .empty, anchors⟩ _ _ :=
      runs_items ih (by simp at hfuel; omega)
    have hnode := Node.runs_sequence place hitems
    rw [Array.size_push, setIfInBounds_push] at hnode
    rw [lexemes, List.cons_append, List.cons_append, List.append_assoc]
    exact hnode
  | object entries ih =>
    intro fuel c place ls ns anchors hfuel
    rw [lexemes, List.length_append, List.length_cons] at hfuel
    obtain ⟨fuel, rfl⟩ : ∃ k, fuel = k + 1 := ⟨fuel - 1, by omega⟩
    have hentries : Runs (Node.flowEntries fuel c true)
        ⟨entryLexemes true entries ++ .flowMappingEnd :: ls, ns.push .empty, anchors⟩ _ _ :=
      runs_entries ih (by simp at hfuel; omega)
    have hnode := Node.runs_mapping place hentries
    rw [Array.size_push, setIfInBounds_push] at hnode
    rw [lexemes, List.cons_append, List.cons_append, List.append_assoc]
    exact hnode

/-- **The nodes of the text of a document.** -/
theorem ofLexemes_lexemes (j : Json) :
    Nodes.ofLexemes ⟨j.lexemes ++ [.streamEnd], none⟩ = .ok (some ⟨(j.nodes 0).toArray, 0⟩) := by
  let c : Node.Context := { handles := Node.defaultHandles, ending := .malformed }
  have hparse : Runs (Node.parse (4 * (j.lexemes ++ [Lexeme.streamEnd]).length + 4) c .block)
      ⟨j.lexemes ++ [.streamEnd], #[], []⟩ 0 ⟨[.streamEnd], #[] ++ (j.nodes 0).toArray, []⟩ :=
    isParsed j (by simp; omega)
  obtain ⟨l, ls, hlexemes, hl⟩ := exists_start j
  rw [Array.empty_append] at hparse
  have hdocument : Runs (Node.document (4 * (j.lexemes ++ [Lexeme.streamEnd]).length + 4) c)
      ⟨j.lexemes ++ [.streamEnd], #[], []⟩ (some 0) ⟨[.streamEnd], (j.nodes 0).toArray, []⟩ := by
    rw [hlexemes] at hparse ⊢
    exact Node.runs_document hl hparse
  let finish (p : Option Nat × Node.State) : Except Fault (Option Nodes) :=
    .ok (p.1.map fun i => ⟨p.2.nodes, i⟩)
  exact congrArg (· >>= finish) hdocument

end Json

end TemplateTree
