import TemplateTree.Proofs.Value.Parts

/-!
# The places of a document

Every value of a document stands at a `Place` that says what it must be: a node, a token, the items of a
command, a test, and so on. The tables below say what may stand at a place and what stands at which
place inside it. From them come the `visits` of a document: all its places in the order in which they
are looked at, each with the mappings around it. The innermost of these that tells a line sets the line
in force (`lineInForce`).
-/

namespace TemplateTree.Document

/-! ## 1. Places -/

/-- What a value of a document is taken for. -/
inductive Place where
  /-- A node; where it is optional, null stands for none. -/
  | node (optional : Bool)
  /-- A token of a command or a test, which may be a command again; taken as it is in a tuple. -/
  | token (raw : Bool)
  /-- The tokens of a command. -/
  | command
  /-- The tokens of a test; null stands for none. -/
  | test
  /-- The nodes of a block. -/
  | block
  /-- The clauses of a choice. -/
  | choice
  /-- A clause of a choice. -/
  | clause
deriving DecidableEq, Repr

/-- Whether a scalar is a text, or a number where numbers are not taken as they are. -/
def isLiteral (raw : Bool) : Scalar → Bool
  | .text _ => true
  | .int _ => !raw
  | .float _ => !raw
  | _ => false

namespace Place

/-- The scalars that may stand at a place. -/
def admits : Place → Scalar → Bool
  | node optional, s => isLiteral false s || (optional && s == .null)
  | token raw, s => isLiteral raw s
  | test, s => s == .null
  | _, _ => false

/-- What the items of a list at a place are, where a list may stand. -/
def items? : Place → Option Place
  | node _ => some (token false)
  | token raw => some (token raw)
  | command => some (token false)
  | test => some (token false)
  | block => some (node false)
  | choice => some clause
  | clause => none

/-- What the members of a tuple at a place are, where a tuple may stand. -/
def members? : Place → Option Place
  | token _ => some (token true)
  | _ => none

/-- Why an empty list or tuple is refused at a place, where it is. -/
def whenEmpty : Place → Option Cause
  | node _ => some .emptyCommand
  | token _ => some .emptyCommand
  | command => some .emptyCommand
  | block => some .emptyBlock
  | _ => none

/-- Why what is no list is refused at a place that is for lists. -/
def notList? : Place → Option Cause
  | command => some .commandNotList
  | test => some .conditionNotList
  | block => some .blockNotList
  | choice => some .ifNotList
  | _ => none

/-- Why a value of a type is refused that may not stand at a place. -/
def refusal (place : Place) (type : Text) : Cause :=
  match place with
  | node _ => .notNode type
  | token _ => .notToken type
  | clause => .clauseNotMapping
  | command => .commandNotList
  | test => .conditionNotList
  | block => .blockNotList
  | choice => .ifNotList

end Place

/-- What stands under the keys of a mapping of a kind, in the order in which it is looked at. -/
def kindParts : NodeKind → List (Text × Place)
  | .command => [("command", .command)]
  | .block => [("block", .block)]
  | .choice => [("if", .choice)]
  | .forEach => [("for", .node false), ("do", .node false), ("as", .node true), ("index", .node true)]
  | .whileLoop => [("while", .test), ("do", .node false)]

/-- Why a mapping of a kind is refused that has no `do`, where it needs one. -/
def withoutBody? : NodeKind → Option Cause
  | .forEach => some .forWithoutBody
  | .whileLoop => some .whileWithoutBody
  | _ => none

/-- What stands under the keys of a clause. -/
def clauseParts : List (Text × Place) := [("when", .test), ("then", .node false)]

/-- What stands under the keys of a mapping at a place. -/
def Place.parts {α : Type} (entries : Entries α) : Place → List (Text × Place)
  | node _ =>
    match entries.kinds with
    | [kind] => kindParts kind
    | _ => []
  | clause => clauseParts
  | _ => []

/-- A mapping names one kind exactly if it has the key of that kind and of no other. -/
theorem kinds_eq_singleton_iff {α : Type} {entries : Entries α} {kind : NodeKind} :
    entries.kinds = [kind] ↔ ∀ k : NodeKind, entries.has k.key = true ↔ k = kind := by
  have hmem (k : NodeKind) : k ∈ entries.kinds ↔ entries.has k.key = true := by
    have hall : k ∈ NodeKind.all := by cases k <;> decide
    rw [Entries.kinds, List.mem_filter, and_iff_right hall]
  refine ⟨fun h k => by rw [← hmem, h, List.mem_singleton], fun h => ?_⟩
  have hhas : (fun k : NodeKind => entries.has k.key) = fun k => decide (k = kind) := by
    funext k
    rw [Bool.eq_iff_iff, h k, decide_eq_true_iff]
  rw [Entries.kinds, hhas]
  cases kind <;> decide

/-! ## 2. Lines in force -/

/-- The line that a mapping tells. -/
def ownLine (entries : Entries Value) : Option Int :=
  match entries.find? "line" with
  | some (.scalar (.int n)) => some n
  | _ => none

/-- A `line`, if it is there, is an integer. -/
def HasLine (entries : Entries Value) : Prop :=
  ∀ v, entries.find? "line" = some v → ∃ n, v = .scalar (.int n)

/-- **The line in force inside some mappings**, the innermost in front: the one that the first of them
    tells that tells any, and the line of the start if there is none. -/
def lineInForce (start : Int) (around : List (Entries Value)) : Int :=
  (around.findSome? ownLine).getD start

theorem lineInForce_cons (start : Int) (entries : Entries Value) (around : List (Entries Value)) :
    lineInForce start (entries :: around) = (ownLine entries).getD (lineInForce start around) := by
  rw [lineInForce, List.findSome?_cons]
  cases ownLine entries <;> rfl

/-! ## 3. Visits -/

/-- A value of a document at its place, and the mappings around it, the innermost in front. -/
structure Visit where
  place : Place
  around : List (Entries Value)
  value : Value

/-- The line in force around a value. -/
def Visit.line (start : Int) (visit : Visit) : Int := lineInForce start visit.around

mutual

/-- The places of a document in the order in which they are looked at: a value before what stands in
    it. -/
def visits (place : Place) (around : List (Entries Value)) : Value → List Visit
  | .scalar s => [⟨place, around, .scalar s⟩]
  | .list items => ⟨place, around, .list items⟩ :: itemVisits place.items? around items
  | .tuple members => ⟨place, around, .tuple members⟩ :: itemVisits place.members? around members
  | .mapping entries => ⟨place, around, .mapping entries⟩ ::
      (place.parts entries).flatMap fun part => visitsUnder part.1 part.2 (entries :: around) entries
  | .set members => [⟨place, around, .set members⟩]

/-- The places of some values, if they have any. -/
def itemVisits (place : Option Place) (around : List (Entries Value)) : List Value → List Visit
  | [] => []
  | v :: vs => place.elim [] (fun p => visits p around v) ++ itemVisits place around vs

/-- The places of what lies under a key. -/
def visitsUnder (key : Text) (place : Place) (around : List (Entries Value)) :
    List (Scalar × Value) → List Visit
  | [] => []
  | (k, v) :: rest => if k = .text key then visits place around v else visitsUnder key place around rest

end

theorem itemVisits_some (place : Place) (around : List (Entries Value)) (vs : List Value) :
    itemVisits (some place) around vs = vs.flatMap (visits place around) := by
  induction vs with
  | nil => rfl
  | cons v vs ih => rw [itemVisits, ih, List.flatMap_cons, Option.elim_some]

theorem itemVisits_none (around : List (Entries Value)) (vs : List Value) :
    itemVisits none around vs = [] := by
  induction vs with
  | nil => rfl
  | cons v vs ih => rw [itemVisits, ih, Option.elim_none, List.append_nil]

theorem visitsUnder_eq (key : Text) (place : Place) (around : List (Entries Value))
    (entries : Entries Value) :
    visitsUnder key place around entries = (entries.find? key).elim [] (visits place around) := by
  induction entries with
  | nil => rfl
  | cons e rest ih =>
    obtain ⟨k, v⟩ := e
    rw [visitsUnder, Entries.find?]
    split
    · rfl
    · exact ih

section

variable {γ : Type} (f : Visit → List γ) (around : List (Entries Value))

/-- What is found at the visits of a list is found at the list and at its items. -/
theorem flatMap_visits_list {place part : Place} (hplace : place.items? = some part)
    (items : List Value) :
    (visits place around (.list items)).flatMap f
      = f ⟨place, around, .list items⟩ ++ items.flatMap fun v => (visits part around v).flatMap f := by
  rw [visits, List.flatMap_cons, hplace, itemVisits_some, List.flatMap_assoc]

theorem flatMap_visits_tuple {place part : Place} (hplace : place.members? = some part)
    (members : List Value) :
    (visits place around (.tuple members)).flatMap f
      = f ⟨place, around, .tuple members⟩ ++
        members.flatMap fun v => (visits part around v).flatMap f := by
  rw [visits, List.flatMap_cons, hplace, itemVisits_some, List.flatMap_assoc]

theorem flatMap_visits_mapping (place : Place) (entries : Entries Value) :
    (visits place around (.mapping entries)).flatMap f
      = f ⟨place, around, .mapping entries⟩ ++ (place.parts entries).flatMap fun part =>
        (entries.find? part.1).elim [] fun v => (visits part.2 (entries :: around) v).flatMap f := by
  rw [visits, List.flatMap_cons, List.flatMap_assoc]
  congr 2
  funext part
  rw [visitsUnder_eq]
  cases entries.find? part.1 <;> rfl

end

end TemplateTree.Document
