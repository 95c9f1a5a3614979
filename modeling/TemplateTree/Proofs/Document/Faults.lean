import TemplateTree.Proofs.Document.Visit

/-!
# The faults of a document

Every visit of a document has faults of its own (`Visit.faults`): what is wrong with the value at its
place, the values that stand in it left aside. The faults of the document are those of its visits, one
visit after the other. Each comes with the line in force where it is.
-/

namespace TemplateTree.Document

/-! ## 1. The faults of a visit -/

/-- The fault of a `line` that is no integer, at the line in force around the mapping. -/
def lineFaults (line : Int) (entries : Entries Value) : List CompileError :=
  match entries.find? "line" with
  | none => []
  | some (.scalar (.int _)) => []
  | some v => [⟨.lineNotInteger (v.display.getD []), line⟩]

theorem lineFaults_of_other (line : Int) {entries : Entries Value} {v : Value}
    (hv : entries.find? "line" = some v) (hint : ∀ n, v ≠ .scalar (.int n)) :
    lineFaults line entries = [⟨.lineNotInteger (v.display.getD []), line⟩] := by
  rw [lineFaults, hv]
  split
  · rename_i h
    cases h
  · rename_i h
    exact absurd (Option.some.inj h) (hint _)
  · rename_i h
    rw [Option.some.inj h]

/-- The fault of keys that are not allowed, which names them all in order. -/
def keyFaults (kind : Text) (allowed : List Text) (line : Int) (entries : Entries Value) :
    List CompileError :=
  match (entries.map Prod.fst).filter fun k => !Entries.isAmong allowed k with
  | [] => []
  | unknown => [⟨.unknownKeys kind ((unknown.filterMap Scalar.plain).mergeSort Text.le), line⟩]

/-- The fault of a mapping of a kind that lacks the `do` it needs. -/
def bodyFaults (kind : NodeKind) (line : Int) (entries : Entries Value) : List CompileError :=
  if entries.has "do" then [] else (withoutBody? kind).toList.map (⟨·, line⟩)

/-- The faults of the keys of a node, with the line in force around it and inside. -/
def nodeFaults (outer line : Int) (entries : Entries Value) : List CompileError :=
  lineFaults outer entries ++
    match entries.kinds with
    | [kind] => keyFaults kind.key kind.allowed line entries ++ bodyFaults kind line entries
    | _ => [⟨.kindNotUnique, line⟩]

/-- The faults of the keys of a clause, with the line in force around it and inside. -/
def clauseFaults (outer line : Int) (entries : Entries Value) : List CompileError :=
  (if entries.has "then" then [] else [⟨.clauseNotMapping, outer⟩]) ++ lineFaults outer entries ++
    keyFaults "if clause" clauseKeys line entries

/-- The fault of a list or a tuple that may not be empty. -/
def emptyFaults (place : Place) (line : Int) (items : List Value) : List CompileError :=
  if items.isEmpty then place.whenEmpty.toList.map (⟨·, line⟩) else []

namespace Visit

/-- The fault of a value that may not stand at its place. -/
def misplaced (start : Int) (visit : Visit) : List CompileError :=
  [⟨visit.place.refusal visit.value.typeName, visit.line start⟩]

/-- **The faults of a value at its place**, what stands in it left aside, in the order in which they are
    looked for. -/
def faults (start : Int) (visit : Visit) : List CompileError :=
  match visit.value with
  | .scalar s => if visit.place.admits s then [] else visit.misplaced start
  | .list items =>
    if visit.place.items?.isSome then emptyFaults visit.place (visit.line start) items
    else visit.misplaced start
  | .tuple members =>
    if visit.place.members?.isSome then emptyFaults visit.place (visit.line start) members
    else visit.misplaced start
  | .mapping entries =>
    match visit.place with
    | .node _ => nodeFaults (visit.line start) (lineInForce start (entries :: visit.around)) entries
    | .clause => clauseFaults (visit.line start) (lineInForce start (entries :: visit.around)) entries
    | _ => visit.misplaced start
  | .set _ => visit.misplaced start

end Visit

/-! ## 2. The faults of a value -/

/-- **All faults of a value and of what stands in it**, in order. -/
def faults (start : Int) (place : Place) (around : List (Entries Value)) (v : Value) :
    List CompileError :=
  (visits place around v).flatMap (Visit.faults start)

section

variable (start : Int) (around : List (Entries Value))

theorem faults_scalar_of_admits {place : Place} {s : Scalar} (h : place.admits s = true) :
    faults start place around (.scalar s) = [] := by
  simp [faults, visits, Visit.faults, h]

theorem faults_scalar_of_not_admits {place : Place} {s : Scalar} (h : place.admits s = false) :
    faults start place around (.scalar s)
      = [⟨place.refusal s.typeName, lineInForce start around⟩] := by
  rw [faults, visits, List.flatMap_singleton, Visit.faults]
  simp only [h]
  rfl

theorem faults_list {place part : Place} (hplace : place.items? = some part) (items : List Value) :
    faults start place around (.list items)
      = emptyFaults place (lineInForce start around) items ++ items.flatMap (faults start part around) := by
  rw [faults, flatMap_visits_list _ _ hplace]
  simp only [Visit.faults, hplace, Option.isSome_some, if_true]
  rfl

theorem faults_tuple {place part : Place} (hplace : place.members? = some part) (members : List Value) :
    faults start place around (.tuple members)
      = emptyFaults place (lineInForce start around) members
        ++ members.flatMap (faults start part around) := by
  rw [faults, flatMap_visits_tuple _ _ hplace]
  simp only [Visit.faults, hplace, Option.isSome_some, if_true]
  rfl

theorem faults_list_of_none {place : Place} (hplace : place.items? = none) (items : List Value) :
    faults start place around (.list items) = [⟨place.refusal "list", lineInForce start around⟩] := by
  rw [faults, visits, hplace, itemVisits_none, List.flatMap_singleton]
  simp only [Visit.faults, hplace]
  rfl

theorem faults_tuple_of_none {place : Place} (hplace : place.members? = none) (members : List Value) :
    faults start place around (.tuple members)
      = [⟨place.refusal "tuple", lineInForce start around⟩] := by
  rw [faults, visits, hplace, itemVisits_none, List.flatMap_singleton]
  simp only [Visit.faults, hplace]
  rfl

/-- At a place that is for lists, what is no list has one fault. -/
theorem faults_of_notList {place : Place} {cause : Cause} (hplace : place.notList? = some cause)
    {v : Value} (hlist : ∀ items, v ≠ .list items) (hscalar : ∀ s, v = .scalar s → place.admits s = false) :
    faults start place around v = [⟨cause, lineInForce start around⟩] := by
  have hcause (type : Text) : place.refusal type = cause := by
    cases place <;> cases hplace <;> rfl
  have hmembers : place.members? = none := by
    cases place with
    | token raw => cases hplace
    | _ => rfl
  cases v with
  | scalar s => rw [faults_scalar_of_not_admits _ _ (hscalar s rfl), hcause]
  | list items => exact absurd rfl (hlist items)
  | tuple members => rw [faults_tuple_of_none _ _ hmembers, hcause]
  | mapping entries => cases place <;> cases hplace <;> rfl
  | set members => rw [← hcause "set"]; rfl

/-- The faults of what lies under a key. -/
def faultsUnder (key : Text) (place : Place) (entries : Entries Value) : List CompileError :=
  (entries.find? key).elim [] (faults start place around)

theorem faults_mapping (place : Place) (entries : Entries Value) :
    faults start place around (.mapping entries)
      = Visit.faults start ⟨place, around, .mapping entries⟩ ++
        (place.parts entries).flatMap fun part =>
          faultsUnder start (entries :: around) part.1 part.2 entries :=
  flatMap_visits_mapping ..

/-- An optional node has the faults of a node, unless it is null. -/
theorem faults_optional {v : Value} (hv : v ≠ .null) :
    faults start (.node true) around v = faults start (.node false) around v := by
  cases v with
  | scalar s =>
    have hs : (s == Scalar.null) = false := beq_eq_false_iff_ne.mpr fun h => hv (h ▸ rfl)
    simp [faults, visits, Visit.faults, Place.admits, hs, Visit.misplaced, Place.refusal, Visit.line]
  | list items => rw [faults_list _ _ rfl, faults_list _ _ rfl]; rfl
  | tuple members => rfl
  | mapping entries => rw [faults_mapping, faults_mapping]; rfl
  | set members => rfl

end

end TemplateTree.Document
