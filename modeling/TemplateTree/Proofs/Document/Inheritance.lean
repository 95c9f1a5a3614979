import TemplateTree.Proofs.Document.Acceptance

/-!
# The lines of a tree

A command and a loop over a collection have a line. It is the line in force at their place in the
document (`Visit.lineNumbers`): the line of the innermost mapping around it, a node or a clause, that
tells one, and the line of the start if there is none. So nothing changes if every mapping tells the
line in force inside it, and every list of tokens that is a node is put into such a mapping
(`annotated`); only the line of the start does not matter any more.
-/

namespace TemplateTree

/-! ## 1. The lines of a tree and of a document -/

namespace Expr

mutual

/-- The lines of the commands and of the loops over collections in an expression, each before those of
    what stands in it. -/
def lineNumbers : Expr → List Int
  | string _ => []
  | command line name arguments => line :: (lineNumbers name ++ rowLineNumbers arguments)
  | block first rest => lineNumbers first ++ rowLineNumbers rest
  | condition _ operands => rowLineNumbers operands
  | choice clauses => clauseLineNumbers clauses
  | forEach line iterable body element position =>
    line :: (lineNumbers iterable ++ lineNumbers body ++ optionLineNumbers element
      ++ optionLineNumbers position)
  | whileLoop test body => lineNumbers test ++ lineNumbers body

/-- The lines in some expressions. -/
def rowLineNumbers : List Expr → List Int
  | [] => []
  | e :: es => lineNumbers e ++ rowLineNumbers es

/-- The lines in some clauses. -/
def clauseLineNumbers : List (Expr × Expr) → List Int
  | [] => []
  | (c, b) :: rest => lineNumbers c ++ lineNumbers b ++ clauseLineNumbers rest

/-- The lines in an expression that may be absent. -/
def optionLineNumbers : Option Expr → List Int
  | none => []
  | some e => lineNumbers e

end

theorem rowLineNumbers_eq (es : List Expr) : rowLineNumbers es = es.flatMap lineNumbers := by
  induction es with
  | nil => rfl
  | cons e es ih => rw [rowLineNumbers, ih, List.flatMap_cons]

theorem clauseLineNumbers_eq (cs : List (Expr × Expr)) :
    clauseLineNumbers cs = cs.flatMap fun c => c.1.lineNumbers ++ c.2.lineNumbers := by
  induction cs with
  | nil => rfl
  | cons c cs ih => rw [clauseLineNumbers, ih, List.flatMap_cons]

end Expr

namespace Document

/-- Whether a list or a tuple at a place is a command. -/
def Place.isCommand : Place → Bool
  | node _ => true
  | token _ => true
  | command => true
  | _ => false

/-- **The line of the command or of the loop over a collection that a value describes**, if it does: the
    line in force around a command, and inside the mapping of a loop. -/
def Visit.lineNumbers (start : Int) (visit : Visit) : List Int :=
  match visit.value with
  | .list _ => if visit.place.isCommand then [visit.line start] else []
  | .tuple _ => if visit.place.isCommand then [visit.line start] else []
  | .mapping entries =>
    match visit.place with
    | .node _ =>
      if Entries.kinds entries = [.forEach] then [lineInForce start (entries :: visit.around)] else []
    | _ => []
  | _ => []

/-- The lines that a value and what stands in it take over, in order. -/
def lines (start : Int) (place : Place) (around : List (Entries Value)) (v : Value) : List Int :=
  (visits place around v).flatMap (Visit.lineNumbers start)

theorem lines_list {start : Int} {place part : Place} {around : List (Entries Value)}
    (hplace : place.items? = some part) (items : List Value) :
    lines start place around (.list items)
      = (if place.isCommand then [lineInForce start around] else []) ++
        items.flatMap (lines start part around) :=
  flatMap_visits_list _ _ hplace items

theorem lines_mapping (start : Int) (place : Place) (around : List (Entries Value))
    (entries : Entries Value) :
    lines start place around (.mapping entries)
      = Visit.lineNumbers start ⟨place, around, .mapping entries⟩ ++
        (place.parts entries).flatMap fun part =>
          (entries.find? part.1).elim [] (lines start part.2 (entries :: around)) :=
  flatMap_visits_mapping ..

/-- The lines of a mapping of a kind: its own if it is a loop over a collection, and those of its parts. -/
theorem lines_of_kind {start : Int} {around : List (Entries Value)} {kind : NodeKind}
    {entries : Entries Value} (hkinds : entries.kinds = [kind]) :
    lines start (.node false) around (.mapping entries)
      = (if kind = .forEach then [lineInForce start (entries :: around)] else []) ++
        (kindParts kind).flatMap fun part =>
          (entries.find? part.1).elim [] (lines start part.2 (entries :: around)) := by
  rw [lines_mapping, Place.parts, hkinds]
  simp only [Visit.lineNumbers, hkinds, List.cons.injEq, and_true]

theorem lines_optional (start : Int) (around : List (Entries Value)) (v : Value) :
    lines start (.node true) around v = lines start (.node false) around v := by
  cases v with
  | scalar s | tuple members | set members => rfl
  | list items => rw [lines_list rfl, lines_list rfl]; rfl
  | mapping entries => rw [lines_mapping, lines_mapping]; rfl

theorem flatMap_eq_of_forall₂ {α β γ : Type} {f : α → List γ} {g : β → List γ} {as : List α}
    {bs : List β} (h : List.Forall₂ (fun a b => g b = f a) as bs) : bs.flatMap g = as.flatMap f := by
  induction h with
  | nil => rfl
  | cons hab _ ih => rw [List.flatMap_cons, List.flatMap_cons, hab, ih]

/-! ## 2. The lines of what is built -/

/-- A row of tokens is a command at the line in force, in front of the lines of the tokens. -/
theorem lineNumbers_of_commandOf {start line : Int} {around : List (Entries Value)} {raw : Bool}
    {items : List Value} {expr : Bool × Value → Except Failure Expr} {e : Expr}
    (hexpr : ∀ w e, expr (raw, w) = .ok e → e.lineNumbers = lines start (.token raw) around w)
    (h : ((items.map ((raw, ·))).mapM expr >>= Tokens.commandOf line) = .ok e) :
    e.lineNumbers = line :: items.flatMap (lines start (.token raw) around) := by
  obtain ⟨es, hes, h⟩ := exists_of_bind h
  obtain ⟨name, arguments, rfl, rfl⟩ := Tokens.exists_of_commandOf h
  rw [mapM_eq_ok_iff, List.forall₂_map_left_iff] at hes
  rw [Expr.lineNumbers, Expr.rowLineNumbers_eq, ← List.flatMap_cons,
    flatMap_eq_of_forall₂ (hes.imp hexpr)]

section

variable {view : View Value} (hview : view.IsTree) {start : Int} {around : List (Entries Value)}
  {e : Expr}

include hview

theorem lineNumbers_of_expr {raw : Bool} {depth : Nat} {v : Value}
    (h : Tokens.expr view.token depth (lineInForce start around) (raw, v) = .ok e) :
    e.lineNumbers = lines start (.token raw) around v := by
  induction depth generalizing raw v e with
  | zero => cases h
  | succ depth ih =>
    rw [Tokens.expr] at h
    cases v with
    | scalar s =>
      cases htext : s.tokenText? raw with
      | some t =>
        rw [View.token_of_text (hview.level_eq _) htext] at h
        obtain rfl := Except.ok.inj h
        rfl
      | none =>
        rw [View.token_of_other (hview.level_eq _) htext] at h
        cases h
    | list items =>
      rw [lines_list rfl]
      simp only [View.token, hview.level_eq, Value.level] at h
      exact lineNumbers_of_commandOf (fun w e => ih) h
    | tuple members =>
      rw [lines, flatMap_visits_tuple _ _ rfl]
      simp only [View.token, hview.level_eq, Value.level] at h
      exact lineNumbers_of_commandOf (fun w e => ih) h
    | mapping entries | set members =>
      simp only [View.token, hview.level_eq, Value.level] at h
      cases h

theorem lineNumbers_of_command {items : List Value}
    (h : view.command (lineInForce start around) items = .ok e) :
    e.lineNumbers = lineInForce start around :: items.flatMap (lines start (.token false) around) := by
  obtain ⟨ts, hts, h⟩ := exists_of_bind h
  obtain rfl := view.eq_of_tokens hts
  exact lineNumbers_of_commandOf (fun w e => lineNumbers_of_expr hview) h

/-- The marker of a negation has no line to tell, so it is not missed. -/
theorem lineNumbers_of_tokensCondition {marker : Text} {depth : Nat} {items : List Value}
    (h : Tokens.condition view.token depth (fun t => view.isEqual t.1 t.2 (.ofText marker))
      (lineInForce start around) (items.map ((false, ·))) = .ok e) :
    e.lineNumbers = items.flatMap (lines start (.token false) around) := by
  have hrow {negated : Bool} {ws : List Value}
      (h : Expr.condition negated <$> (ws.map ((false, ·))).mapM
        (Tokens.expr view.token depth (lineInForce start around)) = .ok e) :
      e.lineNumbers = ws.flatMap (lines start (.token false) around) := by
    obtain ⟨es, hes, h⟩ := exists_of_bind (f := fun es => Except.ok (Expr.condition negated es)) h
    obtain rfl := Except.ok.inj h
    rw [mapM_eq_ok_iff, List.forall₂_map_left_iff] at hes
    rw [Expr.lineNumbers, Expr.rowLineNumbers_eq,
      flatMap_eq_of_forall₂ (hes.imp fun w e => lineNumbers_of_expr hview)]
  cases items with
  | nil => exact @hrow false [] h
  | cons first rest =>
    rw [List.map_cons, Tokens.condition] at h
    by_cases hmarker : view.isEqual false first (.ofText marker) = true
    · rw [if_pos hmarker] at h
      have hfirst : lines start (.token false) around first = [] := by
        rw [Value.ofText, View.isEqual, hview.level_eq] at hmarker
        cases first with
        | scalar s => rfl
        | _ => cases hmarker
      rw [List.flatMap_cons, hfirst, List.nil_append]
      exact hrow h
    · rw [if_neg hmarker] at h
      exact @hrow false (first :: rest) h

theorem lineNumbers_of_condition {marker : Text} {v? : Option Value}
    (h : condition view (.ofText marker) (lineInForce start around) v? = .ok e) :
    e.lineNumbers = v?.elim [] (lines start .test around) := by
  cases v? with
  | none =>
    obtain rfl := Except.ok.inj h
    rfl
  | some v =>
    rw [Option.elim_some]
    by_cases hnull : v = .null
    · subst hnull
      rw [condition, given_null hview] at h
      obtain rfl := Except.ok.inj h
      rfl
    · rw [condition, given_of_ne_null hview hnull] at h
      obtain ⟨items, hitems, hitem⟩ := exists_of_bind h
      obtain rfl := Option.some.inj ((listItems_eq_ok_iff hview).mp hitems)
      obtain ⟨ts, hts, htest⟩ := exists_of_bind hitem
      obtain rfl := view.eq_of_tokens hts
      rw [lines_list rfl]
      exact lineNumbers_of_tokensCondition hview htest

variable {marker : Text} {node : Int → Value → Except Failure Expr}
  (hnode : ∀ around w e, node (lineInForce start around) w = .ok e →
    e.lineNumbers = lines start (.node false) around w)

include hnode

theorem lineNumbers_of_optional {v? : Option Value} {e? : Option Expr}
    (h : Option.Rel (fun v e => node (lineInForce start around) v = .ok e) (given view v?) e?) :
    Expr.optionLineNumbers e? = v?.elim [] (lines start (.node true) around) := by
  cases v? with
  | none =>
    cases h
    rfl
  | some v =>
    rw [Option.elim_some]
    by_cases hnull : v = .null
    · rw [hnull, given_null hview] at h
      cases h
      rw [hnull]
      rfl
    · rw [given_of_ne_null hview hnull] at h
      cases h with
      | some he => rw [Expr.optionLineNumbers, hnode _ _ _ he, lines_optional]

theorem lineNumbers_of_clause {v : Value} {c : Expr × Expr}
    (h : clause view (.ofText marker) node (lineInForce start around) v = .ok c) :
    c.1.lineNumbers ++ c.2.lineNumbers = lines start .clause around v := by
  obtain ⟨entries, branch, rfl, -, -, htest, hthen, hbranch⟩ := (clause_eq_ok_iff hview).mp h
  rw [← lineInForce_cons] at htest hbranch
  rw [lineNumbers_of_condition hview htest, hnode _ _ _ hbranch, lines_mapping]
  simp [Visit.lineNumbers, Place.parts, clauseParts, hthen]

theorem lineNumbers_of_ofKind {kind : NodeKind} {entries : Entries Value}
    (hkinds : entries.kinds = [kind])
    (h : ofKind view (.ofText marker) node (lineInForce start (entries :: around)) kind entries = .ok e) :
    e.lineNumbers = lines start (.node false) around (.mapping entries) := by
  rw [lines_of_kind hkinds]
  cases kind with
  | command =>
    obtain ⟨items, hitems, h⟩ := (ofKind_command_eq_ok_iff hview).mp h
    rw [lineNumbers_of_command hview h]
    simp [kindParts, hitems, lines_list, Place.items?, Place.isCommand]
  | block =>
    obtain ⟨items, first, rest, hitems, hrow, rfl⟩ := (ofKind_block_eq_ok_iff hview).mp h
    rw [Expr.lineNumbers, Expr.rowLineNumbers_eq, ← List.flatMap_cons,
      flatMap_eq_of_forall₂ (hrow.imp (hnode _))]
    simp [kindParts, hitems, lines_list, Place.items?, Place.isCommand]
  | choice =>
    obtain ⟨items, clauses, hitems, hrow, rfl⟩ := (ofKind_choice_eq_ok_iff hview).mp h
    rw [Expr.lineNumbers, Expr.clauseLineNumbers_eq,
      flatMap_eq_of_forall₂ (hrow.imp fun v c => lineNumbers_of_clause hview hnode)]
    simp [kindParts, hitems, lines_list, Place.items?, Place.isCommand]
  | forEach =>
    obtain ⟨iterable, body, i, b, element, position, hfor, hdo, hi, hb, helement, hposition, rfl⟩ :=
      ofKind_forEach_eq_ok_iff.mp h
    rw [Expr.lineNumbers, hnode _ _ _ hi, hnode _ _ _ hb, lineNumbers_of_optional hview hnode helement,
      lineNumbers_of_optional hview hnode hposition]
    simp [kindParts, hfor, hdo]
  | whileLoop =>
    obtain ⟨body, test, b, hdo, htest, hb, rfl⟩ := ofKind_whileLoop_eq_ok_iff.mp h
    rw [Expr.lineNumbers, lineNumbers_of_condition hview htest, hnode _ _ _ hb]
    simp [kindParts, hdo]

omit hnode in
/-- **The lines of a tree are the lines in force in the document that it is built out of.** -/
theorem lineNumbers_of_node {depth : Nat} {v : Value}
    (h : Document.node view (.ofText marker) depth (lineInForce start around) v = .ok e) :
    e.lineNumbers = lines start (.node false) around v := by
  induction depth generalizing v around e with
  | zero => cases h
  | succ depth ih =>
    cases v with
    | scalar s =>
      obtain ⟨t, -, rfl⟩ := (node_scalar_eq_ok_iff hview).mp h
      rfl
    | list items =>
      rw [Document.node, hview.level_eq] at h
      rw [lines_list rfl]
      exact lineNumbers_of_command hview h
    | mapping entries =>
      obtain ⟨kind, hof, h⟩ := (node_mapping_eq_ok_iff hview).mp h
      rw [← lineInForce_cons] at h
      exact lineNumbers_of_ofKind hview (fun around w e => ih) (kinds_eq_singleton_iff.mpr hof.kinds) h
    | tuple members | set members =>
      rw [Document.node, hview.level_eq] at h
      cases h

end

/-! ## 3. Annotated documents -/

/-- Whether a mapping may stand at a place. -/
def Place.isMapping : Place → Bool
  | node _ => true
  | clause => true
  | _ => false

/-- The place of what lies under a key, if it has one. -/
def partAt (parts : List (Text × Place)) (key : Scalar) : Option Place :=
  (parts.find? fun part => key == .text part.1).map Prod.snd

/-- Entries that tell a line behind all others. -/
def telling (line : Int) (entries : Entries Value) : Entries Value :=
  entries ++ [(.text "line", Expr.lineValue line)]

mutual

/-- **A value with the line in force told by every mapping** that is a node or a clause, and with every
    list that is a node as the command of such a mapping. Tokens are left as they are. -/
def annotated (place : Place) (line : Int) : Value → Value
  | .scalar s => .scalar s
  | .list items =>
    match place with
    | .node _ => .mapping (telling line [(.text "command", .list items)])
    | .block => .list (annotatedItems (.node false) line items)
    | .choice => .list (annotatedItems .clause line items)
    | _ => .list items
  | .tuple members => .tuple members
  | .mapping entries =>
    if place.isMapping then
      .mapping (telling ((ownLine entries).getD line)
        (annotatedEntries (place.parts entries) ((ownLine entries).getD line) entries))
    else .mapping entries
  | .set members => .set members

/-- Some values at one place, annotated. -/
def annotatedItems (place : Place) (line : Int) : List Value → List Value
  | [] => []
  | v :: vs => annotated place line v :: annotatedItems place line vs

/-- The entries of a mapping without its line, and with what lies under their keys annotated. -/
def annotatedEntries (parts : List (Text × Place)) (line : Int) :
    List (Scalar × Value) → List (Scalar × Value)
  | [] => []
  | (k, v) :: rest =>
    if k = .text "line" then annotatedEntries parts line rest
    else (k, (partAt parts k).elim v fun place => annotated place line v)
      :: annotatedEntries parts line rest

end

theorem annotatedItems_eq_map (place : Place) (line : Int) (vs : List Value) :
    annotatedItems place line vs = vs.map (annotated place line) := by
  induction vs with
  | nil => rfl
  | cons v vs ih => rw [annotatedItems, ih, List.map_cons]

theorem annotated_test (line : Int) (v : Value) : annotated .test line v = v := by
  cases v <;> rfl

theorem annotated_optional (line : Int) (v : Value) :
    annotated (.node true) line v = annotated (.node false) line v := by
  cases v <;> rfl

section

variable {parts : List (Text × Place)} {line : Int} {entries : Entries Value}

theorem find?_telling_line :
    (telling line (annotatedEntries parts line entries)).find? "line" = some (Expr.lineValue line) := by
  induction entries with
  | nil => rfl
  | cons e rest ih =>
    obtain ⟨k, v⟩ := e
    rw [telling, annotatedEntries]
    by_cases hk : k = .text "line"
    · rw [if_pos hk]
      exact ih
    · rw [if_neg hk, List.cons_append, Entries.find?, if_neg hk]
      exact ih

/-- What lies under a key of an annotated mapping. -/
theorem find?_telling {key : Text} (hkey : key ≠ Text.ofString "line") :
    (telling line (annotatedEntries parts line entries)).find? key
      = (entries.find? key).map fun v =>
        (partAt parts (.text key)).elim v fun place => annotated place line v := by
  induction entries with
  | nil => simp [telling, annotatedEntries, Entries.find?, hkey.symm]
  | cons e rest ih =>
    obtain ⟨k, v⟩ := e
    rw [telling, annotatedEntries, Entries.find?]
    by_cases hk : k = .text key
    · subst hk
      rw [if_neg fun h => hkey (Scalar.text.inj h), if_pos rfl, List.cons_append, Entries.find?,
        if_pos rfl]
      rfl
    · rw [if_neg hk, ← ih]
      split
      · rfl
      · rw [List.cons_append, Entries.find?, if_neg hk]
        rfl

theorem find?_telling_part {key : Text} {place : Place} {v : Value}
    (hkey : key ≠ Text.ofString "line") (hpart : partAt parts (.text key) = some place)
    (hv : entries.find? key = some v) :
    (telling line (annotatedEntries parts line entries)).find? key = some (annotated place line v) := by
  rw [find?_telling hkey, hv, hpart]
  rfl

theorem find?_telling_test {key : Text} (hkey : key ≠ Text.ofString "line")
    (hpart : partAt parts (.text key) = some .test) :
    (telling line (annotatedEntries parts line entries)).find? key = entries.find? key := by
  rw [find?_telling hkey, hpart]
  cases entries.find? key with
  | none => rfl
  | some v => exact congrArg some (annotated_test line v)

theorem mem_of_mem_annotatedEntries {e : Scalar × Value} (h : e ∈ annotatedEntries parts line entries) :
    ∃ v, (e.1, v) ∈ entries := by
  induction entries with
  | nil => cases h
  | cons f rest ih =>
    obtain ⟨k, v⟩ := f
    rw [annotatedEntries] at h
    split at h
    · obtain ⟨w, hw⟩ := ih h
      exact ⟨w, List.mem_cons_of_mem _ hw⟩
    · rcases List.mem_cons.mp h with rfl | h
      · exact ⟨v, List.mem_cons_self⟩
      · obtain ⟨w, hw⟩ := ih h
        exact ⟨w, List.mem_cons_of_mem _ hw⟩

theorem hasKeys_telling {allowed : List Text} (hline : Text.ofString "line" ∈ allowed)
    (h : HasKeys allowed entries) :
    HasKeys allowed (telling line (annotatedEntries parts line entries)) := by
  intro e he
  rcases List.mem_append.mp he with he | he
  · obtain ⟨v, hv⟩ := mem_of_mem_annotatedEntries he
    exact h (e.1, v) hv
  · rw [List.mem_singleton.mp he]
    exact ⟨_, hline, rfl⟩

theorem hasLine_telling : HasLine (telling line (annotatedEntries parts line entries)) := by
  intro v hv
  rw [find?_telling_line] at hv
  exact ⟨line, (Option.some.inj hv).symm⟩

theorem ownLine_telling : ownLine (telling line (annotatedEntries parts line entries)) = some line := by
  rw [ownLine, find?_telling_line]
  rfl

theorem isOfKind_command (line : Int) (items : List Value) :
    IsOfKind .command (telling line [(.text "command", .list items)]) := by
  refine ⟨fun v hv => ⟨line, (Option.some.inj hv).symm⟩, kinds_eq_singleton_iff.mp rfl, fun e he => ?_⟩
  rcases List.mem_cons.mp he with rfl | he
  · exact ⟨"command", by decide, rfl⟩
  · rw [List.mem_singleton.mp he]
    exact ⟨"line", by decide, rfl⟩

/-- An annotated mapping is of the same kind. -/
theorem IsOfKind.telling {kind : NodeKind} (h : IsOfKind kind entries) :
    IsOfKind kind (telling line (annotatedEntries parts line entries)) := by
  refine ⟨hasLine_telling, fun k => ?_, hasKeys_telling (by cases kind <;> decide) h.keys⟩
  rw [← h.kinds k, Entries.has, Entries.has, find?_telling (NodeKind.key_ne_line k), Option.isSome_map]

end

/-! ## 4. Trees of annotated documents -/

section

variable {view view' : View Value} (hview : view.IsTree) (hview' : view'.IsTree)

/-- A value stands for itself in another view of values, as far as both reach. -/
def sameValues : Agreement view view' :=
  View.Shows.agreement hview.faithful hview' (min view.reach view'.reach) (Nat.min_le_left ..)
    (Nat.min_le_right ..)

include hview hview'

theorem command_eq {items : List Value}
    (h : ∀ v ∈ items, v.height ≤ view.reach ∧ v.height ≤ view'.reach) (line : Int) :
    view.command line items = view'.command line items := by
  refine (sameValues hview hview').command_eq (List.forall₂_same.mpr fun v hv => ?_) line
  have hheight := h v hv
  exact ⟨hview.shows v, by omega⟩

theorem condition_eq {v? : Option Value}
    (h : ∀ v, v? = some v → v.height ≤ view.reach ∧ v.height ≤ view'.reach) (marker : Text)
    (line : Int) :
    condition view (.ofText marker) line v? = condition view' (.ofText marker) line v? := by
  refine (sameValues hview hview').condition_eq ?_ marker line
  cases v? with
  | none => exact .none
  | some v =>
    have hheight := h v rfl
    exact .some ⟨hview.shows v, by omega⟩

variable {marker : Text} {node node' : Int → Value → Except Failure Expr} {parts : List (Text × Place)}
  {line : Int} {entries : Entries Value}

/-- The test under a key of an annotated mapping gives the same. -/
theorem condition_telling {key : Text} {e : Expr} (hkey : key ≠ Text.ofString "line")
    (hpart : partAt parts (.text key) = some .test)
    (hreach : (Value.mapping entries).height ≤ view.reach)
    (hreach' : (Value.mapping (telling line (annotatedEntries parts line entries))).height ≤ view'.reach)
    (h : condition view (.ofText marker) line (entries.find? key) = .ok e) :
    condition view' (.ofText marker) line
      ((telling line (annotatedEntries parts line entries)).find? key) = .ok e := by
  have hfind : (telling line (annotatedEntries parts line entries)).find? key = entries.find? key :=
    find?_telling_test hkey hpart
  rw [hfind, ← condition_eq hview hview' fun v hv => ?_]
  · exact h
  · have hlower := Value.height_lt_mapping (Entries.mem_of_find? hv)
    have hlower' := Value.height_lt_mapping (Entries.mem_of_find? (hfind.trans hv))
    exact ⟨by omega, by omega⟩

/-- An annotated clause gives the same, if its branch does. -/
theorem clause_annotated {outer outer' : Int} {v : Value} {c : Expr × Expr}
    (hreach : v.height ≤ view.reach) (hreach' : (annotated .clause outer v).height ≤ view'.reach)
    (hnode : ∀ line line' w e, w.height < v.height →
      (annotated (.node false) line w).height < (annotated .clause outer v).height →
      node line w = .ok e → node' line' (annotated (.node false) line w) = .ok e)
    (h : clause view (.ofText marker) node outer v = .ok c) :
    clause view' (.ofText marker) node' outer' (annotated .clause outer v) = .ok c := by
  obtain ⟨entries, branch, rfl, hline, hkeys, htest, hthen, hbranch⟩ := (clause_eq_ok_iff hview).mp h
  have hthen' : (telling ((ownLine entries).getD outer)
      (annotatedEntries clauseParts ((ownLine entries).getD outer) entries)).find? "then"
        = some (annotated (.node false) ((ownLine entries).getD outer) branch) :=
    find?_telling_part (by decide) rfl hthen
  rw [clause_eq_ok_iff hview']
  refine ⟨_, _, rfl, hasLine_telling, hasKeys_telling (by decide) hkeys, ?_, hthen', ?_⟩
  · rw [ownLine_telling]
    exact condition_telling hview hview' (by decide) rfl hreach hreach' htest
  · exact hnode _ _ _ _ (Value.height_lt_mapping (Entries.mem_of_find? hthen))
      (Value.height_lt_mapping (Entries.mem_of_find? hthen')) hbranch

/-- What may be absent under a key of an annotated mapping gives the same. -/
theorem optional_annotated {key : Text} {e? : Option Expr} (hkey : key ≠ Text.ofString "line")
    (hpart : partAt parts (.text key) = some (.node true))
    (hnode : ∀ v e, entries.find? key = some v → node line v = .ok e →
      node' line (annotated (.node false) line v) = .ok e)
    (h : Option.Rel (fun v e => node line v = .ok e) (given view (entries.find? key)) e?) :
    Option.Rel (fun v e => node' line v = .ok e)
      (given view' ((telling line (annotatedEntries parts line entries)).find? key)) e? := by
  cases hv : entries.find? key with
  | none =>
    rw [hv] at h
    rw [find?_telling hkey, hv]
    cases h
    exact .none
  | some v =>
    have hv' : (telling line (annotatedEntries parts line entries)).find? key
        = some (annotated (.node false) line v) := by
      rw [find?_telling_part hkey hpart hv, annotated_optional]
    rw [hv] at h
    rw [hv']
    by_cases hnull : v = .null
    · subst hnull
      rw [given_null hview] at h
      cases h
      rw [show annotated (.node false) line .null = .null from rfl, given_null hview']
      exact .none
    · have hnull' : annotated (.node false) line v ≠ .null := by
        cases v with
        | scalar s => exact hnull
        | _ => exact fun h => by cases h
      rw [given_of_ne_null hview hnull] at h
      rw [given_of_ne_null hview' hnull']
      cases h with
      | some he => exact .some (hnode v _ hv he)

theorem ofKind_annotated {kind : NodeKind} {e : Expr} {entries' : Entries Value}
    (hentries' : telling line (annotatedEntries (kindParts kind) line entries) = entries')
    (hreach : (Value.mapping entries).height ≤ view.reach)
    (hreach' : (Value.mapping entries').height ≤ view'.reach)
    (hnode : ∀ inner inner' w e, w.height < (Value.mapping entries).height →
      (annotated (.node false) inner w).height < (Value.mapping entries').height →
      node inner w = .ok e → node' inner' (annotated (.node false) inner w) = .ok e)
    (h : ofKind view (.ofText marker) node line kind entries = .ok e) :
    ofKind view' (.ofText marker) node' line kind entries' = .ok e := by
  have hpart {key : Text} {place : Place} {v : Value} (hkey : key ≠ Text.ofString "line")
      (hplace : partAt (kindParts kind) (.text key) = some place) (hv : entries.find? key = some v) :
      entries'.find? key = some (annotated place line v) :=
    hentries' ▸ find?_telling_part hkey hplace hv
  have hlower {key : Text} {v : Value} (hv : entries.find? key = some v) :=
    Value.height_lt_mapping (Entries.mem_of_find? hv)
  have hlower' {key : Text} {v : Value} (hv : entries'.find? key = some v) :=
    Value.height_lt_mapping (Entries.mem_of_find? hv)
  cases kind with
  | command =>
    obtain ⟨items, hitems, h⟩ := (ofKind_command_eq_ok_iff hview).mp h
    have hitems' := hpart (by decide) rfl hitems
    refine (ofKind_command_eq_ok_iff hview').mpr ⟨items, hitems', ?_⟩
    rw [← command_eq hview hview' fun v hv => ?_]
    · exact h
    · have hheight := Value.height_lt_mapping_list (Entries.mem_of_find? hitems) hv
      have hheight' := Value.height_lt_mapping_list (Entries.mem_of_find? hitems') hv
      exact ⟨by omega, by omega⟩
  | block =>
    obtain ⟨items, first, rest, hitems, hrow, rfl⟩ := (ofKind_block_eq_ok_iff hview).mp h
    have hitems' := hpart (by decide) rfl hitems
    rw [annotated, annotatedItems_eq_map] at hitems'
    refine (ofKind_block_eq_ok_iff hview').mpr ⟨_, first, rest, hitems', ?_, rfl⟩
    rw [List.forall₂_map_left_iff]
    exact forall₂_imp_mem hrow fun v hv e _ he => hnode _ _ _ _
      (Value.height_lt_mapping_list (Entries.mem_of_find? hitems) hv)
      (Value.height_lt_mapping_list (Entries.mem_of_find? hitems') (List.mem_map_of_mem hv)) he
  | choice =>
    obtain ⟨items, clauses, hitems, hrow, rfl⟩ := (ofKind_choice_eq_ok_iff hview).mp h
    have hitems' := hpart (by decide) rfl hitems
    rw [annotated, annotatedItems_eq_map] at hitems'
    refine (ofKind_choice_eq_ok_iff hview').mpr ⟨_, clauses, hitems', ?_, rfl⟩
    rw [List.forall₂_map_left_iff]
    refine forall₂_imp_mem hrow fun v hv c _ hc => ?_
    have hheight := Value.height_lt_mapping_list (Entries.mem_of_find? hitems) hv
    have hheight' := Value.height_lt_mapping_list (Entries.mem_of_find? hitems')
      (List.mem_map_of_mem hv)
    exact clause_annotated hview hview' (by omega) (by omega)
      (fun _ _ _ _ hw hw' => hnode _ _ _ _ (by omega) (by omega)) hc
  | forEach =>
    obtain ⟨iterable, body, i, b, element, position, hfor, hdo, hi, hb, helement, hposition, rfl⟩ :=
      ofKind_forEach_eq_ok_iff.mp h
    have hfor' := hpart (by decide) rfl hfor
    have hdo' := hpart (by decide) rfl hdo
    have hoptional {key : Text} (hkey : key ≠ Text.ofString "line")
        (hplace : partAt (kindParts .forEach) (.text key) = some (.node true)) (v : Value) (e : Expr)
        (hv : entries.find? key = some v) (he : node line v = .ok e) :
        node' line (annotated (.node false) line v) = .ok e := by
      have hv' := hpart hkey hplace hv
      rw [annotated_optional] at hv'
      exact hnode _ _ _ _ (hlower hv) (hlower' hv') he
    subst hentries'
    exact ofKind_forEach_eq_ok_iff.mpr ⟨_, _, i, b, element, position, hfor', hdo',
      hnode _ _ _ _ (hlower hfor) (hlower' hfor') hi, hnode _ _ _ _ (hlower hdo) (hlower' hdo') hb,
      optional_annotated hview hview' (by decide) rfl (hoptional (by decide) rfl) helement,
      optional_annotated hview hview' (by decide) rfl (hoptional (by decide) rfl) hposition, rfl⟩
  | whileLoop =>
    obtain ⟨body, test, b, hdo, htest, hb, rfl⟩ := ofKind_whileLoop_eq_ok_iff.mp h
    have hdo' := hpart (by decide) rfl hdo
    subst hentries'
    exact ofKind_whileLoop_eq_ok_iff.mpr ⟨_, test, b, hdo',
      condition_telling hview hview' (by decide) rfl hreach hreach' htest,
      hnode _ _ _ _ (hlower hdo) (hlower' hdo') hb, rfl⟩

/-- **An annotated node gives the same tree**, whatever line is in force around it. -/
theorem node_annotated {depth depth' : Nat} {outer : Int} {v : Value} {e : Expr}
    (hreach : v.height ≤ view.reach)
    (hdepth' : (annotated (.node false) outer v).height ≤ depth')
    (hreach' : (annotated (.node false) outer v).height ≤ view'.reach)
    (h : Document.node view (.ofText marker) depth outer v = .ok e) (outer' : Int) :
    Document.node view' (.ofText marker) depth' outer' (annotated (.node false) outer v) = .ok e := by
  induction depth generalizing depth' outer outer' v e with
  | zero => cases h
  | succ depth ih =>
    obtain ⟨depth', rfl⟩ := Value.exists_step hdepth'
    cases v with
    | scalar s => exact (node_scalar_eq_ok_iff hview').mpr ((node_scalar_eq_ok_iff hview).mp h)
    | list items =>
      rw [Document.node, hview.level_eq] at h
      rw [annotated] at hreach' ⊢
      have hcommand : (telling outer [(.text "command", .list items)]).find? "command"
          = some (.list items) := rfl
      refine (node_mapping_eq_ok_iff hview').mpr ⟨.command, isOfKind_command outer items,
        (ofKind_command_eq_ok_iff hview').mpr ⟨items, hcommand, ?_⟩⟩
      show view'.command outer items = .ok e
      rw [← command_eq hview hview' fun w hw => ?_]
      · exact h
      · have hheight := Value.height_lt_list hw
        have hheight' := Value.height_lt_mapping_list (Entries.mem_of_find? hcommand) hw
        exact ⟨by omega, by omega⟩
    | mapping entries =>
      obtain ⟨kind, hof, h⟩ := (node_mapping_eq_ok_iff hview).mp h
      have hannotated : annotated (.node false) outer (.mapping entries)
          = .mapping (telling ((ownLine entries).getD outer)
            (annotatedEntries (kindParts kind) ((ownLine entries).getD outer) entries)) := by
        rw [annotated, Place.parts, kinds_eq_singleton_iff.mpr hof.kinds]
        rfl
      rw [hannotated] at hdepth' hreach' ⊢
      refine (node_mapping_eq_ok_iff hview').mpr ⟨kind, hof.telling, ?_⟩
      rw [ownLine_telling]
      exact ofKind_annotated hview hview' rfl hreach hreach'
        (fun _ _ _ _ hw hw' hnode => ih (by omega) (by omega) (by omega) hnode _) h
    | tuple members | set members =>
      rw [Document.node, hview.level_eq] at h
      cases h

end

/-! ## 5. Documents -/

/-- **The lines of a tree are those in force in its document**: of the commands and the loops over
    collections in the tree, one after the other, each has the line of the innermost mapping that its
    place lies in, or that is its place, and that tells one, and the line of the start if there is none.
    So the annotated document gives the same tree, whatever line it starts at; and so does every
    document that shares parts and shows the same. -/
theorem lineNumbers_of_build {v : Value} {marker : Text} {start : Int} {e : Expr}
    (h : build (.ofText marker) start v = .ok e) :
    e.lineNumbers = (visits (.node false) [] v).flatMap (Visit.lineNumbers start) ∧
      (∀ line, build (.ofText marker) line (annotated (.node false) start v) = .ok e) ∧
      ∀ g : Graph, g.view.Shows g.root v → tree g.view (.ofText marker) start g.root = .ok e := by
  refine ⟨lineNumbers_of_node v.isTree_view h, fun line => ?_, fun g hg => ?_⟩
  · exact node_annotated v.isTree_view (Value.isTree_view _) (Nat.le_refl _) (Nat.le_succ _)
      (Nat.le_refl _) h line
  · rw [Graph.tree_eq_build hg, h]

/-- A clause with a line of its own, a loop with another one, and a clause with none. -/
theorem lineNumbers_of_build_choice :
    let word (t : String) : Value := .ofText t
    let v := Value.mapping [
      (.text "if", .list [
        .mapping [
          (.text "when", .list [.list [word "get", word "x"]]), (.text "line", .scalar (.int 4)),
          (.text "then", .mapping [
            (.text "for", word "xs"), (.text "do", .list [word "say", .list [word "up", word "x"]]),
            (.text "line", .scalar (.int 6))])],
        .mapping [(.text "then", .list [word "bye"])]]),
      (.text "line", .scalar (.int 2))]
    ∃ e, build (.ofText "not") 1 v = .ok e ∧ e.lineNumbers = [4, 6, 6, 6, 2] ∧
      build (.ofText "not") 9 (annotated (.node false) 1 v) = .ok e := by
  intro word v
  have hbuild : build (.ofText "not") 1 v = .ok (.choice [
      (.condition false [.command 4 (.string "get") [.string "x"]],
        .forEach 6 (.string "xs") (.command 6 (.string "say")
          [.command 6 (.string "up") [.string "x"]]) none none),
      (.condition false [], .command 2 (.string "bye") [])]) := rfl
  obtain ⟨hlines, hannotated, -⟩ := lineNumbers_of_build hbuild
  exact ⟨_, hbuild, hlines.trans (by decide +kernel), hannotated 9⟩

end Document

end TemplateTree
