import TemplateTree.Proofs.Document.Faults
import TemplateTree.Proofs.Document.Sharing

/-!
# What is refused

Each rule of the building is refused for the first fault of what it is given, and gives a result if
there is none (`Reports`). So a document whose integers can all be written is refused for the first
of its faults, at the line in force there.
-/

namespace TemplateTree.Document

/-! ## 1. Reports -/

/-- **A computation reports faults**: it is refused for the first of them, and gives a result if there are
    none. -/
def Reports {β : Type} (x : Except Failure β) : List CompileError → Prop
  | [] => ∃ b, x = .ok b
  | e :: _ => x = .error (.refused e)

namespace Reports

variable {α β γ : Type} {x : Except Failure β} {fs gs : List CompileError}

theorem ok (b : β) : Reports (.ok b) [] := ⟨b, rfl⟩

theorem refusal (line : Int) (cause : Cause) :
    Reports (.error (.refusal line cause) : Except Failure β) [⟨cause, line⟩] := rfl

/-- The faults of the second step come after those of the first. -/
theorem bind {f : β → Except Failure γ} (hx : Reports x fs)
    (hf : ∀ b, x = .ok b → Reports (f b) gs) : Reports (x >>= f) (fs ++ gs) := by
  cases fs with
  | nil =>
    obtain ⟨b, rfl⟩ := hx
    exact hf b rfl
  | cons e fs =>
    obtain rfl : x = .error (.refused e) := hx
    rfl

theorem map {f : β → γ} (hx : Reports x fs) : Reports (f <$> x) fs := by
  cases fs with
  | nil =>
    obtain ⟨b, rfl⟩ := hx
    exact .ok (f b)
  | cons e fs =>
    obtain rfl : x = .error (.refused e) := hx
    rfl

/-- A row reports the faults of its members in turn. -/
theorem mapM {f : α → Except Failure β} {fault : α → List CompileError} {as : List α}
    (h : ∀ a ∈ as, Reports (f a) (fault a)) : Reports (as.mapM f) (as.flatMap fault) := by
  induction as with
  | nil => exact .ok []
  | cons a as ih =>
    rw [List.mapM_cons, List.flatMap_cons]
    refine (h a List.mem_cons_self).bind fun b _ => ?_
    exact (ih fun x hx => h x (List.mem_cons_of_mem a hx)).map (f := (b :: ·))

/-- A row that may not be empty reports that, or the faults of its members in turn. -/
theorem row {f : α → Except Failure β} {fault : α → List CompileError} {as : List α}
    {g : List β → Except Failure γ} {line : Int} {cause : Cause}
    (h : ∀ a ∈ as, Reports (f a) (fault a)) (hnil : g [] = .error (.refusal line cause))
    (hcons : ∀ b bs, ∃ c, g (b :: bs) = .ok c) :
    Reports (as.mapM f >>= g) ((if as.isEmpty then [⟨cause, line⟩] else []) ++ as.flatMap fault) := by
  cases as with
  | nil =>
    show Reports (g []) _
    rw [hnil]
    exact .refusal line cause
  | cons a as =>
    rw [List.isEmpty_cons, if_neg Bool.false_ne_true, List.nil_append]
    rw [← List.append_nil (List.flatMap _ _)]
    refine (mapM h).bind fun bs hbs => ?_
    obtain ⟨b, rest, -, -, rfl⟩ := exists_of_mapM_cons hbs
    obtain ⟨c, hc⟩ := hcons b rest
    exact hc ▸ .ok c

/-- The refusals and the results of a computation, by the faults that it reports. -/
theorem iff (h : Reports x fs) :
    (∀ e, x = .error (.refused e) ↔ fs.head? = some e) ∧ ((∃ b, x = .ok b) ↔ fs = []) := by
  cases fs with
  | nil =>
    obtain ⟨b, rfl⟩ := h
    simp
  | cons e fs =>
    obtain rfl : x = .error (.refused e) := h
    simp

end Reports

/-- A value whose integers can be written, and that a view reaches. -/
structure Covers (view : View Value) (v : Value) : Prop where
  writable : v.Writable
  reached : v.height ≤ view.reach

theorem Covers.item {view : View Value} {items : List Value} (h : Covers view (.list items)) {v : Value}
    (hv : v ∈ items) : Covers view v :=
  ⟨h.writable.item hv, Nat.le_trans (Nat.le_of_lt (Value.height_lt_list hv)) h.reached⟩

theorem Covers.entry {view : View Value} {entries : Entries Value} (h : Covers view (.mapping entries))
    {key : Text} {v : Value} (hv : entries.find? key = some v) : Covers view v :=
  have hmem := Entries.mem_of_find? hv
  ⟨h.writable.entry hmem, Nat.le_trans (Nat.le_of_lt (Value.height_lt_mapping hmem)) h.reached⟩

/-! ## 2. Tokens -/

/-- A scalar that can be written counts as a text exactly if it is a literal. -/
theorem isSome_tokenText? (raw : Bool) {s : Scalar} (hs : s.isWritable = true) :
    (s.tokenText? raw).isSome = isLiteral raw s := by
  cases s with
  | int n =>
    cases raw with
    | false =>
      rw [Scalar.isWritable] at hs
      rw [Scalar.tokenText?, Decimal.ofInt?, if_pos hs]
      rfl
    | true => rfl
  | _ => cases raw <;> rfl

theorem numberText?_ne {s : Scalar} (hs : s.isWritable = true) : s.numberText? ≠ some none := by
  cases s with
  | int n =>
    rw [Scalar.isWritable] at hs
    rw [Scalar.numberText?, Decimal.ofInt?, if_pos hs]
    simp
  | _ => simp [Scalar.numberText?]

/-- A row of tokens is a command, if it is not empty. -/
theorem reports_commandOf {start line : Int} {around : List (Entries Value)} {place : Place}
    (hplace : place.whenEmpty = some .emptyCommand) {raw : Bool} {items : List Value}
    {expr : Bool × Value → Except Failure Expr}
    (h : ∀ w ∈ items, Reports (expr (raw, w)) (faults start (.token raw) around w)) :
    Reports ((items.map ((raw, ·))).mapM expr >>= Tokens.commandOf line)
      (emptyFaults place line items ++ items.flatMap (faults start (.token raw) around)) := by
  have htokens : ∀ t ∈ items.map ((raw, ·)),
      Reports (expr t) (faults start (.token t.1) around t.2) := by
    intro t ht
    obtain ⟨w, hw, rfl⟩ := List.mem_map.mp ht
    exact h w hw
  have hrow := Reports.row (g := Tokens.commandOf line) htokens rfl fun e es => ⟨_, rfl⟩
  rw [List.isEmpty_map, List.flatMap_map] at hrow
  rw [emptyFaults, hplace]
  exact hrow

section

variable {view : View Value} (hview : view.IsTree) {start : Int} {around : List (Entries Value)}

include hview

/-- **A token is refused for its first fault.** -/
theorem reports_expr {v : Value} (hv : v.Writable) {raw : Bool} {depth : Nat}
    (hdepth : v.height ≤ depth) :
    Reports (Tokens.expr view.token depth (lineInForce start around) (raw, v))
      (faults start (.token raw) around v) := by
  induction depth generalizing v raw with
  | zero => exact absurd hdepth (Nat.not_le.mpr v.height_pos)
  | succ depth ih =>
    rw [Tokens.expr]
    cases v with
    | scalar s =>
      have hadmits : (s.tokenText? raw).isSome = (Place.token raw).admits s :=
        isSome_tokenText? raw (hv _ (Value.mem_parts_self _))
      cases htext : s.tokenText? raw with
      | some t =>
        rw [htext] at hadmits
        rw [View.token_of_text (hview.level_eq _) htext, faults_scalar_of_admits _ _ hadmits.symm]
        exact .ok _
      | none =>
        rw [htext] at hadmits
        rw [View.token_of_other (hview.level_eq _) htext,
          faults_scalar_of_not_admits _ _ hadmits.symm]
        exact .refusal _ _
    | list items =>
      rw [faults_list _ _ rfl]
      simp only [View.token, hview.level_eq, Value.level]
      exact reports_commandOf rfl fun w hw => by
        have hlower := Value.height_lt_list hw
        exact ih (hv.item hw) (by omega)
    | tuple members =>
      rw [faults_tuple _ _ rfl]
      simp only [View.token, hview.level_eq, Value.level]
      exact reports_commandOf rfl fun w hw => by
        have hlower := Value.height_lt_tuple hw
        exact ih (hv.member hw) (by omega)
    | mapping entries | set members =>
      simp only [View.token, hview.level_eq, Value.level]
      exact .refusal _ _

/-- What is taken for the marker of negations is a token. -/
theorem faults_of_isEqual {marker : Text} {v : Value} (hv : v.Writable)
    (h : view.isEqual false v (.ofText marker) = true) : faults start (.token false) around v = [] := by
  rw [Value.ofText, View.isEqual, hview.level_eq] at h
  cases v with
  | scalar s =>
    have htext : s.tokenText? false = some marker := (View.countsAs_text_iff ..).mp h
    have hadmits := isSome_tokenText? false (hv _ (Value.mem_parts_self _))
    rw [htext] at hadmits
    exact faults_scalar_of_admits _ _ hadmits.symm
  | _ => cases h

theorem checkNumbers_eq_ok {v : Value} (hv : v.Writable) {depth : Nat} (hdepth : v.height ≤ depth) :
    view.checkNumbers depth v = .ok () := by
  induction depth generalizing v with
  | zero => exact absurd hdepth (Nat.not_le.mpr v.height_pos)
  | succ depth ih =>
    cases v with
    | scalar s =>
      simp only [View.checkNumbers, hview.level_eq, Value.level]
      rw [if_neg (numberText?_ne (hv _ (Value.mem_parts_self _)))]
    | list items =>
      simp only [View.checkNumbers, hview.level_eq, Value.level]
      exact forM_eq_ok fun w hw => by
        have hlower := Value.height_lt_list hw
        exact ih (hv.item hw) (by omega)
    | tuple members | mapping entries | set members =>
      simp only [View.checkNumbers, hview.level_eq, Value.level]

section

variable {items : List Value} (hitems : ∀ w ∈ items, Covers view w)

include hitems

theorem tokens_eq_ok : view.tokens items = .ok (items.map ((false, ·))) := by
  have hnumbers : items.forM (view.checkNumbers (view.reach + 1)) = .ok () :=
    forM_eq_ok fun w hw => checkNumbers_eq_ok hview (hitems w hw).writable
      (Nat.le_succ_of_le (hitems w hw).reached)
  rw [View.tokens, hnumbers]
  rfl

theorem reports_item {w : Value} (hw : w ∈ items) :
    Reports (Tokens.expr view.token view.tokenDepth (lineInForce start around) (false, w))
      (faults start (.token false) around w) := by
  obtain ⟨hwritable, hreached⟩ := hitems w hw
  exact reports_expr hview hwritable (by rw [View.tokenDepth]; omega)

/-- A command is refused for its first fault. -/
theorem reports_command {place : Place} (hplace : place.whenEmpty = some .emptyCommand) :
    Reports (view.command (lineInForce start around) items)
      (emptyFaults place (lineInForce start around) items
        ++ items.flatMap (faults start (.token false) around)) := by
  rw [View.command, tokens_eq_ok hview hitems, ok_bind]
  exact reports_commandOf hplace fun w hw => reports_item hview hitems hw

/-- A test is refused for its first fault. -/
theorem reports_tokensCondition (marker : Text) :
    Reports (Tokens.condition view.token view.tokenDepth
        (fun t => view.isEqual t.1 t.2 (.ofText marker)) (lineInForce start around)
        (items.map ((false, ·))))
      (items.flatMap (faults start (.token false) around)) := by
  have hrow {ws : List Value} (hws : ∀ w ∈ ws, w ∈ items) (negated : Bool) :
      Reports (Expr.condition negated <$> (ws.map ((false, ·))).mapM
          (Tokens.expr view.token view.tokenDepth (lineInForce start around)))
        (ws.flatMap (faults start (.token false) around)) := by
    have htokens : ∀ t ∈ ws.map ((false, ·)),
        Reports (Tokens.expr view.token view.tokenDepth (lineInForce start around) t)
          (faults start (.token t.1) around t.2) := by
      intro t ht
      obtain ⟨w, hw, rfl⟩ := List.mem_map.mp ht
      exact reports_item hview hitems (hws w hw)
    have hmapM := Reports.mapM htokens
    rw [List.flatMap_map] at hmapM
    exact hmapM.map
  cases items with
  | nil => exact .ok _
  | cons first rest =>
    rw [List.map_cons, Tokens.condition]
    by_cases hmarker : view.isEqual false first (.ofText marker) = true
    · have hfirst : faults start (.token false) around first = [] :=
        faults_of_isEqual hview (hitems first List.mem_cons_self).writable hmarker
      rw [if_pos hmarker, List.flatMap_cons, hfirst, List.nil_append]
      exact hrow (fun w hw => List.mem_cons_of_mem _ hw) true
    · rw [if_neg hmarker]
      exact hrow (fun w hw => hw) false

end

/-! ## 3. Nodes -/

/-- What is done with a list reports its faults, at a place that is for lists. -/
theorem reports_listItems {β : Type} {place : Place} {cause : Cause} {v : Value}
    {f : List Value → Except Failure β} (hplace : place.notList? = some cause)
    (hscalar : ∀ s, v = .scalar s → place.admits s = false)
    (hf : ∀ items, v = .list items → Reports (f items) (faults start place around v)) :
    Reports (listItems view (lineInForce start around) cause (some v) >>= f)
      (faults start place around v) := by
  have hother (hlist : ∀ items, v ≠ .list items)
      (hitems : listItems view (lineInForce start around) cause (some v)
        = .error (.refusal (lineInForce start around) cause)) :
      Reports (listItems view (lineInForce start around) cause (some v) >>= f)
        (faults start place around v) := by
    rw [hitems, faults_of_notList _ _ hplace hlist hscalar]
    exact .refusal _ _
  cases v with
  | list items =>
    rw [listItems_list hview.level, ok_bind]
    exact hf items rfl
  | _ => exact hother (fun _ h => by cases h) (by simp only [listItems, hview.level_eq, Value.level])

/-- The same for the list under a key. -/
theorem reports_listItems_find? {β : Type} {place : Place} {cause : Cause} {key : Text} {v : Value}
    {entries : Entries Value} {f : List Value → Except Failure β}
    (hplace : place.notList? = some cause) (hscalar : ∀ s, place.admits s = false)
    (hv : entries.find? key = some v)
    (hf : ∀ items, v = .list items → Reports (f items) (faults start place around v)) :
    Reports (listItems view (lineInForce start around) cause (entries.find? key) >>= f)
      (faultsUnder start around key place entries ++ []) := by
  rw [List.append_nil, faultsUnder, hv]
  exact reports_listItems hview hplace (fun s _ => hscalar s) hf

theorem given_null : given view (some .null) = none := by
  simp only [given, hview.level_eq, Value.null, Value.level]

theorem given_of_ne_null {v : Value} (hv : v ≠ .null) : given view (some v) = some v := by
  rw [given, hview.level_eq]
  cases v with
  | scalar s =>
    cases s with
    | null => exact absurd rfl hv
    | _ => rfl
  | _ => rfl

theorem reports_condition {marker : Text} {v? : Option Value}
    (hv : ∀ v, v? = some v → Covers view v) :
    Reports (condition view (.ofText marker) (lineInForce start around) v?)
      (v?.elim [] (faults start .test around)) := by
  cases v? with
  | none => exact .ok _
  | some v =>
    rw [Option.elim_some]
    by_cases hnull : v = .null
    · subst hnull
      rw [condition, given_null hview, Value.null, faults_scalar_of_admits _ _ rfl]
      exact .ok _
    · rw [condition, given_of_ne_null hview hnull]
      refine reports_listItems hview rfl (fun s hs => ?_) fun items hitems => ?_
      · exact beq_eq_false_iff_ne.mpr fun h => hnull (hs ▸ h ▸ rfl)
      · subst hitems
        have hbelow : ∀ w ∈ items, Covers view w := fun w hw => (hv _ rfl).item hw
        rw [faults_list _ _ rfl, tokens_eq_ok hview hbelow, ok_bind]
        have hempty : emptyFaults .test (lineInForce start around) items = [] := by
          cases items <;> rfl
        rw [hempty, List.nil_append]
        exact reports_tokensCondition hview hbelow marker

/-- A value that a view of values reaches is shown there as by itself. -/
theorem display_eq {v : Value} (hreach : v.height ≤ view.reach) : view.display v = v.display :=
  (hview.shows v).displayWithin_eq hview.faithful v.isTree_view (Nat.le_succ_of_le hreach)
    (Nat.le_succ _) (by simp [View.Above]) []

/-- A `line` that is there is read if it is an integer, and is then the line inside its mapping. -/
theorem lineInside_eq_ok_iff {entries : Entries Value} {outer line : Int} :
    lineInside view outer entries = .ok line ↔ HasLine entries ∧ (ownLine entries).getD outer = line := by
  cases hline : entries.find? "line" with
  | none => simp [lineInside, HasLine, ownLine, hline]
  | some v =>
    by_cases hint : ∃ n, v = .scalar (.int n)
    · obtain ⟨n, rfl⟩ := hint
      rw [lineInside_of_int hline (hview.level_eq _)]
      simp [HasLine, ownLine, hline]
    · rw [lineInside_of_other hline fun n hn => hint ⟨n, hview.level_eq_scalar_iff.mp hn⟩]
      simp [HasLine, hline, hint]

theorem reports_lineInside {entries : Entries Value} (h : Covers view (.mapping entries))
    (outer : Int) : Reports (lineInside view outer entries) (lineFaults outer entries) := by
  cases hline : entries.find? "line" with
  | none =>
    rw [lineInside, lineFaults, hline]
    exact .ok _
  | some v =>
    by_cases hint : ∃ n, v = .scalar (.int n)
    · obtain ⟨n, rfl⟩ := hint
      rw [lineInside_of_int hline (hview.level_eq _), lineFaults, hline]
      exact .ok _
    · obtain ⟨hwritable, hreached⟩ := h.entry hline
      obtain ⟨shown, hshown⟩ : ∃ shown, v.display = some shown :=
        v.isTree_view.exists_display hwritable _ _
      rw [lineInside_of_other hline fun n hn => hint ⟨n, hview.level_eq_scalar_iff.mp hn⟩,
        lineFaults_of_other outer hline (not_exists.mp hint), display_eq hview hreached, hshown]
      exact .refusal _ _

omit hview in
theorem reports_checkKeys {kind : Text} {allowed : List Text} {line : Int} {entries : Entries Value}
    (hwritable : (Value.mapping entries).Writable) :
    Reports (entries.checkKeys kind allowed line) (keyFaults kind allowed line entries) := by
  have hplain : ∀ k ∈ (entries.map Prod.fst).filter fun k => !Entries.isAmong allowed k,
      ∃ t, k.plain = some t := by
    intro k hk
    obtain ⟨e, he, rfl⟩ := List.mem_map.mp (List.mem_of_mem_filter hk)
    exact Scalar.exists_plain (hwritable.key he)
  rw [Entries.checkKeys, keyFaults]
  generalize (entries.map Prod.fst).filter (fun k => !Entries.isAmong allowed k) = unknown at hplain
  cases unknown with
  | nil => exact .ok ()
  | cons k ks =>
    dsimp only
    rw [mapM_eq_some_filterMap hplain]
    exact .refusal _ _

section

variable {marker : Text} {node : Int → Value → Except Failure Expr} {entries : Entries Value}

theorem reports_optional {key : Text}
    (hnode : ∀ v, entries.find? key = some v →
      Reports (node (lineInForce start around) v) (faults start (.node false) around v)) :
    Reports ((given view (entries.find? key)).mapM (node (lineInForce start around)))
      (faultsUnder start around key (.node true) entries) := by
  rw [faultsUnder]
  cases hv : entries.find? key with
  | none => exact .ok none
  | some v =>
    rw [Option.elim_some]
    by_cases hnull : v = .null
    · rw [hnull, given_null hview, Value.null, faults_scalar_of_admits _ _ rfl]
      exact .ok none
    · rw [given_of_ne_null hview hnull, faults_optional _ _ hnull]
      exact (hnode v hv).map

/-- A clause that is a mapping is refused for its first fault, if its branch is. -/
theorem reports_clause_mapping (hcovers : Covers view (.mapping entries))
    (hnode : ∀ v, entries.find? "then" = some v → ∀ around,
      Reports (node (lineInForce start around) v) (faults start (.node false) around v)) :
    Reports (clause view (.ofText marker) node (lineInForce start around) (.mapping entries))
      (faults start .clause around (.mapping entries)) := by
  have hfaults : faults start .clause around (.mapping entries)
      = clauseFaults (lineInForce start around) (lineInForce start (entries :: around)) entries ++
        (faultsUnder start (entries :: around) "when" .test entries ++
          (faultsUnder start (entries :: around) "then" (.node false) entries ++ [])) :=
    faults_mapping ..
  rw [hfaults, clauseFaults, clause, hview.level_eq, Entries.has]
  dsimp only [Value.level]
  cases hthen : entries.find? "then" with
  | none => exact .refusal _ _
  | some branch =>
    simp only [Option.isSome_some, if_true, List.nil_append, List.append_nil, List.append_assoc]
    refine (reports_lineInside hview hcovers _).bind fun line hline => ?_
    obtain ⟨-, rfl⟩ := (lineInside_eq_ok_iff hview).mp hline
    rw [← lineInForce_cons]
    refine (reports_checkKeys hcovers.writable).bind fun _ _ => ?_
    refine (reports_condition hview fun v hv => hcovers.entry hv).bind fun test _ => ?_
    rw [faultsUnder, hthen]
    exact (hnode branch hthen _).map

variable {v : Value} (hcovers : Covers view v)
  (hnode : ∀ w around, w.height < v.height → Covers view w →
    Reports (node (lineInForce start around) w) (faults start (.node false) around w))

include hcovers hnode

/-- A clause is refused for its first fault, if the nodes below are. -/
theorem reports_clause :
    Reports (clause view (.ofText marker) node (lineInForce start around) v)
      (faults start .clause around v) := by
  cases v with
  | mapping entries =>
    exact reports_clause_mapping hview hcovers fun w hw around =>
      hnode w around (Value.height_lt_mapping (Entries.mem_of_find? hw)) (hcovers.entry hw)
  | list items =>
    rw [faults_list_of_none _ _ rfl, clause, hview.level_eq]
    exact .refusal _ _
  | tuple members =>
    rw [faults_tuple_of_none _ _ rfl, clause, hview.level_eq]
    exact .refusal _ _
  | scalar s | set members =>
    rw [clause, hview.level_eq]
    exact .refusal _ _

/-- A mapping of a kind is refused for the first fault inside it, if the nodes below are. -/
theorem reports_ofKind {entries : Entries Value} (hv : v = .mapping entries) {kind : NodeKind}
    (hkind : entries.has kind.key = true) :
    Reports (ofKind view (.ofText marker) node (lineInForce start around) kind entries)
      (bodyFaults kind (lineInForce start around) entries ++
        (kindParts kind).flatMap fun part => faultsUnder start around part.1 part.2 entries) := by
  subst hv
  obtain ⟨payload, hpayload⟩ := Option.isSome_iff_exists.mp hkind
  have hpart {key : Text} {w : Value} (hw : entries.find? key = some w) (around : List (Entries Value)) :
      Reports (node (lineInForce start around) w) (faults start (.node false) around w) :=
    hnode w around (Value.height_lt_mapping (Entries.mem_of_find? hw)) (hcovers.entry hw)
  have hitem {items : List Value} (hitems : payload = .list items) :
      ∀ w ∈ items, w.height < (Value.mapping entries).height ∧ Covers view w := by
    intro w hw
    subst hitems
    exact ⟨Value.height_lt_mapping_list (Entries.mem_of_find? hpayload) hw,
      (hcovers.entry hpayload).item hw⟩
  have hbody (h : withoutBody? kind = none) :
      bodyFaults kind (lineInForce start around) entries = [] := by
    rw [bodyFaults, h]
    split <;> rfl
  cases kind with
  | command =>
    rw [hbody rfl, ofKind]
    refine reports_listItems_find? hview rfl (fun _ => rfl) hpayload fun items hitems => ?_
    rw [hitems, faults_list _ _ rfl]
    exact reports_command hview (fun w hw => (hitem hitems w hw).2) rfl
  | block =>
    rw [hbody rfl, ofKind]
    refine reports_listItems_find? hview rfl (fun _ => rfl) hpayload fun items hitems => ?_
    rw [hitems, faults_list _ _ rfl]
    exact .row (fun w hw => hnode w around (hitem hitems w hw).1 (hitem hitems w hw).2) rfl
      fun first rest => ⟨_, rfl⟩
  | choice =>
    rw [hbody rfl, ofKind]
    refine reports_listItems_find? hview rfl (fun _ => rfl) hpayload fun items hitems => ?_
    have hempty : emptyFaults .choice (lineInForce start around) items = [] := by
      cases items <;> rfl
    rw [hitems, faults_list _ _ rfl, hempty, List.nil_append]
    refine (Reports.mapM fun w hw => ?_).map
    exact reports_clause hview (hitem hitems w hw).2 fun u around hu =>
      hnode u around (Nat.lt_trans hu (hitem hitems w hw).1)
  | forEach =>
    rw [bodyFaults, Entries.has, ofKind]
    have hpayload : entries.find? "for" = some payload := hpayload
    rw [hpayload]
    cases hdo : entries.find? "do" with
    | none => exact .refusal _ _
    | some body =>
      show Reports _ (faultsUnder start around "for" (.node false) entries ++
        (faultsUnder start around "do" (.node false) entries ++
          (faultsUnder start around "as" (.node true) entries ++
            (faultsUnder start around "index" (.node true) entries ++ []))))
      rw [faultsUnder, hpayload, faultsUnder, hdo]
      refine (hpart hpayload around).bind fun _ _ => (hpart hdo around).bind fun _ _ => ?_
      refine (reports_optional hview fun w hw => hpart hw around).bind fun element _ => ?_
      exact (reports_optional hview fun w hw => hpart hw around).bind fun position _ => .ok _
  | whileLoop =>
    rw [bodyFaults, Entries.has, ofKind]
    cases hdo : entries.find? "do" with
    | none => exact .refusal _ _
    | some body =>
      show Reports _ (faultsUnder start around "while" .test entries ++
        (faultsUnder start around "do" (.node false) entries ++ []))
      refine (reports_condition hview fun w hw => hcovers.entry hw).bind fun test _ => ?_
      rw [faultsUnder, hdo]
      exact (hpart hdo around).bind fun body _ => .ok _

omit hcovers hnode in
/-- **A node is refused for its first fault.** -/
theorem reports_node (hcovers : Covers view v) {depth : Nat} (hdepth : v.height ≤ depth) :
    Reports (Document.node view (.ofText marker) depth (lineInForce start around) v)
      (faults start (.node false) around v) := by
  induction depth generalizing v around with
  | zero => exact absurd hdepth (Nat.not_le.mpr v.height_pos)
  | succ depth ih =>
    cases v with
    | scalar s =>
      have hliteral := isSome_tokenText? false (hcovers.writable _ (Value.mem_parts_self _))
      cases htext : s.tokenText? false with
      | some t =>
        rw [htext] at hliteral
        rw [node_of_text (hview.level_eq _) htext,
          faults_scalar_of_admits _ _ (by rw [Place.admits, ← hliteral]; rfl)]
        exact .ok _
      | none =>
        rw [htext] at hliteral
        rw [faults_scalar_of_not_admits _ _ (by rw [Place.admits, ← hliteral]; rfl),
          Document.node, hview.level_eq]
        cases s with
        | text | int | float => cases hliteral
        | _ => exact .refusal _ _
    | list items =>
      rw [faults_list _ _ rfl, Document.node, hview.level_eq]
      exact reports_command hview (fun w hw => hcovers.item hw) rfl
    | tuple members =>
      rw [faults_tuple_of_none _ _ rfl, Document.node, hview.level_eq]
      exact .refusal _ _
    | set members =>
      rw [Document.node, hview.level_eq]
      exact .refusal _ _
    | mapping entries =>
      have hfaults : faults start (.node false) around (.mapping entries)
          = nodeFaults (lineInForce start around) (lineInForce start (entries :: around)) entries ++
            (Place.parts entries (.node false)).flatMap fun part =>
              faultsUnder start (entries :: around) part.1 part.2 entries :=
        faults_mapping ..
      rw [hfaults, nodeFaults, Document.node, hview.level_eq, List.append_assoc]
      refine (reports_lineInside hview hcovers _).bind fun line hline => ?_
      obtain ⟨-, rfl⟩ := (lineInside_eq_ok_iff hview).mp hline
      rw [← lineInForce_cons, Place.parts]
      generalize hkinds : Entries.kinds entries = kinds
      cases kinds with
      | nil => exact .refusal _ _
      | cons kind others =>
        cases others with
        | nil =>
          have hkind := (kinds_eq_singleton_iff.mp hkinds kind).mpr rfl
          rw [List.append_assoc]
          refine (reports_checkKeys hcovers.writable).bind fun _ _ => ?_
          exact reports_ofKind hview hcovers (fun w around hlower hw => ih hw (by omega)) rfl hkind
        | cons => exact .refusal _ _

end

end

/-! ## 4. Documents -/

theorem reports_build {v : Value} (hv : v.Writable) (marker : Text) (line : Int) :
    Reports (build (.ofText marker) line v) (faults line (.node false) [] v) :=
  reports_node v.isTree_view ⟨hv, Nat.le_refl _⟩ (Nat.le_succ _)

/-- **A document is refused for the first of its faults, at the line in force there**, and a tree is
    built out of it if it has none; whatever the marker of negations is, and whether or not it shares
    parts. -/
theorem build_refused_iff {v : Value} (hv : v.Writable) (marker : Text) (line : Int) :
    (∀ e, build (.ofText marker) line v = .error (.refused e) ↔
      (faults line (.node false) [] v).head? = some e) ∧
    ((∃ t, build (.ofText marker) line v = .ok t) ↔ faults line (.node false) [] v = []) ∧
    ∀ g : Graph, g.view.Shows g.root v →
      tree g.view (.ofText marker) line g.root = build (.ofText marker) line v := by
  obtain ⟨hrefused, hok⟩ := (reports_build hv marker line).iff
  exact ⟨hrefused, hok, fun g hg => Graph.tree_eq_build hg marker line⟩

/-- The empty command is refused before the null behind it, at the line of its own mapping. -/
theorem build_refused_block :
    let v := Value.mapping [
      (.text "block", .list [
        .mapping [(.text "command", .list [.ofText "say", .list []]), (.text "line", .scalar (.int 5))],
        .null]),
      (.text "line", .scalar (.int 3))]
    v.Writable ∧ faults 1 (.node false) [] v = [⟨.emptyCommand, 5⟩, ⟨.notNode "NoneType", 3⟩] ∧
      build (.ofText "not") 1 v = .error (.refused ⟨.emptyCommand, 5⟩) := by
  intro v
  have hv : v.Writable := by decide +kernel
  have hfaults : faults 1 (.node false) [] v = [⟨.emptyCommand, 5⟩, ⟨.notNode "NoneType", 3⟩] := by
    decide +kernel
  refine ⟨hv, hfaults, ((build_refused_iff hv "not" 1).1 _).mpr ?_⟩
  rw [hfaults]
  rfl

end TemplateTree.Document
