import TemplateTree.Proofs.Document.Refusal

/-!
# The grammar of documents

The values out of which trees are built are the nodes of a grammar (`IsNode`), with the tokens of
commands and tests (`IsToken`, `IsTest`) and the clauses of choices (`IsClause`). A value has no fault at
a place exactly if it fits there (`faults_eq_nil_iff`), so a document is accepted exactly if it is a
node.
-/

namespace TemplateTree.Document

/-! ## 1. The grammar -/

/-- **A token.** A text is one, and a number is one unless it is taken as it is, as the members of a tuple
    are and what stands in them. -/
inductive IsToken : (raw : Bool) → Value → Prop
  | literal {raw : Bool} {s : Scalar} (hs : isLiteral raw s = true) : IsToken raw (.scalar s)
  | list {raw : Bool} {items : List Value} (hne : items ≠ []) (hitems : ∀ v ∈ items, IsToken raw v) :
      IsToken raw (.list items)
  | tuple {raw : Bool} {members : List Value} (hne : members ≠ [])
      (hmembers : ∀ v ∈ members, IsToken true v) : IsToken raw (.tuple members)

/-- The tokens of a test; null stands for none. -/
inductive IsTest : Value → Prop
  | null : IsTest .null
  | list {items : List Value} (hitems : ∀ v ∈ items, IsToken false v) : IsTest (.list items)

/-- Every key is one of some texts. -/
def HasKeys (allowed : List Text) (entries : Entries Value) : Prop :=
  ∀ e ∈ entries, ∃ key ∈ allowed, e.1 = .text key

/-- The keys of a mapping of a kind: of those that name kinds it has that of its own alone. -/
structure IsOfKind (kind : NodeKind) (entries : Entries Value) : Prop where
  line : HasLine entries
  kinds : ∀ k : NodeKind, entries.has k.key = true ↔ k = kind
  keys : HasKeys kind.allowed entries

mutual

/-- **A node.** -/
inductive IsNode : Value → Prop
  | literal {s : Scalar} (hs : isLiteral false s = true) : IsNode (.scalar s)
  | list {items : List Value} (hne : items ≠ []) (hitems : ∀ v ∈ items, IsToken false v) :
      IsNode (.list items)
  | command {entries : Entries Value} {items : List Value} (hentries : IsOfKind .command entries)
      (hcommand : entries.find? "command" = some (.list items)) (hne : items ≠ [])
      (hitems : ∀ v ∈ items, IsToken false v) : IsNode (.mapping entries)
  | block {entries : Entries Value} {items : List Value} (hentries : IsOfKind .block entries)
      (hblock : entries.find? "block" = some (.list items)) (hne : items ≠ [])
      (hitems : ∀ v ∈ items, IsNode v) : IsNode (.mapping entries)
  | choice {entries : Entries Value} {clauses : List Value} (hentries : IsOfKind .choice entries)
      (hif : entries.find? "if" = some (.list clauses)) (hclauses : ∀ v ∈ clauses, IsClause v) :
      IsNode (.mapping entries)
  | forEach {entries : Entries Value} {iterable body : Value} (hentries : IsOfKind .forEach entries)
      (hfor : entries.find? "for" = some iterable) (hiterable : IsNode iterable)
      (hdo : entries.find? "do" = some body) (hbody : IsNode body)
      (helement : ∀ v, entries.find? "as" = some v → v ≠ .null → IsNode v)
      (hposition : ∀ v, entries.find? "index" = some v → v ≠ .null → IsNode v) :
      IsNode (.mapping entries)
  | whileLoop {entries : Entries Value} {test body : Value} (hentries : IsOfKind .whileLoop entries)
      (hwhile : entries.find? "while" = some test) (htest : IsTest test)
      (hdo : entries.find? "do" = some body) (hbody : IsNode body) : IsNode (.mapping entries)

/-- A clause of a choice. -/
inductive IsClause : Value → Prop
  | mapping {entries : Entries Value} {branch : Value} (hline : HasLine entries)
      (hkeys : HasKeys clauseKeys entries) (htest : ∀ v, entries.find? "when" = some v → IsTest v)
      (hthen : entries.find? "then" = some branch) (hbranch : IsNode branch) :
      IsClause (.mapping entries)

end

/-- What fits at a place. -/
def Place.Fits : Place → Value → Prop
  | node false, v => IsNode v
  | node true, v => v = .null ∨ IsNode v
  | token raw, v => IsToken raw v
  | command, v => ∃ items, v = .list items ∧ items ≠ [] ∧ ∀ w ∈ items, IsToken false w
  | test, v => IsTest v
  | block, v => ∃ items, v = .list items ∧ items ≠ [] ∧ ∀ w ∈ items, IsNode w
  | choice, v => ∃ clauses, v = .list clauses ∧ ∀ w ∈ clauses, IsClause w
  | clause, v => IsClause v

/-! ## 2. Faults of keys -/

theorem isAmong_iff {allowed : List Text} {k : Scalar} :
    Entries.isAmong allowed k = true ↔ ∃ key ∈ allowed, k = .text key := by
  cases k <;> simp [Entries.isAmong]

theorem filter_isAmong_eq_nil_iff {allowed : List Text} {entries : Entries Value} :
    (entries.map Prod.fst).filter (fun k => !Entries.isAmong allowed k) = [] ↔
      HasKeys allowed entries := by
  simp [List.filter_eq_nil_iff, HasKeys, isAmong_iff]

theorem lineFaults_eq_nil_iff {line : Int} {entries : Entries Value} :
    lineFaults line entries = [] ↔ HasLine entries := by
  cases hline : entries.find? "line" with
  | none => simp [lineFaults, HasLine, hline]
  | some v =>
    by_cases hint : ∃ n, v = .scalar (.int n)
    · obtain ⟨n, rfl⟩ := hint
      simp [lineFaults, HasLine, hline]
    · rw [lineFaults_of_other line hline (not_exists.mp hint)]
      simp [HasLine, hline, hint]

theorem keyFaults_eq_nil_iff {kind : Text} {allowed : List Text} {line : Int}
    {entries : Entries Value} :
    keyFaults kind allowed line entries = [] ↔ HasKeys allowed entries := by
  rw [← filter_isAmong_eq_nil_iff, keyFaults]
  generalize (entries.map Prod.fst).filter (fun k => !Entries.isAmong allowed k) = unknown
  cases unknown <;> simp

theorem nodeFaults_eq_nil_iff {outer line : Int} {entries : Entries Value} :
    nodeFaults outer line entries = [] ↔
      ∃ kind, IsOfKind kind entries ∧ entries.kinds = [kind] ∧ bodyFaults kind line entries = [] := by
  rw [nodeFaults, List.append_eq_nil_iff, lineFaults_eq_nil_iff]
  constructor
  · intro h
    obtain ⟨hline, hrest⟩ := h
    generalize hkinds : entries.kinds = kinds at hrest
    cases kinds with
    | nil => cases hrest
    | cons kind others =>
      cases others with
      | nil =>
        obtain ⟨hkeys, hbody⟩ := List.append_eq_nil_iff.mp hrest
        exact ⟨kind, ⟨hline, kinds_eq_singleton_iff.mp hkinds, keyFaults_eq_nil_iff.mp hkeys⟩, rfl,
          hbody⟩
      | cons => cases hrest
  · intro h
    obtain ⟨kind, hof, hkinds, hbody⟩ := h
    refine ⟨hof.line, ?_⟩
    rw [hkinds]
    exact List.append_eq_nil_iff.mpr ⟨keyFaults_eq_nil_iff.mpr hof.keys, hbody⟩

theorem clauseFaults_eq_nil_iff {outer line : Int} {entries : Entries Value} :
    clauseFaults outer line entries = [] ↔
      (∃ branch, entries.find? "then" = some branch) ∧ HasLine entries ∧ HasKeys clauseKeys entries := by
  rw [clauseFaults, List.append_eq_nil_iff, List.append_eq_nil_iff, lineFaults_eq_nil_iff,
    keyFaults_eq_nil_iff, and_assoc, Entries.has]
  cases entries.find? "then" <;> simp

/-! ## 3. What fits, level by level -/

namespace Place

variable {place : Place}

theorem fits_scalar_iff {s : Scalar} : place.Fits (.scalar s) ↔ place.admits s = true := by
  have hnode : IsNode (.scalar s) ↔ isLiteral false s = true :=
    ⟨fun h => by cases h with | literal hs => exact hs, .literal⟩
  cases place with
  | node optional =>
    cases optional with
    | false => simp [Fits, admits, hnode]
    | true => simp [Fits, admits, hnode, Value.null, or_comm]
  | token raw => exact ⟨fun h => by cases h with | literal hs => exact hs, .literal⟩
  | test =>
    refine ⟨fun h => by cases h; rfl, fun h => ?_⟩
    obtain rfl : s = .null := beq_iff_eq.mp h
    exact .null
  | command | block | choice => simp [Fits, admits]
  | clause => exact iff_of_false (fun h => by cases h) fun h => by cases h

/-- A list fits at a place for lists if its items fit, and if it is not empty where it may not be. -/
theorem fits_list_iff {part : Place} (hplace : place.items? = some part) {items : List Value} :
    place.Fits (.list items) ↔
      (place.whenEmpty.isSome = true → items ≠ []) ∧ ∀ w ∈ items, part.Fits w := by
  have hnode : IsNode (.list items) ↔ items ≠ [] ∧ ∀ w ∈ items, IsToken false w :=
    ⟨fun h => by cases h with | list hne hitems => exact ⟨hne, hitems⟩, fun h => .list h.1 h.2⟩
  cases place with
  | node optional =>
    obtain rfl := Option.some.inj hplace
    cases optional with
    | false => simp [Fits, whenEmpty, hnode]
    | true => simp [Fits, whenEmpty, hnode, Value.null]
  | token raw =>
    obtain rfl := Option.some.inj hplace
    constructor
    · intro h
      cases h with
      | list hne hitems => exact ⟨fun _ => hne, hitems⟩
    · intro h
      obtain ⟨hne, hitems⟩ := h
      exact .list (hne rfl) hitems
  | test =>
    obtain rfl := Option.some.inj hplace
    constructor
    · intro h
      cases h with
      | list hitems => exact ⟨fun h => (by cases h), hitems⟩
    · intro h
      obtain ⟨_, hitems⟩ := h
      exact .list hitems
  | command | block | choice =>
    obtain rfl := Option.some.inj hplace
    simp [Fits, whenEmpty]
  | clause => cases hplace

/-- A tuple is a token, and nothing else. -/
theorem fits_tuple_iff {members : List Value} :
    place.Fits (.tuple members) ↔
      place.members? = some (token true) ∧ members ≠ [] ∧ ∀ w ∈ members, IsToken true w := by
  have hnode : ¬ IsNode (.tuple members) := fun h => by cases h
  cases place with
  | token raw =>
    constructor
    · intro h
      cases h with
      | tuple hne hmembers => exact ⟨rfl, hne, hmembers⟩
    · intro h
      obtain ⟨_, hne, hmembers⟩ := h
      exact .tuple hne hmembers
  | node optional => cases optional <;> simp [Fits, members?, hnode, Value.null]
  | command | block | choice => simp [Fits, members?]
  | test | clause => exact iff_of_false (fun h => by cases h) fun h => by cases h.1

theorem not_fits_set {members : List Scalar} : ¬ place.Fits (.set members) := by
  have hnode : ¬ IsNode (.set members) := fun h => by cases h
  cases place with
  | node optional => cases optional <;> simp [Fits, hnode, Value.null]
  | command | block | choice => simp [Fits]
  | token | test | clause => exact fun h => by cases h

/-- A mapping is a node if it is of a kind and what lies under its keys fits. -/
theorem isNode_mapping_iff {entries : Entries Value} :
    IsNode (.mapping entries) ↔ ∃ kind, IsOfKind kind entries ∧
      ((withoutBody? kind).isSome = true → entries.has "do" = true) ∧
      ∀ part ∈ kindParts kind, ∀ v, entries.find? part.1 = some v → part.2.Fits v := by
  constructor
  · intro h
    cases h with
    | @command _ items hentries hcommand hne hitems =>
      refine ⟨.command, hentries, fun h => (by cases h), ?_⟩
      simp only [kindParts, List.forall_mem_singleton, hcommand, Option.some.injEq, forall_eq']
      exact ⟨items, rfl, hne, hitems⟩
    | @block _ items hentries hblock hne hitems =>
      refine ⟨.block, hentries, fun h => (by cases h), ?_⟩
      simp only [kindParts, List.forall_mem_singleton, hblock, Option.some.injEq, forall_eq']
      exact ⟨items, rfl, hne, hitems⟩
    | @choice _ clauses hentries hif hclauses =>
      refine ⟨.choice, hentries, fun h => (by cases h), ?_⟩
      simp only [kindParts, List.forall_mem_singleton, hif, Option.some.injEq, forall_eq']
      exact ⟨clauses, rfl, hclauses⟩
    | forEach hentries hfor hiterable hdo hbody helement hposition =>
      refine ⟨.forEach, hentries, fun _ => by rw [Entries.has, hdo]; rfl, ?_⟩
      simp only [kindParts, List.forall_mem_cons, hfor, hdo, Option.some.injEq, forall_eq']
      exact ⟨hiterable, hbody, fun v hv => or_iff_not_imp_left.mpr (helement v hv),
        fun v hv => or_iff_not_imp_left.mpr (hposition v hv), List.forall_mem_nil _⟩
    | whileLoop hentries hwhile htest hdo hbody =>
      refine ⟨.whileLoop, hentries, fun _ => by rw [Entries.has, hdo]; rfl, ?_⟩
      simp only [kindParts, List.forall_mem_cons, hwhile, hdo, Option.some.injEq, forall_eq']
      exact ⟨htest, hbody, List.forall_mem_nil _⟩
  · intro h
    obtain ⟨kind, hentries, hbody, hparts⟩ := h
    obtain ⟨payload, hpayload⟩ := Option.isSome_iff_exists.mp ((hentries.kinds kind).mpr rfl)
    cases kind with
    | command =>
      obtain ⟨items, rfl, hne, hitems⟩ := hparts _ List.mem_cons_self payload hpayload
      exact .command hentries hpayload hne hitems
    | block =>
      obtain ⟨items, rfl, hne, hitems⟩ := hparts _ List.mem_cons_self payload hpayload
      exact .block hentries hpayload hne hitems
    | choice =>
      obtain ⟨clauses, rfl, hclauses⟩ := hparts _ List.mem_cons_self payload hpayload
      exact .choice hentries hpayload hclauses
    | forEach =>
      obtain ⟨body, hdo⟩ := Option.isSome_iff_exists.mp (hbody rfl)
      simp only [kindParts, List.forall_mem_cons] at hparts
      obtain ⟨hiterable, hbody, helement, hposition, -⟩ := hparts
      exact .forEach hentries hpayload (hiterable _ hpayload) hdo (hbody _ hdo)
        (fun v hv => (helement v hv).resolve_left) fun v hv => (hposition v hv).resolve_left
    | whileLoop =>
      obtain ⟨body, hdo⟩ := Option.isSome_iff_exists.mp (hbody rfl)
      simp only [kindParts, List.forall_mem_cons] at hparts
      obtain ⟨htest, hbody, -⟩ := hparts
      exact .whileLoop hentries hpayload (htest _ hpayload) hdo (hbody _ hdo)

theorem isClause_mapping_iff {entries : Entries Value} :
    IsClause (.mapping entries) ↔
      ((∃ branch, entries.find? "then" = some branch) ∧ HasLine entries ∧ HasKeys clauseKeys entries) ∧
      ∀ part ∈ clauseParts, ∀ v, entries.find? part.1 = some v → part.2.Fits v := by
  simp only [clauseParts, List.forall_mem_cons]
  constructor
  · intro h
    cases h with
    | mapping hline hkeys htest hthen hbranch =>
      refine ⟨⟨⟨_, hthen⟩, hline, hkeys⟩, htest, fun v hv => ?_, List.forall_mem_nil _⟩
      obtain rfl := Option.some.inj (hthen.symm.trans hv)
      exact hbranch
  · intro h
    obtain ⟨⟨⟨branch, hthen⟩, hline, hkeys⟩, htest, hbranch, _⟩ := h
    exact .mapping hline hkeys htest hthen (hbranch branch hthen)

end Place

/-! ## 4. Values without faults -/

section

variable {start : Int} {around : List (Entries Value)}

/-- What lies under the keys of a mapping has no fault exactly if it fits. -/
theorem faultsUnder_eq_nil_iff {entries : Entries Value}
    (ih : ∀ e ∈ entries, ∀ place around, faults start place around e.2 = [] ↔ place.Fits e.2)
    {parts : List (Text × Place)} :
    (parts.flatMap fun part => faultsUnder start around part.1 part.2 entries) = [] ↔
      ∀ part ∈ parts, ∀ v, entries.find? part.1 = some v → part.2.Fits v := by
  rw [List.flatMap_eq_nil_iff]
  refine forall₂_congr fun part _ => ?_
  rw [faultsUnder]
  cases hv : entries.find? part.1 with
  | none => simp
  | some v => simpa using ih _ (Entries.mem_of_find? hv) part.2 around

end

theorem emptyFaults_eq_nil_iff {place : Place} {line : Int} {items : List Value} :
    emptyFaults place line items = [] ↔ (place.whenEmpty.isSome = true → items ≠ []) := by
  cases items with
  | nil => cases h : place.whenEmpty <;> simp [emptyFaults, h]
  | cons v vs => simp [emptyFaults]

theorem bodyFaults_eq_nil_iff {kind : NodeKind} {line : Int} {entries : Entries Value} :
    bodyFaults kind line entries = [] ↔
      ((withoutBody? kind).isSome = true → entries.has "do" = true) := by
  cases hdo : entries.has "do" <;> cases h : withoutBody? kind <;> simp [bodyFaults, hdo, h]

/-- **A value has no fault at a place exactly if it fits there**, whatever line is in force. -/
theorem faults_eq_nil_iff (start : Int) (place : Place) (around : List (Entries Value)) (v : Value) :
    faults start place around v = [] ↔ place.Fits v := by
  induction v generalizing place around with
  | scalar s =>
    rw [Place.fits_scalar_iff]
    cases hs : place.admits s with
    | true => simp [faults_scalar_of_admits _ _ hs]
    | false => simp [faults_scalar_of_not_admits _ _ hs]
  | list items ih =>
    cases hplace : place.items? with
    | some part =>
      rw [faults_list _ _ hplace, Place.fits_list_iff hplace, List.append_eq_nil_iff,
        emptyFaults_eq_nil_iff, List.flatMap_eq_nil_iff]
      exact and_congr_right' (forall₂_congr fun w hw => ih w hw part around)
    | none =>
      obtain rfl : place = .clause := by
        cases place with
        | clause => rfl
        | _ => cases hplace
      rw [faults_list_of_none _ _ rfl]
      exact iff_of_false (fun h => by cases h) fun h => by cases h
  | tuple members ih =>
    rw [Place.fits_tuple_iff]
    cases place with
    | token raw =>
      have hplace : (Place.token raw).members? = some (.token true) := rfl
      rw [faults_tuple _ _ hplace, and_iff_right hplace, List.append_eq_nil_iff,
        emptyFaults_eq_nil_iff, List.flatMap_eq_nil_iff]
      exact and_congr ⟨fun h => h rfl, fun h _ => h⟩ (forall₂_congr fun w hw => ih w hw _ around)
    | _ =>
      rw [faults_tuple_of_none _ _ rfl]
      exact iff_of_false (fun h => by cases h) fun h => by cases h.1
  | mapping entries ih =>
    rw [faults_mapping, List.append_eq_nil_iff, faultsUnder_eq_nil_iff ih]
    cases place with
    | node optional =>
      have hfits : (Place.node optional).Fits (.mapping entries) ↔ IsNode (.mapping entries) := by
        cases optional <;> simp [Place.Fits, Value.null]
      rw [hfits, Place.isNode_mapping_iff, Visit.faults, nodeFaults_eq_nil_iff]
      constructor
      · intro h
        obtain ⟨⟨kind, hof, hkinds, hbody⟩, hparts⟩ := h
        rw [Place.parts, hkinds] at hparts
        exact ⟨kind, hof, bodyFaults_eq_nil_iff.mp hbody, hparts⟩
      · intro h
        obtain ⟨kind, hof, hbody, hparts⟩ := h
        have hkinds := kinds_eq_singleton_iff.mpr hof.kinds
        rw [Place.parts, hkinds]
        exact ⟨⟨kind, hof, rfl, bodyFaults_eq_nil_iff.mpr hbody⟩, hparts⟩
    | clause =>
      rw [Visit.faults, clauseFaults_eq_nil_iff]
      exact Place.isClause_mapping_iff.symm
    | token | test => exact iff_of_false (fun h => by cases h.1) fun h => by cases h
    | command | block | choice =>
      refine ⟨fun h => (by cases h.1), fun h => ?_⟩
      obtain ⟨_, hlist, _⟩ := h
      cases hlist
  | set members => exact ⟨fun h => (by cases h), fun h => absurd h Place.not_fits_set⟩

/-! ## 5. Documents -/

/-- **A tree is built out of a document exactly if it is a node**, at every line and whatever the marker
    of negations is, also if the document shares parts. -/
theorem build_ok_iff_isNode {v : Value} (hv : v.Writable) (marker : Text) (line : Int) :
    ((∃ e, build (.ofText marker) line v = .ok e) ↔ IsNode v) ∧
      ∀ g : Graph, g.view.Shows g.root v →
        ((∃ e, tree g.view (.ofText marker) line g.root = .ok e) ↔ IsNode v) := by
  have hbuild : (∃ e, build (.ofText marker) line v = .ok e) ↔ IsNode v :=
    (reports_build hv marker line).iff.2.trans (faults_eq_nil_iff line (.node false) [] v)
  refine ⟨hbuild, fun g hg => ?_⟩
  rw [Graph.tree_eq_build hg]
  exact hbuild

/-- A number in a list of tokens is a token, and a number in a tuple is none. -/
theorem build_ok_iff_isNode_numbers :
    let loop (test : Value) := Value.mapping [(.text "while", .list [test]), (.text "do", .ofText "x")]
    let listed := loop (.list [.scalar (.int 1)])
    let tupled := loop (.tuple [.scalar (.int 1)])
    listed.Writable ∧ IsNode listed ∧ (∃ e, build (.ofText "not") 1 listed = .ok e) ∧
      tupled.Writable ∧ ¬ IsNode tupled ∧ ¬ ∃ e, build (.ofText "not") 1 tupled = .ok e := by
  intro loop listed tupled
  have hlisted : listed.Writable := by decide +kernel
  have htupled : tupled.Writable := by decide +kernel
  have hnode : IsNode listed := (faults_eq_nil_iff 1 (.node false) [] listed).mp (by decide +kernel)
  have hnot : ¬ IsNode tupled := fun h =>
    absurd ((faults_eq_nil_iff 1 (.node false) [] tupled).mpr h) (by decide +kernel)
  exact ⟨hlisted, hnode, (build_ok_iff_isNode hlisted "not" 1).1.mpr hnode, htupled, hnot,
    fun h => hnot ((build_ok_iff_isNode htupled "not" 1).1.mp h)⟩

end TemplateTree.Document
