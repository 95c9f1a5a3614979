import TemplateTree.Proofs.Document.Token
import TemplateTree.Value.Graph

/-!
# The trees that documents describe

Not every tree is described by a document: tests stand in choices and loops only, and the commands
that stand in a command, or in a test, share one line (`Expr.Documentable`). These are all the
restrictions. What a document describes is documentable (`Document.documentable_of_node`), and a
documentable tree is described by a document of its own (`Expr.document`), whatever line is in force
around it: every mapping of that document that has a line to tell tells it.
-/

namespace TemplateTree

/-! ## 1. Documentable trees -/

/-- **A tree that some document describes.** A block has an item, and a choice as many conditions as
    branches, by their types. -/
inductive Expr.Documentable (marker : Text) : Expr → Prop
  | string (value : Text) : Documentable marker (.string value)
  | command {line : Int} {name : Expr} {arguments : List Expr}
      (h : ∀ x ∈ name :: arguments, x.IsToken line) :
      Documentable marker (.command line name arguments)
  | block {first : Expr} {rest : List Expr} (hfirst : Documentable marker first)
      (hrest : ∀ e ∈ rest, Documentable marker e) : Documentable marker (.block first rest)
  | choice {clauses : List (Expr × Expr)} (htests : ∀ c ∈ clauses, c.1.IsTest marker)
      (hbranches : ∀ c ∈ clauses, Documentable marker c.2) : Documentable marker (.choice clauses)
  | forEach {line : Int} {iterable body : Expr} {element position : Option Expr}
      (hiterable : Documentable marker iterable) (hbody : Documentable marker body)
      (helement : ∀ e ∈ element, Documentable marker e)
      (hposition : ∀ e ∈ position, Documentable marker e) :
      Documentable marker (.forEach line iterable body element position)
  | whileLoop {test body : Expr} (htest : test.IsTest marker) (hbody : Documentable marker body) :
      Documentable marker (.whileLoop test body)

/-! ## 2. What a document describes -/

namespace Document

section

variable {α : Type} {view : View α} {marker : Text} {node : Int → α → Except Failure Expr}
  (hnode : ∀ line v e, node line v = .ok e → e.Documentable marker)

include hnode

theorem documentable_of_clause {outer : Int} {v : α} {c : Expr × Expr}
    (h : clause view (.ofText marker) node outer v = .ok c) :
    c.1.IsTest marker ∧ c.2.Documentable marker := by
  unfold clause at h
  split at h
  · split at h
    · cases h
    · obtain ⟨line, -, h⟩ := exists_of_bind h
      obtain ⟨-, -, h⟩ := exists_of_bind h
      obtain ⟨test, htest, h⟩ := exists_of_bind h
      obtain ⟨branch, hbranch, h⟩ := exists_of_bind h
      obtain rfl := Except.ok.inj h
      exact ⟨isTest_of_condition htest, hnode _ _ _ hbranch⟩
  · cases h

/-- An optional part describes a documentable tree, if it is there. -/
theorem documentable_of_option {line : Int} {v? : Option α} {e? : Option Expr}
    (h : v?.mapM (node line) = .ok e?) : ∀ e ∈ e?, e.Documentable marker := by
  intro e he
  cases v? with
  | none =>
    obtain rfl : none = e? := Except.ok.inj h
    cases he
  | some v =>
    obtain ⟨x, hx, h⟩ := exists_of_bind (f := fun x => Except.ok (some x)) h
    obtain rfl : some x = e? := Except.ok.inj h
    obtain rfl : x = e := Option.some.inj he
    exact hnode _ _ _ hx

/-- A mapping of any kind describes a documentable tree, if its parts do. -/
theorem documentable_of_ofKind {line : Int} {kind : NodeKind} {entries : Entries α} {e : Expr}
    (h : ofKind view (.ofText marker) node line kind entries = .ok e) : e.Documentable marker := by
  cases kind with
  | command =>
    obtain ⟨items, -, h⟩ := exists_of_bind h
    obtain ⟨name, arguments, rfl, htokens⟩ := view.exists_of_command h
    exact .command htokens
  | block =>
    obtain ⟨members, -, h⟩ := exists_of_bind h
    obtain ⟨es, hes, h⟩ := exists_of_bind h
    have hall : ∀ x ∈ es, x.Documentable marker := by
      intro x hx
      obtain ⟨v, -, hv⟩ := exists_of_mem_mapM hes hx
      exact hnode _ _ _ hv
    cases es with
    | nil => cases h
    | cons first rest =>
      obtain rfl := Except.ok.inj h
      exact .block (hall first List.mem_cons_self) fun x hx => hall x (List.mem_cons_of_mem first hx)
  | choice =>
    obtain ⟨members, -, h⟩ := exists_of_bind h
    obtain ⟨clauses, hclauses, h⟩ := exists_of_bind h
    obtain rfl := Except.ok.inj h
    have hall : ∀ c ∈ clauses, c.1.IsTest marker ∧ c.2.Documentable marker := by
      intro c hc
      obtain ⟨v, -, hv⟩ := exists_of_mem_mapM hclauses hc
      exact documentable_of_clause hnode hv
    exact .choice (fun c hc => (hall c hc).1) fun c hc => (hall c hc).2
  | forEach =>
    unfold ofKind at h
    simp only at h
    split at h
    · obtain ⟨iterable, hiterable, h⟩ := exists_of_bind h
      obtain ⟨body, hbody, h⟩ := exists_of_bind h
      obtain ⟨element, helement, h⟩ := exists_of_bind h
      obtain ⟨position, hposition, h⟩ := exists_of_bind h
      obtain rfl := Except.ok.inj h
      exact .forEach (hnode _ _ _ hiterable) (hnode _ _ _ hbody) (documentable_of_option hnode helement)
        (documentable_of_option hnode hposition)
    · cases h
  | whileLoop =>
    unfold ofKind at h
    simp only at h
    split at h
    · cases h
    · obtain ⟨test, htest, h⟩ := exists_of_bind h
      obtain ⟨body, hbody, h⟩ := exists_of_bind h
      obtain rfl := Except.ok.inj h
      exact .whileLoop (isTest_of_condition htest) (hnode _ _ _ hbody)

end

/-- **What a part of a document describes is documentable**, in every view and at every line. -/
theorem documentable_of_node {α : Type} {view : View α} {marker : Text} {depth : Nat} {line : Int}
    {v : α} {e : Expr} (h : node view (.ofText marker) depth line v = .ok e) :
    e.Documentable marker := by
  induction depth generalizing line v e with
  | zero => cases h
  | succ depth ih =>
    unfold node at h
    split at h
    · obtain rfl := Except.ok.inj h
      exact .string _
    · split at h
      · obtain rfl := Except.ok.inj h
        exact .string _
      · cases h
      · cases h
    · obtain ⟨name, arguments, rfl, htokens⟩ := view.exists_of_command h
      exact .command htokens
    · obtain ⟨inside, -, h⟩ := exists_of_bind h
      split at h
      · obtain ⟨-, -, h⟩ := exists_of_bind h
        exact documentable_of_ofKind (fun _ _ _ => ih) h
      · cases h
    · cases h

end Document

/-! ## 3. Documents for trees -/

namespace Value

theorem height_le_entryHeights {k : Scalar} {v : Value} {entries : List (Scalar × Value)}
    (h : (k, v) ∈ entries) : v.height ≤ entryHeights entries := by
  induction entries with
  | nil => cases h
  | cons e entries ih =>
    obtain ⟨k', w⟩ := e
    rw [entryHeights]
    rcases List.mem_cons.mp h with h | h
    · obtain ⟨-, rfl⟩ := Prod.mk.inj h
      exact Nat.le_max_left ..
    · exact Nat.le_trans (ih h) (Nat.le_max_right ..)

/-- A value in a mapping has fewer levels than the mapping. -/
theorem height_lt_mapping {k : Scalar} {v : Value} {entries : List (Scalar × Value)}
    (h : (k, v) ∈ entries) : v.height < (Value.mapping entries).height := by
  rw [height]
  exact Nat.lt_succ_of_le (height_le_entryHeights h)

/-- An item of a list in a mapping has fewer levels than the mapping. -/
theorem height_lt_mapping_list {k : Scalar} {v : Value} {items : List Value}
    {entries : List (Scalar × Value)} (hitems : (k, .list items) ∈ entries) (h : v ∈ items) :
    v.height < (Value.mapping entries).height :=
  Nat.lt_trans (height_lt_list h) (height_lt_mapping hitems)

theorem height_pos (v : Value) : 0 < v.height := by
  cases v <;> simp [height]

/-- Where the steps suffice for a value, there is one to take. -/
theorem exists_step {v : Value} {depth : Nat} (h : v.height ≤ depth) : ∃ d, depth = d + 1 :=
  Nat.exists_eq_add_one.mpr (Nat.lt_of_lt_of_le v.height_pos h)

end Value

namespace Expr

/-- The value of a line. -/
def lineValue (line : Int) : Value := .scalar (.int line)

mutual

/-- A document that describes a documentable tree. A command, a test and a loop over a collection have
    a line, which the mapping that holds them tells. -/
def document (marker : Text) : Expr → Value
  | string value => .ofText value
  | command line name arguments => .mapping [
      (.text "command", .list (tokens (name :: arguments))), (.text "line", lineValue line)]
  | block first rest => .mapping [
      (.text "block", .list (document marker first :: documents marker rest))]
  | condition .. => .null
  | choice clauses => .mapping [(.text "if", .list (clauseDocuments marker clauses))]
  | forEach line iterable body element position => .mapping [
      (.text "for", document marker iterable), (.text "do", document marker body),
      (.text "as", optionDocument marker element), (.text "index", optionDocument marker position),
      (.text "line", lineValue line)]
  | whileLoop test body => .mapping [
      (.text "while", .list (testTokens marker test)), (.text "do", document marker body),
      (.text "line", lineValue (testLine test))]

/-- The documents of some trees. -/
def documents (marker : Text) : List Expr → List Value
  | [] => []
  | e :: es => document marker e :: documents marker es

/-- The documents of clauses. -/
def clauseDocuments (marker : Text) : List (Expr × Expr) → List Value
  | [] => []
  | (c, b) :: rest =>
    .mapping [(.text "when", .list (testTokens marker c)), (.text "then", document marker b),
      (.text "line", lineValue (testLine c))] :: clauseDocuments marker rest

/-- The document of a tree that may be absent; null stands for an absent one. -/
def optionDocument (marker : Text) : Option Expr → Value
  | none => .null
  | some e => document marker e

end

/-- The document of a clause. -/
def clauseDocument (marker : Text) (c : Expr × Expr) : Value :=
  .mapping [(.text "when", .list (testTokens marker c.1)), (.text "then", document marker c.2),
    (.text "line", lineValue (testLine c.1))]

theorem documents_eq_map (marker : Text) (es : List Expr) :
    documents marker es = es.map (document marker) := by
  induction es with
  | nil => rfl
  | cons e es ih => simp [documents, ih]

theorem clauseDocuments_eq_map (marker : Text) (cs : List (Expr × Expr)) :
    clauseDocuments marker cs = cs.map (clauseDocument marker) := by
  induction cs with
  | nil => rfl
  | cons c cs ih => simp [clauseDocuments, clauseDocument, ih]

section

variable (marker : Text)

theorem document_command (line : Int) (name : Expr) (arguments : List Expr) :
    document marker (.command line name arguments) = .mapping [
      (.text "command", .list ((name :: arguments).map token)), (.text "line", lineValue line)] := by
  rw [document, tokens_eq_map]

theorem document_block (first : Expr) (rest : List Expr) :
    document marker (.block first rest)
      = .mapping [(.text "block", .list ((first :: rest).map (document marker)))] := by
  rw [document, documents_eq_map, List.map_cons]

theorem document_choice (clauses : List (Expr × Expr)) :
    document marker (.choice clauses)
      = .mapping [(.text "if", .list (clauses.map (clauseDocument marker)))] := by
  rw [document, clauseDocuments_eq_map]

theorem height_token_lt_command {line : Int} {name : Expr} {arguments : List Expr} {x : Expr}
    (hx : x ∈ name :: arguments) :
    x.token.height < (document marker (.command line name arguments)).height := by
  rw [document_command]
  exact Value.height_lt_mapping_list List.mem_cons_self (List.mem_map_of_mem hx)

theorem height_document_lt_block {first : Expr} {rest : List Expr} {x : Expr}
    (hx : x ∈ first :: rest) :
    (x.document marker).height < (document marker (.block first rest)).height := by
  rw [document_block]
  exact Value.height_lt_mapping_list List.mem_cons_self (List.mem_map_of_mem hx)

theorem height_clauseDocument_lt {clauses : List (Expr × Expr)} {c : Expr × Expr}
    (hc : c ∈ clauses) :
    (clauseDocument marker c).height < (document marker (.choice clauses)).height := by
  rw [document_choice]
  exact Value.height_lt_mapping_list List.mem_cons_self (List.mem_map_of_mem hc)

theorem height_document_lt_clause (c : Expr × Expr) :
    (c.2.document marker).height < (clauseDocument marker c).height :=
  Value.height_lt_mapping (k := .text "then") (by simp)

theorem height_testTokens_lt_clause {c : Expr × Expr} {v : Value} (hv : v ∈ c.1.testTokens marker) :
    v.height < (clauseDocument marker c).height :=
  Value.height_lt_mapping_list List.mem_cons_self hv

/-- The documents of the parts of a loop over a collection have fewer levels than its own. -/
theorem height_document_lt_forEach (line : Int) (iterable body : Expr)
    (element position : Option Expr) :
    (iterable.document marker).height
        < (document marker (.forEach line iterable body element position)).height ∧
      (body.document marker).height
        < (document marker (.forEach line iterable body element position)).height ∧
      (optionDocument marker element).height
        < (document marker (.forEach line iterable body element position)).height ∧
      (optionDocument marker position).height
        < (document marker (.forEach line iterable body element position)).height := by
  rw [document]
  exact ⟨Value.height_lt_mapping (k := .text "for") (by simp),
    Value.height_lt_mapping (k := .text "do") (by simp),
    Value.height_lt_mapping (k := .text "as") (by simp),
    Value.height_lt_mapping (k := .text "index") (by simp)⟩

theorem height_document_lt_whileLoop (test body : Expr) :
    (body.document marker).height < (document marker (.whileLoop test body)).height := by
  rw [document]
  exact Value.height_lt_mapping (k := .text "do") (by simp)

theorem height_testTokens_lt_whileLoop {test body : Expr} {v : Value}
    (hv : v ∈ test.testTokens marker) :
    v.height < (document marker (.whileLoop test body)).height := by
  rw [document]
  exact Value.height_lt_mapping_list List.mem_cons_self hv

end

end Expr

/-! ## 4. A tree out of its document -/

namespace Document

section

variable {α : Type} {view : View α} {marker : Value} {outer line : Int} {v : α} {entries : Entries α}

/-- A mapping of one kind with no other keys is built by the rule of the kind. -/
theorem node_mapping {depth : Nat} (kind : NodeKind) (hv : view.level v = .mapping entries)
    (hline : lineInside view outer entries = .ok line) (hkind : entries.kinds = [kind])
    (hkeys : entries.checkKeys kind.key kind.allowed line = .ok ()) :
    node view marker (depth + 1) outer v
      = ofKind view marker (node view marker depth) line kind entries := by
  rw [node, hv]
  simp only
  rw [hline, ok_bind, hkind]
  simp only
  rw [hkeys, ok_bind]

variable {node : Int → α → Except Failure Expr}

/-- A clause with a branch and no other keys is built out of its test and its branch. -/
theorem clause_mapping {branch : α} {test : Option α}
    {c b : Expr} (hv : view.level v = .mapping entries)
    (hbranch : entries.find? "then" = some branch) (htest : entries.find? "when" = test)
    (hline : lineInside view outer entries = .ok line)
    (hkeys : entries.checkKeys "if clause" clauseKeys line = .ok ())
    (hc : condition view marker line test = .ok c) (hb : node line branch = .ok b) :
    clause view marker node outer v = .ok (c, b) := by
  rw [clause, hv]
  simp only
  rw [hbranch]
  simp only
  rw [hline, ok_bind, hkeys, ok_bind, htest, hc, ok_bind, hb, ok_bind]
  rfl

theorem ofKind_command {items : List α} {e : Expr}
    (hitems : listItems view line .commandNotList (entries.find? "command") = .ok items)
    (he : view.command line items = .ok e) : ofKind view marker node line .command entries = .ok e := by
  rw [ofKind, hitems, ok_bind, he]

theorem ofKind_block {items : List α} {first : Expr} {rest : List Expr}
    (hitems : listItems view line .blockNotList (entries.find? "block") = .ok items)
    (hrow : items.mapM (node line) = .ok (first :: rest)) :
    ofKind view marker node line .block entries = .ok (.block first rest) := by
  rw [ofKind, hitems, ok_bind, hrow, ok_bind]
  rfl

theorem ofKind_choice {items : List α} {clauses : List (Expr × Expr)}
    (hitems : listItems view line .ifNotList (entries.find? "if") = .ok items)
    (hrow : items.mapM (clause view marker node line) = .ok clauses) :
    ofKind view marker node line .choice entries = .ok (.choice clauses) := by
  rw [ofKind, hitems, ok_bind, hrow, ok_bind]
  rfl

theorem ofKind_forEach {iterable body : α} {i b : Expr} {element position : Option Expr}
    (hfor : entries.find? "for" = some iterable) (hdo : entries.find? "do" = some body)
    (hi : node line iterable = .ok i) (hb : node line body = .ok b)
    (helement : (given view (entries.find? "as")).mapM (node line) = .ok element)
    (hposition : (given view (entries.find? "index")).mapM (node line) = .ok position) :
    ofKind view marker node line .forEach entries = .ok (.forEach line i b element position) := by
  rw [ofKind, hfor, hdo]
  simp only
  rw [hi, ok_bind, hb, ok_bind, helement, ok_bind, hposition, ok_bind]
  rfl

theorem ofKind_whileLoop {body : α} {test b : Expr} (hdo : entries.find? "do" = some body)
    (htest : condition view marker line (entries.find? "while") = .ok test)
    (hb : node line body = .ok b) :
    ofKind view marker node line .whileLoop entries = .ok (.whileLoop test b) := by
  rw [ofKind, hdo]
  simp only
  rw [htest, ok_bind, hb, ok_bind]
  rfl

end

section

variable {view : View Value} (hview : view.level = Value.level)

include hview

theorem lineInside_lineValue {outer line : Int} {entries : Entries Value}
    (h : entries.find? "line" = some (Expr.lineValue line)) :
    lineInside view outer entries = .ok line := by
  simp [lineInside, h, hview, Expr.lineValue, Value.level]

/-- The document of a documentable tree is not null. -/
theorem given_document {marker : Text} {e : Expr} (he : e.Documentable marker) :
    given view (some (e.document marker)) = some (e.document marker) := by
  rw [given, hview]
  cases he <;> rfl

/-- A clause is built out of its document, if its branch is. -/
theorem clause_clauseDocument {marker : Text} {node : Int → Value → Except Failure Expr} {outer : Int}
    {c : Expr × Expr} (htest : c.1.IsTest marker)
    (hreach : (Expr.clauseDocument marker c).height ≤ view.reach)
    (hbranch : ∀ line, node line (c.2.document marker) = .ok c.2) :
    clause view (.ofText marker) node outer (Expr.clauseDocument marker c) = .ok c := by
  have htokens : ∀ v ∈ c.1.testTokens marker, v.height ≤ view.reach := fun v hv =>
    Nat.le_trans (Nat.le_of_lt (Expr.height_testTokens_lt_clause marker hv)) hreach
  exact clause_mapping (by rw [hview]; rfl) rfl rfl (lineInside_lineValue hview rfl) rfl
    (condition_testTokens hview htest htokens) (hbranch _)

/-- A part that may be absent is built out of its document, if it is when it is there. -/
theorem mapM_optionDocument {marker : Text} {node : Int → Value → Except Failure Expr} {line : Int}
    {e? : Option Expr} (hdocumentable : ∀ e ∈ e?, e.Documentable marker)
    (hnode : ∀ e ∈ e?, node line (e.document marker) = .ok e) :
    (given view (some (Expr.optionDocument marker e?))).mapM (node line) = .ok e? := by
  cases e? with
  | none =>
    have hnull : given view (some (Expr.optionDocument marker none)) = none := by
      simp [given, hview, Expr.optionDocument, Value.null, Value.level]
    rw [hnull]
    rfl
  | some e =>
    rw [Expr.optionDocument, given_document hview (hdocumentable e rfl)]
    show (some <$> node line (e.document marker)) = .ok (some e)
    rw [hnode e rfl]
    rfl

/-- **A documentable tree is built out of its document**, at every line, if the steps and the reach of
    the view suffice for the document. -/
theorem node_document {marker : Text} {e : Expr} (he : e.Documentable marker) {depth : Nat}
    {outer : Int} (hdepth : (e.document marker).height ≤ depth)
    (hreach : (e.document marker).height ≤ view.reach) :
    node view (.ofText marker) depth outer (e.document marker) = .ok e := by
  induction he generalizing depth outer with
  | string value =>
    obtain ⟨depth, rfl⟩ := Value.exists_step hdepth
    simp [node, hview, Expr.document, Value.ofText, Value.level]
  | @command line name arguments htokens =>
    obtain ⟨depth, rfl⟩ := Value.exists_step hdepth
    have hnames : ∀ x ∈ name :: arguments, x.token.height ≤ view.reach := fun x hx =>
      Nat.le_trans (Nat.le_of_lt (Expr.height_token_lt_command marker hx)) hreach
    rw [Expr.document_command, node_mapping .command (by rw [hview]; rfl)
      (lineInside_lineValue hview rfl) rfl rfl]
    exact ofKind_command (listItems_list hview ..) (View.command_map_token hview htokens hnames)
  | @block first rest _ _ hfirst hrest =>
    obtain ⟨depth, rfl⟩ := Value.exists_step hdepth
    have hitems : ∀ x ∈ first :: rest,
        node view (.ofText marker) depth outer (x.document marker) = .ok x := by
      intro x hx
      have hlower := Expr.height_document_lt_block marker hx
      rcases List.mem_cons.mp hx with rfl | hx
      · exact hfirst (by omega) (by omega)
      · exact hrest x hx (by omega) (by omega)
    rw [Expr.document_block, node_mapping .block (by rw [hview]; rfl) rfl rfl rfl]
    exact ofKind_block (listItems_list hview ..) (mapM_map_eq_ok hitems)
  | @choice clauses htests _ hbranches =>
    obtain ⟨depth, rfl⟩ := Value.exists_step hdepth
    have hclauses : ∀ c ∈ clauses, clause view (.ofText marker) (node view (.ofText marker) depth) outer
        (Expr.clauseDocument marker c) = .ok c := by
      intro c hc
      have hclause := Expr.height_clauseDocument_lt marker hc
      have hbranch := Expr.height_document_lt_clause marker c
      exact clause_clauseDocument hview (htests c hc) (by omega)
        fun line => hbranches c hc (by omega) (by omega)
    rw [Expr.document_choice, node_mapping .choice (by rw [hview]; rfl) rfl rfl rfl]
    exact ofKind_choice (listItems_list hview ..) (mapM_map_eq_ok hclauses)
  | @forEach line iterable body element position _ _ helement hposition ihiterable ihbody ihelement
      ihposition =>
    obtain ⟨depth, rfl⟩ := Value.exists_step hdepth
    obtain ⟨h1, h2, h3, h4⟩ :=
      Expr.height_document_lt_forEach marker line iterable body element position
    have hbound : ∀ e ∈ element, node view (.ofText marker) depth line (e.document marker) = .ok e := by
      intro e he
      obtain rfl : element = some e := he
      rw [Expr.optionDocument] at h3
      exact ihelement e rfl (by omega) (by omega)
    have hcounted : ∀ e ∈ position,
        node view (.ofText marker) depth line (e.document marker) = .ok e := by
      intro e he
      obtain rfl : position = some e := he
      rw [Expr.optionDocument] at h4
      exact ihposition e rfl (by omega) (by omega)
    rw [Expr.document, node_mapping .forEach (by rw [hview]; rfl) (lineInside_lineValue hview rfl)
      rfl rfl]
    exact ofKind_forEach rfl rfl (ihiterable (by omega) (by omega)) (ihbody (by omega) (by omega))
      (mapM_optionDocument hview helement hbound) (mapM_optionDocument hview hposition hcounted)
  | @whileLoop test body htest _ hbody =>
    obtain ⟨depth, rfl⟩ := Value.exists_step hdepth
    have hlower := Expr.height_document_lt_whileLoop marker test body
    have htokens : ∀ v ∈ test.testTokens marker, v.height ≤ view.reach := fun v hv =>
      Nat.le_trans (Nat.le_of_lt (Expr.height_testTokens_lt_whileLoop marker hv)) hreach
    rw [Expr.document, node_mapping .whileLoop (by rw [hview]; rfl) (lineInside_lineValue hview rfl)
      rfl rfl]
    exact ofKind_whileLoop rfl (condition_testTokens hview htest htokens)
      (hbody (by omega) (by omega))

end

/-! ## 5. The image of the builder -/

/-- **Documents describe exactly the documentable trees**, at every line and for every marker, which is
    all that a document needs of the settings. A documentable tree is built out of a document of its
    own; nothing else is built, neither out of values nor out of parts that are shared. -/
theorem build_image (marker : Text) (line : Int) (e : Expr) :
    ((∃ v, build (.ofText marker) line v = .ok e) ↔ e.Documentable marker) ∧
      (e.Documentable marker → build (.ofText marker) line (e.document marker) = .ok e) ∧
      ∀ g : Graph, tree g.view (.ofText marker) line g.root = .ok e → e.Documentable marker := by
  have hbuild : e.Documentable marker → build (.ofText marker) line (e.document marker) = .ok e :=
    fun he => node_document rfl he (Nat.le_succ _) (Nat.le_refl _)
  refine ⟨⟨?_, fun he => ⟨_, hbuild he⟩⟩, hbuild, fun g h => documentable_of_node h⟩
  rintro ⟨v, hv⟩
  exact documentable_of_node hv

/-- A negated test may begin with the marker as an operand, and a loop tell another line than its
    test. -/
theorem build_image_marked :
    Expr.Documentable "not" (.whileLoop
        (.condition true [.string "not", .command 3 (.string "get") [.string "x"]])
        (.forEach 5 (.string "") (.command 4 (.string "f") []) none none)) ∧
      build (.ofText "not") 9 (Expr.document "not" (.whileLoop
        (.condition true [.string "not", .command 3 (.string "get") [.string "x"]])
        (.forEach 5 (.string "") (.command 4 (.string "f") []) none none)))
      = .ok (.whileLoop
        (.condition true [.string "not", .command 3 (.string "get") [.string "x"]])
        (.forEach 5 (.string "") (.command 4 (.string "f") []) none none)) := by
  have hget : Expr.IsToken 3 (.command 3 (.string "get") [.string "x"]) :=
    .command (.string _) fun a ha => by
      obtain rfl := List.mem_singleton.mp ha
      exact .string _
  have htest : Expr.IsTest "not"
      (.condition true [.string "not", .command 3 (.string "get") [.string "x"]]) := by
    refine .condition 3 (fun o ho => ?_) (by simp)
    rcases List.mem_cons.mp ho with rfl | ho
    · exact .string _
    · obtain rfl := List.mem_singleton.mp ho
      exact hget
  have hcall : Expr.Documentable "not" (.command 4 (.string "f") []) :=
    .command fun x hx => by
      obtain rfl := List.mem_singleton.mp hx
      exact .string _
  have hbody : Expr.Documentable "not"
      (.forEach 5 (.string "") (.command 4 (.string "f") []) none none) :=
    .forEach (.string "") hcall (by simp) (by simp)
  have hloop := Expr.Documentable.whileLoop htest hbody
  exact ⟨hloop, (build_image "not" 9 _).2.1 hloop⟩

end Document

end TemplateTree
