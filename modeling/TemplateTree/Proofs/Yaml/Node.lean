import TemplateTree.Proofs.Failing
import TemplateTree.Yaml.Node

/-!
# What stops the parser of nodes

The parser of nodes gives up on lexemes that are no document, or because the lexemes break off, with the fault
that is behind them. `Node.Stops` says so of one step of the parser; all of its functions are such steps, by
one induction on the fuel (`Node.partsStop`), and so are directives and the whole document
(`Nodes.fails_ofLexemes`).
-/

namespace TemplateTree.Yaml

namespace Node

/-! ## 1. Small steps -/

/-- A step stops at what is malformed, or at the end of the lexemes. -/
abbrev Stops (ending : Fault) {α : Type} (m : Parse α) : Prop :=
  Keeps (fun _ => True) (fun e => e = .malformed ∨ e = ending) (fun _ => True) m

variable {ending : Fault} {α : Type}

theorem stops_malformed : Stops ending (throw .malformed : Parse α) := .throw (.inl rfl)

/-- Nothing is done behind a fault. -/
theorem stops_malformed_bind {β : Type} (f : α → Parse β) :
    Stops ending ((throw .malformed : Parse α) >>= f) :=
  Keeps.bind (Q := fun _ => False) (.throw (.inl rfl)) fun _ h => h.elim

theorem stops_pure (a : α) : Stops ending (pure a : Parse α) := .pure trivial

theorem stops_peek {c : Context} (hc : c.ending = ending) : Stops ending (peek c) := by
  refine Keeps.get.bind fun s _ => ?_
  split
  · exact .throw (.inr hc)
  · exact stops_pure _

theorem stops_advance : Stops ending advance := .update fun _ _ => trivial

theorem stops_add (n : Node) : Stops ending (add n) := .updateGet fun _ _ => trivial

theorem stops_enter (anchor : Option (List Char)) (n : Node) : Stops ending (enter anchor n) := by
  unfold enter
  split
  · exact stops_add n
  · refine Keeps.get.bind fun s _ => .ite (fun _ => stops_malformed) fun _ => ?_
    exact (stops_add n).bind fun i _ => (Keeps.update fun _ _ => trivial).bind fun _ _ => stops_pure i

theorem stops_ofAlias (name : List Char) : Stops ending (ofAlias name) := by
  refine Keeps.get.bind fun s _ => ?_
  split
  · exact stops_pure _
  · exact stops_malformed

theorem stops_properties {c : Context} (hc : c.ending = ending) : Stops ending (properties c) := by
  refine (stops_peek hc).bind fun l _ => ?_
  split
  · refine stops_advance.bind fun _ _ => (stops_peek hc).bind fun l' _ => ?_
    split
    · exact stops_advance.bind fun _ _ => stops_pure _
    · exact stops_pure _
  · refine stops_advance.bind fun _ _ => (stops_peek hc).bind fun l' _ => ?_
    split
    · exact stops_advance.bind fun _ _ => stops_pure _
    · exact stops_pure _
  · exact stops_pure _

theorem fails_tagName (c : Context) (t : TagName) :
    Fails (fun e => e = .malformed ∨ e = ending) (tagName c t) := by
  unfold tagName
  split
  · exact .ok _
  · split
    · exact .ok _
    · exact .error (.inl rfl)

theorem stops_tagName (c : Context) (tag : Option TagName) :
    Stops ending (tag.mapM fun t => (tagName c t : Except Fault _) : Parse _) := by
  cases tag with
  | none => exact stops_pure none
  | some t => exact (Keeps.lift (fails_tagName c t) fun _ _ => trivial).bind fun _ _ => stops_pure _

/-! ## 2. Nodes and their parts -/

/-- The functions of the parser stop, each with the same fuel. -/
structure PartsStop (ending : Fault) (steps : Nat) : Prop where
  parse {c : Context} (hc : c.ending = ending) (place : Place) : Stops ending (parse steps c place)
  blockItems {c : Context} (hc : c.ending = ending) : Stops ending (blockItems steps c)
  looseItems {c : Context} (hc : c.ending = ending) : Stops ending (looseItems steps c)
  blockEntries {c : Context} (hc : c.ending = ending) : Stops ending (blockEntries steps c)
  blockPart {c : Context} (hc : c.ending = ending) : Stops ending (blockPart steps c)
  flowItems {c : Context} (hc : c.ending = ending) (isFirst : Bool) : Stops ending (flowItems steps c isFirst)
  flowEntries {c : Context} (hc : c.ending = ending) (isFirst : Bool) :
    Stops ending (flowEntries steps c isFirst)
  flowEntry {c : Context} (hc : c.ending = ending) (closing : Lexeme) :
    Stops ending (flowEntry steps c closing)

section

variable {steps : Nat} {c : Context}

theorem PartsStop.parse_succ (h : PartsStop ending steps) (hc : c.ending = ending) (place : Place) :
    Stops ending (Node.parse (steps + 1) c place) := by
  unfold Node.parse
  refine (stops_peek hc).bind fun l _ => ?_
  split
  · exact stops_advance.bind fun _ _ => stops_ofAlias _
  · refine (stops_properties hc).bind fun p _ => ?_
    refine (stops_tagName c p.2).bind fun name _ => (stops_peek hc).bind fun next _ => ?_
    -- A collection is entered, its parts are parsed, and it takes its place.
    have hcollection (node : Parse Node) (hnode : Stops ending node) : Stops ending (do
        let i ← enter p.1 empty
        let n ← node
        modify fun s => { s with nodes := s.nodes.setIfInBounds i n }
        return i : Parse Nat) :=
      (stops_enter _ _).bind fun i _ => hnode.bind fun n _ =>
        (Keeps.update fun _ _ => trivial).bind fun _ _ => stops_pure i
    dsimp only
    split
    · exact (stops_enter _ _).bind fun i _ => stops_advance.bind fun _ _ => stops_pure i
    · exact hcollection _ (.bind (stops_advance.bind fun _ _ => h.flowItems hc true) fun _ _ => stops_pure _)
    · exact hcollection _
        (.bind (stops_advance.bind fun _ _ => h.flowEntries hc true) fun _ _ => stops_pure _)
    · refine .ite (fun _ => hcollection _ ((h.looseItems hc).bind fun _ _ => stops_pure _)) fun _ => ?_
      refine .ite (fun _ => ?_) fun _ => .ite (fun _ => ?_) fun _ => ?_
      · exact hcollection _ (.bind (stops_advance.bind fun _ _ => h.blockItems hc) fun _ _ => stops_pure _)
      · exact hcollection _ (.bind (stops_advance.bind fun _ _ => h.blockEntries hc) fun _ _ => stops_pure _)
      · exact .ite (fun _ => stops_enter _ _) fun _ => stops_malformed

theorem PartsStop.blockItems_succ (h : PartsStop ending steps) (hc : c.ending = ending) :
    Stops ending (Node.blockItems (steps + 1) c) := by
  unfold Node.blockItems
  refine (stops_peek hc).bind fun l _ => ?_
  split
  · refine stops_advance.bind fun _ _ => (stops_peek hc).bind fun next _ => ?_
    have hmore (item : Nat) : Stops ending ((item :: ·) <$> Node.blockItems steps c) :=
      (h.blockItems hc).bind fun _ _ => stops_pure _
    exact .ite (fun _ => (stops_add _).bind fun i _ => hmore i)
      fun _ => (h.parse hc .block).bind fun i _ => hmore i
  · exact stops_advance.bind fun _ _ => stops_pure _
  · exact stops_malformed

theorem PartsStop.looseItems_succ (h : PartsStop ending steps) (hc : c.ending = ending) :
    Stops ending (Node.looseItems (steps + 1) c) := by
  unfold Node.looseItems
  refine (stops_peek hc).bind fun l _ => ?_
  split
  · refine stops_advance.bind fun _ _ => (stops_peek hc).bind fun next _ => ?_
    have hmore (item : Nat) : Stops ending ((item :: ·) <$> Node.looseItems steps c) :=
      (h.looseItems hc).bind fun _ _ => stops_pure _
    exact .ite (fun _ => (stops_add _).bind fun i _ => hmore i)
      fun _ => (h.parse hc .block).bind fun i _ => hmore i
  · exact stops_pure _

theorem PartsStop.blockEntries_succ (h : PartsStop ending steps) (hc : c.ending = ending) :
    Stops ending (Node.blockEntries (steps + 1) c) := by
  unfold Node.blockEntries
  refine (stops_peek hc).bind fun l _ => ?_
  split
  · refine stops_advance.bind fun _ _ => (h.blockPart hc).bind fun key _ => ?_
    refine Keeps.bind (Q := fun _ => True) ?_ fun _ _ => (h.blockEntries hc).bind fun _ _ => stops_pure _
    refine (stops_peek hc).bind fun l' _ => ?_
    split
    · exact stops_advance.bind fun _ _ => h.blockPart hc
    · exact stops_add _
  · exact stops_advance.bind fun _ _ => stops_pure _
  · exact stops_malformed

theorem PartsStop.blockPart_succ (h : PartsStop ending steps) (hc : c.ending = ending) :
    Stops ending (Node.blockPart (steps + 1) c) := by
  unfold Node.blockPart
  exact (stops_peek hc).bind fun _ _ => .ite (fun _ => stops_add _) fun _ => h.parse hc .blockEntry

theorem PartsStop.flowItems_succ (h : PartsStop ending steps) (hc : c.ending = ending) (isFirst : Bool) :
    Stops ending (Node.flowItems (steps + 1) c isFirst) := by
  unfold Node.flowItems
  refine (stops_peek hc).bind fun next _ => ?_
  refine .ite (fun _ => stops_advance.bind fun _ _ => stops_pure _) fun _ => ?_
  refine .ite (fun _ => ?_) fun _ => .ite (fun _ => stops_advance.bind fun _ _ => ?_) fun _ =>
    stops_malformed_bind _
  all_goals
    refine (stops_peek hc).bind fun l _ => ?_
    split
    · exact stops_advance.bind fun _ _ => stops_pure _
    · exact (h.flowEntry hc _).bind fun _ _ => (stops_add _).bind fun _ _ =>
        (h.flowItems hc false).bind fun _ _ => stops_pure _
    · exact (h.parse hc .flow).bind fun _ _ => (h.flowItems hc false).bind fun _ _ => stops_pure _

theorem PartsStop.flowEntries_succ (h : PartsStop ending steps) (hc : c.ending = ending) (isFirst : Bool) :
    Stops ending (Node.flowEntries (steps + 1) c isFirst) := by
  unfold Node.flowEntries
  refine (stops_peek hc).bind fun next _ => ?_
  refine .ite (fun _ => stops_advance.bind fun _ _ => stops_pure _) fun _ => ?_
  refine .ite (fun _ => ?_) fun _ => .ite (fun _ => stops_advance.bind fun _ _ => ?_) fun _ =>
    stops_malformed_bind _
  all_goals
    refine (stops_peek hc).bind fun l _ => ?_
    split
    · exact stops_advance.bind fun _ _ => stops_pure _
    · exact (h.flowEntry hc _).bind fun _ _ => (h.flowEntries hc false).bind fun _ _ => stops_pure _
    · exact (h.parse hc .flow).bind fun _ _ => (stops_add _).bind fun _ _ =>
        (h.flowEntries hc false).bind fun _ _ => stops_pure _

theorem PartsStop.flowEntry_succ (h : PartsStop ending steps) (hc : c.ending = ending) (closing : Lexeme) :
    Stops ending (Node.flowEntry (steps + 1) c closing) := by
  unfold Node.flowEntry
  refine stops_advance.bind fun _ _ => (stops_peek hc).bind fun next _ => ?_
  refine .ite (fun _ => (stops_add _).bind fun key _ => ?_) fun _ => (h.parse hc .flow).bind fun key _ => ?_
  all_goals
    refine (stops_peek hc).bind fun l _ => ?_
    split
    · exact stops_advance.bind fun _ _ => (stops_peek hc).bind fun _ _ =>
        .ite (fun _ => (stops_add _).bind fun _ _ => stops_pure _) fun _ =>
          (h.parse hc .flow).bind fun _ _ => stops_pure _
    · exact (stops_add _).bind fun _ _ => stops_pure _

end

/-- **All functions of the parser stop**, by induction on the fuel. -/
theorem partsStop (ending : Fault) (steps : Nat) : PartsStop ending steps := by
  induction steps with
  | zero =>
    refine ⟨fun _ _ => ?_, fun _ => ?_, fun _ => ?_, fun _ => ?_, fun _ => ?_, fun _ _ => ?_, fun _ _ => ?_,
      fun _ _ => ?_⟩
    all_goals exact stops_malformed
  | succ steps ih =>
    exact ⟨ih.parse_succ, ih.blockItems_succ, ih.looseItems_succ, ih.blockEntries_succ, ih.blockPart_succ,
      ih.flowItems_succ, ih.flowEntries_succ, ih.flowEntry_succ⟩

/-! ## 3. Documents -/

variable {c : Context}

theorem stops_directives (hc : c.ending = ending) (steps : Nat) (versioned : Bool)
    (handles : List (List Char × List Char)) : Stops ending (directives c steps versioned handles) := by
  induction steps generalizing versioned handles with
  | zero => exact stops_pure _
  | succ steps ih =>
    unfold directives
    refine (stops_peek hc).bind fun l _ => ?_
    split
    · refine stops_advance.bind fun _ _ => ?_
      split
      · exact .ite (fun _ => stops_malformed_bind _) fun _ => ih _ _
      · exact .ite (fun _ => stops_malformed_bind _) fun _ => ih _ _
      · exact ih _ _
    · exact stops_pure _

theorem stops_skipDocumentEnds (hc : c.ending = ending) (steps : Nat) :
    Stops ending (skipDocumentEnds c steps) := by
  induction steps with
  | zero => exact stops_pure _
  | succ steps ih =>
    unfold skipDocumentEnds
    exact (stops_peek hc).bind fun _ _ =>
      .ite (fun _ => stops_advance.bind fun _ _ => ih) fun _ => stops_pure _

theorem stops_document (hc : c.ending = ending) (size : Nat) : Stops ending (document size c) := by
  -- What comes behind the root, however that was found.
  have hend (root : Nat) : Stops ending (do
      skipDocumentEnds c size
      if (← peek c) = .streamEnd then
        return some root
      let _ ← directives c size false []
      let _ ← peek c
      throw .malformed : Parse (Option Nat)) :=
    (stops_skipDocumentEnds hc size).bind fun _ _ => (stops_peek hc).bind fun _ _ =>
      .ite (fun _ => stops_pure _) fun _ => (stops_directives hc size _ _).bind fun _ _ =>
        (stops_peek hc).bind fun _ _ => stops_malformed
  have hparse (handles : List (List Char × List Char)) :
      Stops ending (parse size { c with handles } .block) :=
    PartsStop.parse (c := { c with handles }) (partsStop ending size) hc .block
  unfold document
  refine (stops_peek hc).bind fun first _ => .ite (fun _ => stops_pure _) fun _ => ?_
  refine .ite (fun _ => ?_) fun _ => ?_
  · refine (stops_directives hc size _ _).bind fun _ _ => (stops_peek hc).bind fun _ _ => ?_
    refine .ite (fun _ => stops_malformed_bind _) fun _ => ?_
    exact stops_advance.bind fun _ _ => (stops_peek hc).bind fun _ _ =>
      .ite (fun _ => (stops_add _).bind fun root _ => hend root) fun _ =>
        (hparse _).bind fun root _ => hend root
  · exact (hparse c.handles).bind fun root _ => hend root

end Node

/-- **The nodes of some lexemes** are missing for the fault behind them, unless they are malformed. -/
theorem Nodes.fails_ofLexemes (ls : Lexemes) :
    Fails (fun e => e = .malformed ∨ ls.fault? = some e) (Nodes.ofLexemes ls) := by
  have hfails := (Node.stops_document rfl (4 * ls.lexemes.length + 4)
    (c := { handles := Node.defaultHandles, ending := ls.fault?.getD .malformed })).fails
      { lexemes := ls.lexemes } trivial
  refine Fails.bind (hfails.imp fun e he => ?_) fun _ _ => .ok _
  rcases he with he | he
  · exact .inl he
  · cases hfault : ls.fault? with
    | none =>
      rw [hfault] at he
      exact .inl he
    | some f =>
      rw [hfault] at he
      exact .inr (congrArg some he.symm)

end TemplateTree.Yaml
