import TemplateTree.Proofs.Code.Binding
import TemplateTree.Proofs.Settings.Names
import TemplateTree.Proofs.Target.Reading

/-!
# Generated code is read as its syntax tree

`ReadsAs text t` says of a text that it is cut into lexemes that the grammar reads as `t`, wherever
it stands and however far it is moved in. There is one rule for each piece of the code (`Code`), and
from them the code of every expression is read as its syntax tree (`Expr.readsAs_code`). A reader
takes it exactly where no loop stands in the condition of a loop (`Expr.read?_code`).
-/

namespace TemplateTree

namespace Target

/-! ## 1. Texts that are read as an operand -/

/-- The lexemes of a text that has some. -/
def lex (text : Text) : List Lexeme := (lexemes? text).getD []

theorem Scans.lex_eq {text : Text} {ls : List Lexeme} (h : Scans text ls) : lex text = ls := by
  simp [lex, h.lexemes]

/-- A text is read as an operand. -/
structure ReadsAs (text : Text) (t : Term) : Prop where
  scans : Scans text (lex text)
  operand : Operand (lex text) t

/-- A text is read as an operand without a `not` or a sign, so that a call may follow. -/
structure ReadsPrimary (text : Text) (t : Term) : Prop where
  scans : Scans text (lex text)
  primary : Primary (lex text) t

theorem ReadsAs.of {text : Text} {ls : List Lexeme} {t : Term} (hs : Scans text ls)
    (ho : Operand ls t) : ReadsAs text t := by
  obtain rfl := hs.lex_eq
  exact ⟨hs, ho⟩

theorem ReadsPrimary.of {text : Text} {ls : List Lexeme} {t : Term} (hs : Scans text ls)
    (ho : Primary ls t) : ReadsPrimary text t := by
  obtain rfl := hs.lex_eq
  exact ⟨hs, ho⟩

theorem ReadsPrimary.readsAs {text : Text} {t : Term} (h : ReadsPrimary text t) : ReadsAs text t :=
  ⟨h.scans, h.primary.operand⟩

/-! ## 2. Names, numbers and lists -/

section

variable {text : Text} {t : Term}

theorem ReadsPrimary.name {x : Text} (h : Identifier.isName x = true) :
    ReadsPrimary x (.name x) :=
  .of (Scans.name h) (Primary.name x)

theorem ReadsPrimary.member {a : Text} (h : ReadsPrimary text t)
    (ha : Identifier.isName a = true) : ReadsPrimary (text ++ "." ++ a) (.member t a) := by
  have hdot : Closes "." [.dot] := rfl
  have hs := (h.scans.append_closes hdot rfl (by decide)).append_scans (Scans.name ha)
  exact .of hs (by simpa using h.primary.member a)

theorem ReadsPrimary.runtimeMember {n : RuntimeNames} (hn : n.Valid) {a : Text}
    (ha : Identifier.isName a = true) : ReadsPrimary (n.member a) (.runtimeMember n a) :=
  (ReadsPrimary.name hn.runtime).member ha

theorem ReadsPrimary.index {key : Text} {k : Term} (h : ReadsPrimary text t)
    (hk : ReadsAs key k) : ReadsPrimary (text ++ "[" ++ key ++ "]") (.index t k) := by
  have hopen : Closes "[" [.openSquare] := rfl
  have hclose : Closes "]" [.closeSquare] := rfl
  have hs := (((h.scans.append_closes hopen rfl (by decide)).append_scans
    hk.scans).append_closes hclose rfl (by decide)).scans
  exact .of hs (by simpa using h.primary.index (hk.operand.reads .expression))

theorem ReadsAs.integer (z : Int) : ReadsAs (Decimal.ofInt z) (.integer z) := by
  have hnum := Primary.number z.natAbs
  unfold Decimal.ofInt Term.integer
  split
  · have hminus : Closes "-" [.minus] := rfl
    exact .of (hminus.append_scans (Scans.ofNat _)) hnum.negative
  · exact .of (Scans.ofNat _) hnum.operand

/-- The lexemes of texts beside their expressions. -/
def lexed (parts : List (Text × Term)) : List (List Lexeme × Term) :=
  parts.map fun p => (lex p.1, p.2)

@[simp] theorem map_fst_lexed (parts : List (Text × Term)) :
    (lexed parts).map Prod.fst = (parts.map Prod.fst).map lex := by
  simp [lexed]

@[simp] theorem map_snd_lexed (parts : List (Text × Term)) :
    (lexed parts).map Prod.snd = parts.map Prod.snd := by
  simp [lexed]

theorem operand_of_mem_lexed {parts : List (Text × Term)} (h : ∀ p ∈ parts, ReadsAs p.1 p.2) :
    ∀ q ∈ lexed parts, Operand q.1 q.2 := by
  intro q hq
  obtain ⟨p, hp, rfl⟩ := List.mem_map.mp hq
  exact (h p hp).operand

theorem Scans.join {texts : List Text} (h : ∀ u ∈ texts, Scans u (lex u)) :
    Scans (Text.join ", " texts) (joined (texts.map lex)) := by
  induction texts with
  | nil => exact Closes.scans rfl
  | cons u texts ih =>
    cases texts with
    | nil => simpa [Text.join, List.intercalate, joined] using h u (by simp)
    | cons v texts =>
      have hcomma : Closes ", " [.comma] := rfl
      have hu := (h u (by simp)).append_closes hcomma rfl (by decide)
      have hs := hu.append_scans (ih fun w hw => h w (by simp [hw]))
      simpa [Text.join, List.intercalate, joined] using hs

/-- **A call is read as one**, from how its function and its arguments are read. -/
theorem ReadsPrimary.call {parts : List (Text × Term)} (h : ReadsPrimary text t)
    (hp : ∀ p ∈ parts, ReadsAs p.1 p.2) :
    ReadsPrimary (Code.call text (parts.map Prod.fst)) (.call t (parts.map Prod.snd)) := by
  have hopen : Closes "(" [.openRound] := rfl
  have hclose : Closes ")" [.closeRound] := rfl
  have hargs : ∀ u ∈ parts.map Prod.fst, Scans u (lex u) := by
    intro u hu
    obtain ⟨p, hmem, rfl⟩ := List.mem_map.mp hu
    exact (hp p hmem).scans
  have hs := (((h.scans.append_closes hopen rfl (by decide)).append_scans
    (Scans.join hargs)).append_closes hclose rfl (by decide)).scans
  have hcall := h.primary.call fun q hq => (operand_of_mem_lexed hp q hq).reads .expression
  exact .of hs (by simpa using hcall)

/-! ## 3. Layout -/

theorem step_blank : ∀ c ∈ Code.step, c = .scalar ' ' := by decide

theorem Scans.nest {ls : List Lexeme} (h : Scans text ls) : Scans (Code.nest text) ls :=
  h.indent step_blank

theorem Scans.unlines {α : Type} {f : α → Text} {g : α → List Lexeme} {xs : List α}
    (h : ∀ x ∈ xs, Scans (f x) (g x)) : Scans (Text.unlines (xs.map f)) (xs.flatMap g) := by
  induction xs with
  | nil => exact Closes.scans rfl
  | cons x xs ih =>
    cases xs with
    | nil => simpa using h x (by simp)
    | cons y xs =>
      have hbreak : Closes [newline] [] := rfl
      have hx := (h x (by simp)).append_closes hbreak rfl (by decide)
      have hs := hx.append_scans (ih fun z hz => h z (by simp [hz]))
      rw [List.map_cons, Text.unlines_cons _ (by simp)]
      simpa using hs

/-! ## 4. Sequences, tests and chains -/

theorem ReadsAs.sequence {parts : List (Text × Term)} (hne : parts ≠ [])
    (hp : ∀ p ∈ parts, ReadsAs p.1 p.2) :
    ReadsAs (Code.sequence (parts.map Prod.fst)) (.sequence (parts.map Prod.snd)) := by
  have hcomma : Closes "," [.comma] := rfl
  have hopen : Closes "(lambda: (\n" [.openRound, .lambdaWord, .colon, .openRound] := rfl
  have hclose : Closes "\n)[-1])()" [.closeRound, .openSquare, .minus, .number 1, .closeSquare,
    .closeRound, .openRound, .closeRound] := rfl
  have hitem : ∀ u ∈ parts.map Prod.fst,
      Scans (Code.nest (u ++ ",")) (lex u ++ [.comma]) := by
    intro u hu
    obtain ⟨p, hmem, rfl⟩ := List.mem_map.mp hu
    exact ((hp p hmem).scans.append_closes hcomma rfl (by decide)).scans.nest
  have hs := ((hopen.append_scans (Scans.unlines hitem)).append_closes hclose rfl
    (by decide)).scans
  have htuple : Primary _ (.tuple ((lexed parts).map Prod.snd)) :=
    Primary.tuple (by simpa [lexed] using hne) fun q hq =>
      ((operand_of_mem_lexed hp q hq).reads .expression).named
  have hone := (Primary.number 1).negative.reads .expression
  have hthunk := Primary.thunk ((htuple.index hone).operand.reads .expression)
  refine .of hs ?_
  simpa [Term.sequence, listed, List.flatMap_map] using hthunk.operand

theorem ReadsAs.test {n : RuntimeNames} (hn : n.Valid) (negated : Bool)
    {parts : List (Text × Term)} (hp : ∀ p ∈ parts, ReadsAs p.1 p.2) :
    ReadsAs (Code.test n negated (parts.map Prod.fst))
      (.test n negated (parts.map Prod.snd)) := by
  have hnot : Closes "not " [.notWord] := rfl
  match parts, hp with
  | [], _ =>
    cases negated with
    | true => exact .of ⟨_, _, _, rfl, rfl, rfl⟩ Primary.false.operand
    | false => exact .of ⟨_, _, _, rfl, rfl, rfl⟩ Primary.true.operand
  | [p], hp =>
    have hcall := (ReadsPrimary.runtimeMember hn hn.isEmpty).call hp
    cases negated with
    | true => exact hcall.readsAs
    | false => exact .of (hnot.append_scans hcall.scans) hcall.primary.operand.not
  | p :: q :: parts, hp =>
    have hcall := (ReadsPrimary.runtimeMember hn hn.areAllEqual).call hp
    cases negated with
    | true => exact .of (hnot.append_scans hcall.scans) hcall.primary.operand.not
    | false => exact hcall.readsAs

/-- The lexemes of conditions and branches, each a text beside its expression. -/
def branchLexemes : List ((Text × Term) × (Text × Term)) → List Lexeme
  | [] => [.noneWord]
  | (test, branch) :: rest =>
    lex branch.1 ++ .ifWord :: (.openRound :: (lex test.1 ++ [.closeRound]) ++
      .elseWord :: branchLexemes rest)

theorem reads_branches {clauses : List ((Text × Term) × (Text × Term))}
    (hc : ∀ c ∈ clauses, ReadsAs c.1.1 c.1.2 ∧ ReadsAs c.2.1 c.2.2) :
    Reads .expression (branchLexemes clauses)
      (.branches (clauses.map fun c => (c.1.2, c.2.2))) := by
  induction clauses with
  | nil => exact Primary.none.operand.reads .expression
  | cons c clauses ih =>
    obtain ⟨htest, hbranch⟩ := hc c (by simp)
    have hgroup := Primary.group (htest.operand.reads .expression).named
    exact Reads.conditional hbranch.operand hgroup.operand (ih fun d hd => hc d (by simp [hd]))

theorem scans_branches {clauses : List ((Text × Term) × (Text × Term))}
    (hc : ∀ c ∈ clauses, ReadsAs c.1.1 c.1.2 ∧ ReadsAs c.2.1 c.2.2) :
    Scans (Text.unlines ((clauses.map fun c => (c.1.1, c.2.1)).map
        (fun c => Code.nest (c.2 ++ " if (" ++ c.1 ++ ") else")) ++ [Code.nest "None"]))
      (branchLexemes clauses) := by
  induction clauses with
  | nil =>
    have hnone : Scans "None" [.noneWord] := ⟨_, _, _, rfl, rfl, rfl⟩
    simpa [branchLexemes] using hnone.nest
  | cons c clauses ih =>
    obtain ⟨htest, hbranch⟩ := hc c (by simp)
    have hif : Closes " if (" [.ifWord, .openRound] := rfl
    have helse : Scans ") else" [.closeRound, .elseWord] := ⟨_, _, _, rfl, rfl, rfl⟩
    have hline := ((hbranch.scans.append_closes hif rfl (by decide)).append_scans
      htest.scans).append helse rfl
    have hbreak : Closes [newline] [] := rfl
    have hs := (hline.nest.append_closes hbreak rfl (by decide)).append_scans
      (ih fun d hd => hc d (by simp [hd]))
    rw [List.map_cons, List.map_cons, List.cons_append, Text.unlines_cons _ (by simp)]
    simpa [branchLexemes] using hs

theorem ReadsAs.chain {clauses : List ((Text × Term) × (Text × Term))}
    (hc : ∀ c ∈ clauses, ReadsAs c.1.1 c.1.2 ∧ ReadsAs c.2.1 c.2.2) :
    ReadsAs (Code.chain (clauses.map fun c => (c.1.1, c.2.1)))
      (.chain (clauses.map fun c => (c.1.2, c.2.2))) := by
  have hopen : Closes "(lambda: (\n" [.openRound, .lambdaWord, .colon, .openRound] := rfl
  have hclose : Closes "\n))()" [.closeRound, .closeRound, .openRound, .closeRound] := rfl
  have hs := ((hopen.append_scans (scans_branches hc)).append_closes hclose rfl
    (by decide)).scans
  have hgroup := Primary.group (reads_branches hc).named
  have hthunk := Primary.thunk (hgroup.operand.reads .expression)
  exact .of hs (by simpa [Term.chain] using hthunk.operand)

/-! ## 5. Loops -/

theorem ReadsPrimary.bind {x : Text} (h : ReadsAs text t) (hx : Scans x [.name x]) :
    ReadsPrimary ("(" ++ x ++ " := " ++ text ++ ")") (.bind x t) := by
  have hopen : Closes "(" [.openRound] := rfl
  have hbinds : Closes " := " [.binds] := rfl
  have hclose : Closes ")" [.closeRound] := rfl
  have hs := ((((hopen.append_scans hx).append_closes hbinds rfl (by decide)).append_scans
    h.scans).append_closes hclose rfl (by decide)).scans
  have hbind := Primary.group ((h.operand.reads .expression).bind x)
  exact .of hs (by simpa using hbind)

theorem scans_result : Scans Code.result [.name Code.result] := ⟨_, _, _, rfl, rfl, rfl⟩

theorem readsPrimary_items : ReadsPrimary Code.items (.name Code.items) :=
  .of ⟨_, _, _, rfl, rfl, rfl⟩ (Primary.name _)

theorem readsPrimary_position : ReadsPrimary Code.position (.name Code.position) :=
  .of ⟨_, _, _, rfl, rfl, rfl⟩ (Primary.name _)

/-- A variable that may be bound, as a step of a loop: none or one text beside its expression. -/
def bindParts (n : RuntimeNames) (line : Int) (bound? : Option (Text × Term))
    (value : Text × Term) : List (Text × Term) :=
  match bound? with
  | none => []
  | some bound =>
    [(Code.call n.assignment [Decimal.ofInt line, bound.1, value.1],
      .call (.member (.runtimeMember n n.commands) n.assign)
        [.integer line, bound.2, value.2])]

theorem map_bindParts_fst (n : RuntimeNames) (line : Int) (bound? : Option (Text × Term))
    (value : Text × Term) :
    (bindParts n line bound? value).map (fun p => (p.1 ++ "," : Text))
      = Code.bindStep n line (bound?.map Prod.fst) value.1 := by
  cases bound? <;> rfl

theorem map_bindParts_snd (n : RuntimeNames) (line : Int) (bound? : Option (Text × Term))
    (value : Text × Term) :
    (bindParts n line bound? value).map Prod.snd
      = Term.bindStep n line (bound?.map Prod.snd) value.2 := by
  cases bound? <;> rfl

theorem readsAs_bindParts {n : RuntimeNames} (hn : n.Valid) (line : Int)
    {bound? : Option (Text × Term)} (hb : ∀ b ∈ bound?, ReadsAs b.1 b.2)
    {value : Text × Term} (hv : ReadsAs value.1 value.2) :
    ∀ p ∈ bindParts n line bound? value, ReadsAs p.1 p.2 := by
  cases bound? with
  | none => simp [bindParts]
  | some bound =>
    have hargs : ∀ p ∈ [(Decimal.ofInt line, Term.integer line), bound, value],
        ReadsAs p.1 p.2 := by
      simp only [List.mem_cons, List.not_mem_nil, or_false]
      rintro p (rfl | rfl | rfl)
      · exact ReadsAs.integer line
      · exact hb _ rfl
      · exact hv
    have hassign := (ReadsPrimary.runtimeMember hn hn.commands).member hn.assign
    intro p hp
    obtain rfl := List.mem_singleton.mp hp
    exact (hassign.call hargs).readsAs

/-- The lexemes of a loop: a lambda with a result so far that starts empty, called on the spot. -/
theorem Primary.loop {ls ps ks fs : List Lexeme} {xs : List Text} {x : Text} {source filter : Term}
    {parts : List (List Lexeme × Term)} (hparams : Parameters ps xs [.text []])
    (hsource : Operand ks source) (hfilter : Reads .disjunction fs filter)
    (hparts : ∀ p ∈ parts, Reads .expression p.1 p.2)
    (hls : ls = .openRound :: .lambdaWord :: (ps ++ .colon :: .openSquare :: .noneWord :: .forWord ::
      .name x :: .inWord :: (ks ++ .ifWord :: (fs ++ .closeSquare :: .orWord ::
        .name Code.result :: .closeRound :: .openRound ::
          (joined (parts.map Prod.fst) ++ [.closeRound]))))) :
    Primary ls (.call (.lambda xs [.text []] (.loop x source filter)) (parts.map Prod.snd)) := by
  have hlist := Primary.comprehension Primary.none.operand x hsource hfilter
  have hbody := Reads.or hlist.operand (Primary.name Code.result).operand
  have hloop := (Primary.group (Reads.lambda hparams hbody).named).call hparts
  simpa [Term.loop, hls] using hloop

/-- The text of a loop: what is in front of it, the loop itself, and what it is called with. -/
theorem Scans.loop {opening loop arguments : Text} {ls ks as : List Lexeme}
    (ho : Closes opening ls) (hl : Scans loop ks) (ha : Scans arguments as) :
    Scans (opening ++ Code.nest loop ++ "\n] or " ++ Code.result ++ ")(" ++ arguments ++ ")")
      (ls ++ ks ++ [.closeSquare, .orWord, .name Code.result, .closeRound, .openRound] ++ as
        ++ [.closeRound]) := by
  have hor : Closes "\n] or " [.closeSquare, .orWord] := rfl
  have hcall : Closes ")(" [.closeRound, .openRound] := rfl
  have hclose : Closes ")" [.closeRound] := rfl
  have hbody := ((ho.append_scans hl.nest).append_closes hor rfl (by decide)).append_scans
    scans_result
  have hs := (((hbody.append_closes hcall rfl (by decide)).append_scans ha).append_closes hclose
    rfl (by decide)).scans
  simpa using hs

/-- The steps of a loop over a collection, each a text beside its expression. -/
def loopParts (n : RuntimeNames) (line : Int) (body : Text × Term)
    (element? position? : Option (Text × Term)) : List (Text × Term) :=
  bindParts n line position? (Code.position, .name Code.position)
    ++ bindParts n line element? (Code.items ++ "[" ++ Code.position ++ "]",
      .index (.name Code.items) (.name Code.position))
    ++ [("(" ++ Code.result ++ " := " ++ body.1 ++ ")", .bind Code.result body.2)]

theorem map_loopParts_fst (n : RuntimeNames) (line : Int) (body : Text × Term)
    (element? position? : Option (Text × Term)) :
    (loopParts n line body element? position?).map (fun p => (p.1 ++ "," : Text))
      = Code.bindStep n line (position?.map Prod.fst) Code.position
        ++ Code.bindStep n line (element?.map Prod.fst) (Code.items ++ "[" ++ Code.position ++ "]")
        ++ ["(" ++ Code.result ++ " := " ++ body.1 ++ "),"] := by
  simp only [loopParts, List.map_append, map_bindParts_fst, List.map_cons, List.map_nil]
  rw [List.append_assoc _ (")" : Text) (Text.ofString ",")]
  rfl

theorem map_loopParts_snd (n : RuntimeNames) (line : Int) (body : Text × Term)
    (element? position? : Option (Text × Term)) :
    (loopParts n line body element? position?).map Prod.snd
      = Term.loopSteps n line body.2 (element?.map Prod.snd) (position?.map Prod.snd) := by
  simp only [loopParts, List.map_append, map_bindParts_snd, Term.loopSteps]
  rfl

theorem readsAs_loopParts {n : RuntimeNames} (hn : n.Valid) (line : Int)
    {body : Text × Term} {element? position? : Option (Text × Term)} (hb : ReadsAs body.1 body.2)
    (he : ∀ e ∈ element?, ReadsAs e.1 e.2) (hp : ∀ p ∈ position?, ReadsAs p.1 p.2) :
    ∀ p ∈ loopParts n line body element? position?, ReadsAs p.1 p.2 := by
  have helement := (readsPrimary_items.index readsPrimary_position.readsAs).readsAs
  intro p hmem
  simp only [loopParts, List.append_assoc, List.mem_append, List.mem_singleton] at hmem
  rcases hmem with hmem | hmem | rfl
  · exact readsAs_bindParts hn line hp readsPrimary_position.readsAs p hmem
  · exact readsAs_bindParts hn line he helement p hmem
  · exact (ReadsPrimary.bind hb scans_result).readsAs

/-- The filter of a loop over a collection is read as its steps in front of a constant. -/
theorem readsFilter_steps (parts : List (Text × Term)) (hne : parts ≠ [])
    (h : ∀ p ∈ parts, ReadsAs p.1 p.2) :
    Scans ("if (\n" ++ Code.nest (Text.unlines (parts.map fun p => (p.1 ++ "," : Text)))
        ++ "\n) and False")
      (.ifWord :: .openRound :: (listed ((parts.map Prod.fst).map lex)
        ++ [.closeRound, .andWord, .falseWord])) ∧
    Reads .disjunction (.openRound :: (listed ((parts.map Prod.fst).map lex)
        ++ [.closeRound, .andWord, .falseWord]))
      (.and (.tuple (parts.map Prod.snd)) (.bool false)) := by
  have hcomma : Closes "," [.comma] := rfl
  have hif : Closes "if (\n" [.ifWord, .openRound] := rfl
  have hfalse : Scans "\n) and False" [.closeRound, .andWord, .falseWord] :=
    ⟨_, _, _, rfl, rfl, rfl⟩
  have hlines : Scans (Text.unlines (parts.map fun p => (p.1 ++ "," : Text)))
      (parts.flatMap fun p => lex p.1 ++ [.comma]) :=
    Scans.unlines fun p hmem => ((h p hmem).scans.append_closes hcomma rfl (by decide)).scans
  have htuple : Primary _ (.tuple ((lexed parts).map Prod.snd)) :=
    Primary.tuple (by simpa [lexed] using hne) fun q hq =>
      ((operand_of_mem_lexed h q hq).reads .expression).named
  constructor
  · simpa [listed, List.flatMap_map] using (hif.append_scans hlines.nest).append hfalse rfl
  · simpa using Reads.and htuple.operand Primary.false.operand

/-- The positions of the elements. -/
theorem operand_positions :
    Operand [.name "range", .openRound, .name "len", .openRound, .name Code.items, .closeRound,
      .closeRound] .positions := by
  have hitems : ∀ p ∈ [([Lexeme.name Code.items], Term.name Code.items)],
      Reads .expression p.1 p.2 := by
    simpa using (Primary.name Code.items).operand.reads .expression
  have hlen := (Primary.name "len").call hitems
  have hlen' : ∀ p ∈ [([Lexeme.name "len", .openRound, .name Code.items, .closeRound],
      Term.call (.name "len") [.name Code.items])], Reads .expression p.1 p.2 := by
    simpa [joined] using hlen.operand.reads .expression
  exact ((Primary.name "range").call hlen').operand

theorem ReadsAs.overElements {n : RuntimeNames} (hn : n.Valid) (line : Int)
    {iterable body : Text} {i b : Term} {element? position? : Option (Text × Term)}
    (hi : ReadsAs iterable i) (hb : ReadsAs body b)
    (he : ∀ e ∈ element?, ReadsAs e.1 e.2) (hp : ∀ p ∈ position?, ReadsAs p.1 p.2) :
    ReadsAs
      (Code.overElements n line iterable body (element?.map Prod.fst) (position?.map Prod.fst))
      (.overElements n line i b (element?.map Prod.snd) (position?.map Prod.snd)) := by
  let parts := loopParts n line (body, b) element? position?
  obtain ⟨hscans, hreads⟩ := readsFilter_steps parts (by simp [parts, loopParts])
    (readsAs_loopParts hn line hb he hp)
  have hopen : Closes (("(lambda " : Text) ++ Code.items ++ ", " ++ Code.result ++ "=\"\": [\n")
    [.openRound, .lambdaWord, .name Code.items, .comma, .name Code.result, .equals, .text [],
      .colon, .openSquare] := rfl
  have hfor : Closes (("None\nfor " : Text) ++ Code.position ++ " in range(len(" ++ Code.items
      ++ "))\n") [.noneWord, .forWord, .name Code.position, .inWord, .name "range", .openRound,
        .name "len", .openRound, .name Code.items, .closeRound, .closeRound] := rfl
  have hargs : ∀ p ∈ [(iterable, i)], ReadsAs p.1 p.2 := by simpa using hi
  have helements : ReadsPrimary (Code.call n.elementList [iterable])
      (.call (.runtimeMember n n.elements) [i]) :=
    (ReadsPrimary.runtimeMember hn hn.elements).call hargs
  have hs := Scans.loop hopen (hfor.append_scans hscans) helements.scans
  have hcall : ∀ p ∈ [(lex (Code.call n.elementList [iterable]),
      Term.call (.runtimeMember n n.elements) [i])], Reads .expression p.1 p.2 := by
    simpa using helements.primary.operand.reads .expression
  have hparams : Parameters _ [Code.items, Code.result] [.text []] :=
    Parameters.cons Code.items (Parameters.default Code.result [])
  have hloop := Primary.loop (x := Code.position) hparams operand_positions hreads hcall rfl
  rw [map_loopParts_fst] at hs
  rw [map_loopParts_snd] at hloop
  exact .of hs (by simpa [joined, Term.overElements, Term.turn] using hloop.operand)

/-- The outcomes of a test, polled until it fails. -/
theorem Operand.polls {ls : List Lexeme} {t : Term} (h : Operand ls t) :
    Operand (.name "iter" :: .openRound :: .lambdaWord :: .colon :: .name "bool" :: .openRound ::
        (ls ++ [.closeRound, .comma, .falseWord, .closeRound]))
      (.polls t) := by
  have htest : ∀ p ∈ [(ls, t)], Reads .expression p.1 p.2 := by
    simpa using h.reads .expression
  have hbool := (Primary.name "bool").call htest
  have hlambda := Reads.lambda Parameters.nil (hbool.operand.reads .expression)
  have hargs : ∀ p ∈ [([.lambdaWord, .colon, .name "bool", .openRound] ++ ls ++ [.closeRound],
      Term.lambda [] [] (.call (.name "bool") [t])), ([.falseWord], .bool false)],
      Reads .expression p.1 p.2 := by
    simp only [List.mem_cons, List.not_mem_nil, or_false]
    rintro p (rfl | rfl)
    · simpa [joined] using hlambda
    · exact Primary.false.operand.reads .expression
  simpa [joined, Term.polls] using ((Primary.name "iter").call hargs).operand

theorem ReadsAs.whileHolds {test body : Text} {t b : Term} (ht : ReadsAs test t)
    (hb : ReadsAs body b) :
    ReadsAs (Code.whileHolds test body) (.whileHolds t b) := by
  have hopen : Closes (("(lambda " : Text) ++ Code.result ++ "=\"\": [\n")
    [.openRound, .lambdaWord, .name Code.result, .equals, .text [], .colon, .openSquare] := rfl
  have hfor : Closes "None\nfor _ in iter(lambda: bool(" [.noneWord, .forWord, .name "_", .inWord,
    .name "iter", .openRound, .lambdaWord, .colon, .name "bool", .openRound] := rfl
  have hif : Closes (("), False)\nif (" : Text) ++ Code.result ++ " := ") [.closeRound, .comma,
    .falseWord, .closeRound, .ifWord, .openRound, .name Code.result, .binds] := rfl
  have hand : Scans ") and False" [.closeRound, .andWord, .falseWord] := ⟨_, _, _, rfl, rfl, rfl⟩
  have hnone : Scans [] [] := Closes.scans rfl
  have hscans := (((hfor.append_scans ht.scans).append_closes hif rfl (by decide)).append_scans
    hb.scans).append hand rfl
  have hs := Scans.loop hopen hscans hnone
  have hbind := Primary.group ((hb.operand.reads .expression).bind Code.result)
  have hreads := Reads.and hbind.operand Primary.false.operand
  have hcall : ∀ p ∈ ([] : List (List Lexeme × Term)), Reads .expression p.1 p.2 := by simp
  have hparams : Parameters _ [Code.result] [.text []] := Parameters.default Code.result []
  have hloop := Primary.loop (x := "_") hparams ht.operand.polls hreads hcall rfl
  have hcalled : (")()" : Text) = Text.ofString ")(" ++ Text.ofString ")" := rfl
  exact .of (by simpa [Code.whileHolds, hcalled] using hs)
    (by simpa [joined, Term.whileHolds] using hloop.operand)

end

end Target

/-! ## 6. The code of an expression -/

namespace Expr

open Target

/-- **The code of an expression is read as its syntax tree.** -/
theorem readsAs_code {n : RuntimeNames} (hn : n.Valid) (e : Expr) :
    ReadsAs (e.code n) (e.term n) := by
  induction e with
  | string value => exact .of (Closes.literal value).scans (Primary.text value).operand
  | command line name arguments hname harguments =>
    have hindex := (ReadsPrimary.runtimeMember hn hn.commands).index hname
    have hargs : ∀ p ∈ (Decimal.ofInt line, Term.integer line)
        :: arguments.map fun e => (e.code n, e.term n), ReadsAs p.1 p.2 := by
      simpa using ⟨ReadsAs.integer line, harguments⟩
    have h := (hindex.call hargs).readsAs
    simpa [code, term, codes_eq_map, terms_eq_map, RuntimeNames.commandTable, Term.commandCall,
      Function.comp_def] using h
  | block first rest hfirst hrest =>
    have hitems : ∀ p ∈ (first :: rest).map fun e => (e.code n, e.term n),
        ReadsAs p.1 p.2 := by
      simpa using ⟨hfirst, hrest⟩
    have h := ReadsAs.sequence (by simp) hitems
    simpa [code, term, codes_eq_map, terms_eq_map, Function.comp_def] using h
  | condition negated operands hoperands =>
    have hitems : ∀ p ∈ operands.map fun e => (e.code n, e.term n), ReadsAs p.1 p.2 := by
      simpa using hoperands
    have h := ReadsAs.test hn negated hitems
    simpa [code, term, codes_eq_map, terms_eq_map, Function.comp_def] using h
  | choice clauses hclauses =>
    have hitems : ∀ p ∈ clauses.map fun c => ((c.1.code n, c.1.term n), (c.2.code n, c.2.term n)),
        ReadsAs p.1.1 p.1.2 ∧ ReadsAs p.2.1 p.2.2 := by
      intro p hp
      obtain ⟨c, hc, rfl⟩ := List.mem_map.mp hp
      exact hclauses c hc
    have h := ReadsAs.chain hitems
    simpa [code, term, clauseCodes_eq_map, clauseTerms_eq_map, Function.comp_def] using h
  | forEach line iterable body element position hiterable hbody helement hposition =>
    have hoption : ∀ {o : Option Expr}, (∀ e ∈ o, ReadsAs (e.code n) (e.term n)) →
        ∀ p ∈ o.map fun e => (e.code n, e.term n), ReadsAs p.1 p.2 := by
      intro o ho p hp
      obtain ⟨e, he, rfl⟩ := Option.map_eq_some_iff.mp hp
      exact ho e he
    have h := ReadsAs.overElements hn line hiterable hbody (hoption helement) (hoption hposition)
    simpa [code, term, optionCode_eq_map, optionTerm_eq_map, Function.comp_def] using h
  | whileLoop test body htest hbody => exact ReadsAs.whileHolds htest hbody

/-- The lexemes of the code of an expression are those of its syntax tree. -/
theorem ofLexemes?_code {n : RuntimeNames} (hn : n.Valid) (e : Expr) :
    (lexemes? (e.code n)).bind ofLexemes? = some (e.term n) := by
  have h := readsAs_code hn e
  rw [h.scans.lexemes, Option.bind_some, h.operand.ofLexemes?_eq]

end Expr

end TemplateTree
