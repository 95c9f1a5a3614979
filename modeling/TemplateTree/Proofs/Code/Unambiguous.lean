import TemplateTree.Proofs.Code.Reading

/-!
# Generated code is unambiguous

The expression can be recovered from its code (`Expr.ofCode?`): the text is read as a syntax tree, and
the form of that tree alone tells which piece of the code it is, so that names may coincide. One thing
is not shown by the code and cannot be recovered: the line of a loop over a collection that binds no
variable (`Expr.clearDeadLines` sets it to zero). Up to these lines the reader gives an expression back
(`Expr.ofCode?_code`), so that two expressions have the same code exactly where they are the same.
-/

namespace TemplateTree

/-! ## 1. Lines that the code does not show -/

namespace Expr

mutual

/-- The expression without the lines that its code does not show: those of loops over a collection
    that bind neither position nor element. -/
def clearDeadLines : Expr → Expr
  | string value => string value
  | command line name arguments =>
    command line (clearDeadLines name) (clearListLines arguments)
  | block first rest => block (clearDeadLines first) (clearListLines rest)
  | condition negated operands => condition negated (clearListLines operands)
  | choice clauses => choice (clearClauseLines clauses)
  | forEach line iterable body element position =>
    forEach (if element.isSome || position.isSome then line else 0) (clearDeadLines iterable)
      (clearDeadLines body) (clearOptionLines element) (clearOptionLines position)
  | whileLoop test body => whileLoop (clearDeadLines test) (clearDeadLines body)

/-- Each of some expressions without the lines that its code does not show. -/
def clearListLines : List Expr → List Expr
  | [] => []
  | e :: es => clearDeadLines e :: clearListLines es

/-- Each condition and branch without the lines that its code does not show. -/
def clearClauseLines : List (Expr × Expr) → List (Expr × Expr)
  | [] => []
  | (c, b) :: rest => (clearDeadLines c, clearDeadLines b) :: clearClauseLines rest

/-- An expression that may be absent, without the lines that its code does not show. -/
def clearOptionLines : Option Expr → Option Expr
  | none => none
  | some e => some (clearDeadLines e)

end

theorem clearListLines_eq_map (es : List Expr) : clearListLines es = es.map clearDeadLines := by
  induction es with
  | nil => rfl
  | cons e es ih => simp [clearListLines, ih]

theorem clearClauseLines_eq_map (cs : List (Expr × Expr)) :
    clearClauseLines cs = cs.map fun c => (clearDeadLines c.1, clearDeadLines c.2) := by
  induction cs with
  | nil => rfl
  | cons c cs ih => simp [clearClauseLines, ih]

theorem clearOptionLines_eq_map (e : Option Expr) :
    clearOptionLines e = e.map clearDeadLines := by
  cases e <;> rfl

/-- The code does not show these lines. -/
theorem code_clearDeadLines (n : RuntimeNames) (e : Expr) :
    e.clearDeadLines.code n = e.code n := by
  have hlist : ∀ {es : List Expr}, (∀ e ∈ es, e.clearDeadLines.code n = e.code n) →
      codes n (clearListLines es) = codes n es := by
    intro es hes
    rw [clearListLines_eq_map, codes_eq_map, codes_eq_map, List.map_map]
    exact List.map_congr_left hes
  have hoption : ∀ {o : Option Expr}, (∀ e ∈ o, e.clearDeadLines.code n = e.code n) →
      optionCode n (clearOptionLines o) = optionCode n o := by
    intro o ho
    cases o with
    | none => rfl
    | some e => exact congrArg some (ho e rfl)
  induction e with
  | string value => rfl
  | command line name arguments hname harguments =>
    simp [clearDeadLines, code, hname, hlist harguments]
  | block first rest hfirst hrest => simp [clearDeadLines, code, hfirst, hlist hrest]
  | condition negated operands hoperands => simp [clearDeadLines, code, hlist hoperands]
  | choice clauses hclauses =>
    have h : clauses.map (fun c => (c.1.clearDeadLines.code n, c.2.clearDeadLines.code n))
        = clauses.map fun c => (c.1.code n, c.2.code n) :=
      List.map_congr_left fun c hc => by rw [(hclauses c hc).1, (hclauses c hc).2]
    simpa [clearDeadLines, code, clearClauseLines_eq_map, clauseCodes_eq_map,
      Function.comp_def] using congrArg Code.chain h
  | forEach line iterable body element position hiterable hbody helement hposition =>
    rw [clearDeadLines, code, code, hiterable, hbody, hoption helement, hoption hposition]
    -- Without a variable the line stands nowhere, so that it may be any.
    cases element with
    | some _ => rfl
    | none =>
      cases position with
      | some _ => rfl
      | none => rfl
  | whileLoop test body htest hbody => simp [clearDeadLines, code, htest, hbody]

end Expr

/-! ## 2. From syntax trees to expressions -/

namespace Target.Term

/-- The integer that is written by an expression. -/
def integer? : Term → Option Int
  | number m => some m
  | negative (number m) => some (-m)
  | _ => Option.none

theorem integer?_integer (z : Int) : (integer z).integer? = some z := by
  unfold integer
  split
  · exact congrArg some (by omega)
  · exact congrArg some (by omega)

mutual

/-- The expression whose code has a syntax tree. Its form alone decides: a test of one operand calls a
    member with one argument, a test of several with several, and functions that are called on the
    spot differ in their number of parameters. -/
def expr? : Term → Option Expr
  | text value => some (.string value)
  | bool b => some (.condition (!b) [])
  | not (call (member _ _) ts) => do return .condition (ts.length != 1) (← exprs? ts)
  | call (member _ _) ts => do return .condition (ts.length == 1) (← exprs? ts)
  | call (index _ key) (line :: ts) => do
    return .command (← integer? line) (← expr? key) (← exprs? ts)
  | call (lambda [] _ (index (tuple (t :: ts)) _)) _ => do
    return .block (← expr? t) (← exprs? ts)
  | call (lambda [] _ body) _ => do return .choice (← clauses? body)
  | call (lambda [_] _ (or (comprehension _ _ (call _ [lambda _ _ (call _ [test]), _])
      (and (bind _ body) _)) _)) _ => do
    return .whileLoop (← expr? test) (← expr? body)
  | call (lambda [_, _] _ (or (comprehension _ _ _ (and (tuple steps) _)) _))
      [call _ [iterable]] => do
    loop? (← expr? iterable) steps
  | _ => Option.none

/-- The expression of each of some syntax trees. -/
def exprs? : List Term → Option (List Expr)
  | [] => some []
  | t :: ts => do return (← expr? t) :: (← exprs? ts)

/-- The conditions and branches of conditional expressions in each other. -/
def clauses? : Term → Option (List (Expr × Expr))
  | none => some []
  | conditional test yes no => do return (← expr? test, ← expr? yes) :: (← clauses? no)
  | _ => Option.none

/-- The loop over a collection that makes some steps. Position and element are told apart by what is
    bound, which is a name or an item. -/
def loop? (iterable : Expr) : List Term → Option Expr
  | [bind _ body] => do return .forEach 0 iterable (← expr? body) Option.none Option.none
  | [call _ [line, position, name _], bind _ body] => do
    return .forEach (← integer? line) iterable (← expr? body) Option.none (← expr? position)
  | [call _ [line, element, _], bind _ body] => do
    return .forEach (← integer? line) iterable (← expr? body) (← expr? element) Option.none
  | [call _ [line, position, _], call _ [_, element, _], bind _ body] => do
    return .forEach (← integer? line) iterable (← expr? body) (← expr? element) (← expr? position)
  | _ => Option.none

end

theorem expr?_test (n : RuntimeNames) (negated : Bool) (ts : List Term) :
    (test n negated ts).expr? = (exprs? ts).map (Expr.condition negated) := by
  match ts with
  | [] => cases negated <;> rfl
  | [t] => cases negated <;> exact Option.map_eq_bind.symm
  | t :: u :: ts => cases negated <;> exact Option.map_eq_bind.symm

theorem clauses?_branches {cs : List (Expr × Expr)} {f : Expr → Term} {g : Expr → Expr}
    (h : ∀ c ∈ cs, (f c.1).expr? = some (g c.1) ∧ (f c.2).expr? = some (g c.2)) :
    clauses? (branches (cs.map fun c => (f c.1, f c.2)))
      = some (cs.map fun c => (g c.1, g c.2)) := by
  induction cs with
  | nil => rfl
  | cons c cs ih =>
    obtain ⟨htest, hbranch⟩ := h c (by simp)
    simp [branches, clauses?, htest, hbranch, ih fun d hd => h d (by simp [hd])]

/-- The steps of a loop over a collection tell what it binds, and its line if it binds something. -/
theorem loop?_loopSteps (n : RuntimeNames) (line : Int) (iterable : Expr) {body : Term} {b : Expr}
    (hbody : body.expr? = some b) {f : Expr → Term} {g : Expr → Expr}
    {element position : Option Expr} (helement : ∀ e ∈ element, (f e).expr? = some (g e))
    (hposition : ∀ e ∈ position, (f e).expr? = some (g e)) :
    loop? iterable (loopSteps n line body (element.map f) (position.map f))
      = some (.forEach (if element.isSome || position.isSome then line else 0) iterable b
        (element.map g) (position.map g)) := by
  cases element with
  | none =>
    cases position with
    | none => simp [loopSteps, bindStep, loop?, hbody]
    | some p => simp [loopSteps, bindStep, loop?, integer?_integer, hbody, hposition p rfl]
  | some e =>
    cases position with
    | none => simp [loopSteps, bindStep, loop?, integer?_integer, hbody, helement e rfl]
    | some p =>
      simp [loopSteps, bindStep, loop?, integer?_integer, hbody, helement e rfl, hposition p rfl]

end Target.Term

namespace Expr

open Target

/-- **An expression is recovered from its syntax tree**, up to the lines that the code does not
    show. -/
theorem expr?_term (n : RuntimeNames) (e : Expr) :
    (e.term n).expr? = some e.clearDeadLines := by
  have hlist : ∀ {es : List Expr}, (∀ e ∈ es, (e.term n).expr? = some e.clearDeadLines) →
      Term.exprs? (terms n es) = some (clearListLines es) := by
    intro es hes
    induction es with
    | nil => rfl
    | cons e es ih =>
      simp [terms, Term.exprs?, clearListLines, hes e (by simp), ih fun x hx => hes x (by simp [hx])]
  induction e with
  | string value => rfl
  | command line name arguments hname harguments =>
    simp [term, clearDeadLines, Term.commandCall, Term.expr?, Term.integer?_integer, hname,
      hlist harguments]
  | block first rest hfirst hrest =>
    simp [term, clearDeadLines, Term.sequence, Term.expr?, hfirst, hlist hrest]
  | condition negated operands hoperands =>
    simp [term, clearDeadLines, Term.expr?_test, hlist hoperands]
  | choice clauses hclauses =>
    have h := Term.clauses?_branches hclauses
    cases clauses with
    | nil => rfl
    | cons c clauses =>
      simp only [List.map_cons, Term.branches] at h
      simp [term, clearDeadLines, Term.chain, clauseTerms_eq_map, clearClauseLines_eq_map,
        Term.branches, Term.expr?, h]
  | forEach line iterable body element position hiterable hbody helement hposition =>
    have h := Term.loop?_loopSteps n line iterable.clearDeadLines hbody helement hposition
    simp [term, clearDeadLines, optionTerm_eq_map, clearOptionLines_eq_map, Term.overElements,
      Term.loop, Term.turn, Term.expr?, hiterable, h]
  | whileLoop test body htest hbody =>
    simp [term, clearDeadLines, Term.whileHolds, Term.loop, Term.polls, Term.expr?, htest, hbody]

/-! ## 3. From texts to expressions -/

/-- The expression whose code a text is. -/
def ofCode? (text : Text) : Option Expr :=
  ((lexemes? text).bind ofLexemes?).bind Term.expr?

theorem ofCode?_code {n : RuntimeNames} (hn : n.Valid) (e : Expr) :
    ofCode? (e.code n) = some e.clearDeadLines := by
  rw [ofCode?, ofLexemes?_code hn, Option.bind_some, expr?_term]

/-- **Code is unambiguous.** Under names that passed their validation, two expressions whose line
    numbers can be written have the same code exactly where they are the same up to the lines of loops
    that bind no variable; and the reader recovers an expression from its code, up to these lines. -/
theorem code?_eq_code?_iff {v : Value} {n : RuntimeNames} (hv : RuntimeNames.validate v = .ok n)
    {a b : Expr} (ha : a.shownLines.all Decimal.fits = true)
    (hb : b.shownLines.all Decimal.fits = true) :
    (a.code? n = b.code? n ↔ a.clearDeadLines = b.clearDeadLines) ∧
      ∃ code, a.code? n = .ok code ∧ ofCode? code = some a.clearDeadLines := by
  have hn := RuntimeNames.valid_of_validate hv
  have hacode : a.code? n = .ok (a.code n) := if_pos ha
  have hbcode : b.code? n = .ok (b.code n) := if_pos hb
  refine ⟨⟨fun h => ?_, fun h => ?_⟩, a.code n, hacode, ofCode?_code hn a⟩
  · have hcode : a.code n = b.code n := by
      rw [hacode, hbcode] at h
      exact Except.ok.inj h
    have hread : some a.clearDeadLines = some b.clearDeadLines := by
      rw [← ofCode?_code hn a, hcode, ofCode?_code hn b]
    exact Option.some.inj hread
  · rw [hacode, hbcode, ← code_clearDeadLines, h, code_clearDeadLines]

/-- Loops that differ in a line that is not shown, under names of which two coincide and around a text
    that looks like code. -/
theorem code?_eq_code?_lines :
    let v : Value := .mapping [(.text "is_empty", .ofText "test"),
      (.text "are_all_equal", .ofText "test")]
    let n : RuntimeNames := { isEmpty := "test", areAllEqual := "test" }
    let e (line : Int) : Expr :=
      .forEach line (.string "x\") if (") (.condition true [.string "None"]) none none
    RuntimeNames.validate v = .ok n ∧ (e 3).code? n = (e 4).code? n ∧
      ∃ code, (e 3).code? n = .ok code ∧ ofCode? code = some (e 0) := by
  intro v n e
  have hv : RuntimeNames.validate v = .ok n := rfl
  have h := code?_eq_code?_iff (a := e 3) (b := e 4) hv rfl rfl
  exact ⟨hv, h.1.mpr rfl, h.2⟩

end Expr

end TemplateTree
