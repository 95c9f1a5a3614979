import TemplateTree.Proofs.Target.Evaluation
import TemplateTree.Proofs.Target.Identity
import TemplateTree.Proofs.Target.Reader

/-!
# What names refer to

Which variable a name refers to is settled by the text of a module, before anything runs. A function,
a lambda and a comprehension have a scope each: a function and a lambda the scope of their parameters
and of the names that are bound in their bodies, a comprehension that of its variable. A name refers
to the innermost scope around it that has it, else to the one function that the module defines, else
to a built-in function (`resolve`).

* Defaults and the source of a comprehension belong to the scopes around.
* Names are compared by their normal forms (`Identifier.sameName`).
* Names of attributes are not looked up.

`Function.ofModule?` reads a module with one function, and `Function.occurrences` lists every name in
the body of the function, in the order of the text, with what it refers to.
-/

namespace TemplateTree.Target

open Identifier

/-! ## 1. Scopes -/

/-- What a name refers to. -/
inductive Binder where
  /-- A built-in function. -/
  | builtin
  /-- The function that the module defines. -/
  | function
  /-- A variable of the scope with so many scopes around it, which may be bound again in the body. -/
  | variable (level : Nat) (rebound : Bool)
deriving DecidableEq, Repr

/-- The names of a function, a lambda or a comprehension. -/
structure Scope where
  /-- Its parameters, or the variable of a comprehension. -/
  parameters : List Text
  /-- The names that are bound in its body. -/
  assigned : List Text

/-- Whether a scope has a name. -/
def Scope.has (s : Scope) (x : Text) : Bool := (s.parameters ++ s.assigned).any (sameName x)

/-- Whether a name is bound in the body of a scope. -/
def Scope.rebinds (s : Scope) (x : Text) : Bool := s.assigned.any (sameName x)

/-- What a name refers to among scopes, the innermost of which is first, in a module that defines one
    function. -/
def resolve (entrypoint x : Text) : List Scope → Binder
  | [] => if sameName x entrypoint then .function else .builtin
  | s :: outer =>
    if s.has x then .variable outer.length (s.rebinds x) else resolve entrypoint x outer

/-! ## 2. The names in an expression -/

/-- A name with what it refers to. -/
abbrev Occurrence := Text × Binder

/-- A name among scopes. -/
def Occurrence.of (entrypoint : Text) (scopes : List Scope) (x : Text) : Occurrence :=
  (x, resolve entrypoint x scopes)

theorem Occurrence.of_has {entrypoint x : Text} {s : Scope} (h : s.has x = true)
    (outer : List Scope) :
    Occurrence.of entrypoint (s :: outer) x = (x, .variable outer.length (s.rebinds x)) := by
  simp [Occurrence.of, resolve, h]

theorem Occurrence.of_not_has {entrypoint x : Text} {s : Scope} (h : s.has x = false)
    (outer : List Scope) :
    Occurrence.of entrypoint (s :: outer) x = Occurrence.of entrypoint outer x := by
  simp [Occurrence.of, resolve, h]

namespace Term

mutual

/-- The names in an expression among scopes, in the order of the syntax tree. -/
def occurrences (entrypoint : Text) : Term → List Scope → List Occurrence
  | none, _ | bool _, _ | number _, _ | text _, _ => []
  | name x, scopes => [.of entrypoint scopes x]
  | member subject _, scopes => occurrences entrypoint subject scopes
  | index subject key, scopes =>
    occurrences entrypoint subject scopes ++ occurrences entrypoint key scopes
  | call function arguments, scopes =>
    occurrences entrypoint function scopes ++ occurrencesAll entrypoint arguments scopes
  | lambda parameters defaults body, scopes =>
    let inner := ⟨parameters, body.assigned⟩ :: scopes
    occurrencesAll entrypoint defaults scopes ++ parameters.map (.of entrypoint inner)
      ++ occurrences entrypoint body inner
  | tuple items, scopes => occurrencesAll entrypoint items scopes
  | negative operand, scopes => occurrences entrypoint operand scopes
  | not operand, scopes => occurrences entrypoint operand scopes
  | and left right, scopes =>
    occurrences entrypoint left scopes ++ occurrences entrypoint right scopes
  | or left right, scopes =>
    occurrences entrypoint left scopes ++ occurrences entrypoint right scopes
  | conditional test yes no, scopes =>
    occurrences entrypoint test scopes ++ occurrences entrypoint yes scopes
      ++ occurrences entrypoint no scopes
  | comprehension element bound source filter, scopes =>
    let inner := ⟨[bound], []⟩ :: scopes
    occurrences entrypoint source scopes ++ .of entrypoint inner bound
      :: occurrences entrypoint element inner ++ occurrences entrypoint filter inner
  | bind x value, scopes => .of entrypoint scopes x :: occurrences entrypoint value scopes

/-- The names in some expressions among scopes. -/
def occurrencesAll (entrypoint : Text) : List Term → List Scope → List Occurrence
  | [], _ => []
  | t :: ts, scopes => occurrences entrypoint t scopes ++ occurrencesAll entrypoint ts scopes

end

theorem occurrencesAll_eq_flatMap (entrypoint : Text) (ts : List Term) (scopes : List Scope) :
    occurrencesAll entrypoint ts scopes = ts.flatMap (occurrences entrypoint · scopes) := by
  induction ts with
  | nil => rfl
  | cons t ts ih => simp [occurrencesAll, ih]

end Term

/-! ## 3. Modules -/

/-- A function of one parameter that returns the value of an expression. -/
structure Function where
  entrypoint : Text
  parameter : Text
  body : Term

/-- The scope of a function. -/
def Function.scope (f : Function) : Scope := ⟨[f.parameter], f.body.assigned⟩

/-- The names in the body of a function, each with what it refers to. -/
def Function.occurrences (f : Function) : List Occurrence :=
  f.body.occurrences f.entrypoint [f.scope]

/-- What stands behind a front, which a text must start with. -/
def behind? (front t : Text) : Option Text :=
  if t.take front.length = front then some (t.drop front.length) else none

/-- What stands before a back, which a text must end with. -/
def before? (back t : Text) : Option Text :=
  if t.drop (t.length - back.length) = back then some (t.take (t.length - back.length)) else none

/-- The three quotes around a docstring. -/
def quotes : Text := "\"\"\""

/-- What stands behind the quotes that close a docstring, which holds no backslash. -/
def afterDocstring? : Text → Option Text
  | [] => none
  | c :: rest =>
    if c = .scalar '"' then behind? quotes (c :: rest)
    else if c = .scalar '\\' then none
    else afterDocstring? rest

/-- A name and what stands behind it. -/
def nameAndRest? (t : Text) : Option (Text × Text) :=
  if isName (t.takeWhile isWordPart) then some (t.takeWhile isWordPart, t.dropWhile isWordPart)
  else none

/-- The function of a module, which has a docstring without quotes and nothing else besides the
    function. -/
def Function.ofModule? (t : Text) : Option Function := do
  let t ← afterDocstring? (← behind? quotes t)
  let (entrypoint, t) ← nameAndRest? (← behind? "\n\n\ndef " t)
  let (parameter, t) ← nameAndRest? (← behind? "(" t)
  let body ← read? (← before? ")\n" (← behind? "):\n    return (" t))
  return { entrypoint, parameter, body }

theorem behind?_append (front t : Text) : behind? front (front ++ t) = some t := by
  simp [behind?]

theorem before?_append (back t : Text) : before? back (t ++ back) = some t := by
  simp [before?]

theorem afterDocstring?_append {t : Text} (ht : ∀ c ∈ t, c ≠ .scalar '"' ∧ c ≠ .scalar '\\')
    (rest : Text) : afterDocstring? (t ++ (quotes ++ rest)) = some rest := by
  induction t with
  | nil => exact behind?_append quotes rest
  | cons c t ih =>
    obtain ⟨hquote, hbackslash⟩ := ht c List.mem_cons_self
    rw [List.cons_append, afterDocstring?, if_neg hquote, if_neg hbackslash]
    exact ih fun d hd => ht d (List.mem_cons_of_mem c hd)

theorem nameAndRest?_append {x rest : Text} (hx : isName x = true)
    (hrest : rest.head?.all (!isWordPart ·) = true) : nameAndRest? (x ++ rest) = some (x, rest) := by
  have hparts := isWordPart_of_isName hx
  have hstop : rest.takeWhile isWordPart = [] ∧ rest.dropWhile isWordPart = rest := by
    cases rest with
    | nil => exact ⟨rfl, rfl⟩
    | cons c rest =>
      have hc : isWordPart c = false := by simpa using hrest
      simp [hc]
  rw [nameAndRest?, List.takeWhile_append_of_pos hparts, List.dropWhile_append_of_pos hparts,
    hstop.1, hstop.2, List.append_nil, if_pos hx]

/-- A module is read as its function. -/
theorem Function.ofModule?_eq {docstring entrypoint parameter body : Text} {t : Term}
    (hdoc : ∀ c ∈ docstring, c ≠ .scalar '"' ∧ c ≠ .scalar '\\')
    (hentry : isName entrypoint = true) (hparameter : isName parameter = true)
    (hbody : read? body = some t) :
    Function.ofModule? (quotes ++ docstring ++ quotes ++ "\n\n\ndef " ++ entrypoint ++ "(" ++ parameter
      ++ "):\n    return (" ++ body ++ ")\n") = some ⟨entrypoint, parameter, t⟩ := by
  simp only [Function.ofModule?, List.append_assoc, behind?_append, Option.bind_eq_bind,
    Option.bind_some, afterDocstring?_append hdoc]
  rw [nameAndRest?_append hentry rfl]
  simp only [Option.bind_some, behind?_append]
  rw [nameAndRest?_append hparameter rfl]
  simp only [Option.bind_some, behind?_append, before?_append, hbody]
  rfl

end TemplateTree.Target
