import TemplateTree.Proofs.Code.Reading
import TemplateTree.Proofs.Expr.Parts
import TemplateTree.Proofs.Target.Scoping
import TemplateTree.Proofs.Rendering

/-!
# What the names of generated code refer to

The code of a tree refers to the runtime, to the variables of its own loops and to four built-in
functions. `Expr.meant` lists these names in the order of the code, each with what the code counts on:
the runtime is the parameter of the function, a loop refers to its own variables, however deep it
stands among others, and a built-in function is not hidden by anything.

The first two always hold, since no validated name of the runtime is the same name as a variable of a
loop, which starts with an underscore (`Expr.occurrences_term`). Nothing keeps the runtime or the
entrypoint from being a name of a built-in function, though: then a loop that calls the function finds
something else (`Template.occurrences_module_iff`).
-/

namespace TemplateTree

open Target Identifier

/-! ## 1. What the code counts on -/

namespace Expr

/-- The runtime, which is the parameter of the function around. -/
def parameter (n : RuntimeNames) : Occurrence := (n.runtime, .variable 0 false)

mutual

/-- The names in the code of an expression with so many scopes around it, each with what it is meant
    to refer to. -/
def meant (n : RuntimeNames) : Expr → Nat → List Occurrence
  | string _, _ => []
  | command _ name arguments, level =>
    parameter n :: meant n name level ++ meantAll n arguments level
  | block first rest, level => meant n first (level + 1) ++ meantAll n rest (level + 1)
  | condition _ operands, level =>
    (if operands.isEmpty then [] else [parameter n]) ++ meantAll n operands level
  | choice clauses, level => meantClauses n clauses (level + 1)
  | forEach _ iterable body element position, level =>
    -- The loop is a lambda around a comprehension, each with a scope of its own.
    let items : Occurrence := (Code.items, .variable level false)
    let turn : Occurrence := (Code.position, .variable (level + 1) false)
    let result : Occurrence := (Code.result, .variable level true)
    [items, result, ("range", .builtin), ("len", .builtin), items, turn]
      ++ meantBound n position (level + 2) [turn] ++ meantBound n element (level + 2) [items, turn]
      ++ result :: meant n body (level + 2) ++ result :: parameter n :: meant n iterable level
  | whileLoop test body, level =>
    -- The condition stands in a lambda beside the comprehension.
    let turn : Occurrence := ("_", .variable (level + 1) false)
    let result : Occurrence := (Code.result, .variable level true)
    [result, ("iter", .builtin), ("bool", .builtin)] ++ meant n test (level + 2)
      ++ turn :: result :: meant n body (level + 2) ++ [result]

/-- The names in the code of some expressions. -/
def meantAll (n : RuntimeNames) : List Expr → Nat → List Occurrence
  | [], _ => []
  | e :: es, level => meant n e level ++ meantAll n es level

/-- The names in the code of clauses. -/
def meantClauses (n : RuntimeNames) : List (Expr × Expr) → Nat → List Occurrence
  | [], _ => []
  | (c, b) :: rest, level => meant n c level ++ meant n b level ++ meantClauses n rest level

/-- The names in the code that binds a variable to a value, if there is a variable. -/
def meantBound (n : RuntimeNames) : Option Expr → Nat → List Occurrence → List Occurrence
  | none, _, _ => []
  | some e, level, value => parameter n :: meant n e level ++ value

end

theorem meantAll_eq_flatMap (n : RuntimeNames) (es : List Expr) (level : Nat) :
    meantAll n es level = es.flatMap (meant n · level) := by
  induction es with
  | nil => rfl
  | cons e es ih => simp [meantAll, ih]

theorem meantClauses_eq_flatMap (n : RuntimeNames) (cs : List (Expr × Expr)) (level : Nat) :
    meantClauses n cs level = cs.flatMap fun c => meant n c.1 level ++ meant n c.2 level := by
  induction cs with
  | nil => rfl
  | cons c cs ih => simp [meantClauses, ih]

/-- The built-in functions that the code of a node calls itself. -/
def builtins : Expr → List Text
  | forEach .. => ["range", "len"]
  | whileLoop .. => ["iter", "bool"]
  | _ => []

end Expr

/-! ## 2. The scopes around a piece of code -/

/-- The variables of loops. -/
def Code.locals : List Text := [items, position, result, "_"]

/-- The built-in functions that loops call. -/
def Code.builtins : List Text := ["range", "len", "iter", "bool"]

namespace Code

theorem normal_eq_self : ∀ x ∈ locals ++ builtins, normal x = x := by decide +kernel

theorem normal_local {x : Text} (hx : x ∈ locals) : normal x = x :=
  normal_eq_self x (List.mem_append_left _ hx)

/-- Variables of loops are the same only if they are equal. -/
theorem sameName_locals {x y : Text} (hx : x ∈ locals) (hy : y ∈ locals) :
    sameName x y = (x == y) := by
  rw [sameName, normal_local hx, normal_local hy]

theorem sameName_builtin {x y : Text} (hx : x ∈ builtins) (hy : y ∈ locals) :
    sameName x y = false := by
  have hne : ∀ x ∈ builtins, ∀ y ∈ locals, (x == y) = false := by decide
  rw [sameName, normal_eq_self x (List.mem_append_right _ hx), normal_local hy]
  exact hne x hx y hy

end Code

/-- No validated name of the runtime is a variable of a loop. -/
theorem RuntimeNames.Valid.sameName_local {n : RuntimeNames} (hn : n.Valid) :
    ∀ x ∈ Code.locals, sameName n.runtime x = false := by
  have hlocals : ∀ x ∈ Code.locals, x.head? = some (.scalar '_') := by decide
  have hid : isIdentifier n.runtime = true := (Bool.and_eq_true_iff.mp hn.runtime).1
  intro x hx
  rw [sameName, beq_eq_false_iff_ne, Code.normal_local hx]
  intro heq
  exact normal_head hid hn.runtime_head (heq ▸ hlocals x hx)

/-- The scope of the function of a module. -/
def functionScope (n : RuntimeNames) : Scope := ⟨[n.runtime], []⟩

/-- Scopes of lambdas and comprehensions, which have variables of loops at most, in the scope of the
    function. -/
inductive Inside (n : RuntimeNames) : List Scope → Prop
  | function : Inside n [functionScope n]
  | inner (s : Scope) {scopes : List Scope} (names : ∀ x ∈ s.parameters ++ s.assigned, x ∈ Code.locals)
    (outer : Inside n scopes) : Inside n (s :: scopes)

/-- What a name is found to refer to, if anything can hide a built-in function. -/
def found (entrypoint : Text) (n : RuntimeNames) : Occurrence → Occurrence
  | (x, .builtin) => .of entrypoint [functionScope n] x
  | o => o

@[simp] theorem found_variable (entrypoint : Text) (n : RuntimeNames) (x : Text) (level : Nat)
    (rebound : Bool) :
    found entrypoint n (x, .variable level rebound) = (x, .variable level rebound) := rfl

@[simp] theorem found_parameter (entrypoint : Text) (n : RuntimeNames) :
    found entrypoint n (Expr.parameter n) = Expr.parameter n := rfl

namespace Inside

variable {n : RuntimeNames} {entrypoint : Text} {scopes : List Scope}

/-- A name that no loop has refers to the same thing inside of all loops. -/
theorem of_eq (hs : Inside n scopes) {x : Text} (hx : ∀ y ∈ Code.locals, sameName x y = false) :
    Occurrence.of entrypoint scopes x = .of entrypoint [functionScope n] x := by
  induction hs with
  | function => rfl
  | inner s names outer ih =>
    have hnot : s.has x = false := List.any_eq_false.mpr fun y hy => by simp [hx y (names y hy)]
    rw [Occurrence.of_not_has hnot, ih]

/-- **The runtime is the parameter**, inside of all loops. -/
theorem of_runtime (hs : Inside n scopes) (hn : n.Valid) :
    Occurrence.of entrypoint scopes n.runtime = Expr.parameter n := by
  rw [hs.of_eq hn.sameName_local, Occurrence.of_has (by simp [functionScope, Scope.has])]
  rfl

/-- A built-in function is hidden by no loop. -/
theorem of_builtin (hs : Inside n scopes) {x : Text} (hx : x ∈ Code.builtins) :
    Occurrence.of entrypoint scopes x = found entrypoint n (x, .builtin) :=
  hs.of_eq fun _ hy => Code.sameName_builtin hx hy

end Inside

/-! ## 3. The pieces -/

namespace Target.Term

variable {n : RuntimeNames} (hn : n.Valid) {entrypoint : Text} {scopes : List Scope}
  (hs : Inside n scopes)

theorem occurrences_integer (z : Int) : (integer z).occurrences entrypoint scopes = [] := by
  unfold integer
  split <;> rfl

include hn hs

theorem occurrences_runtimeMember (a : Text) :
    (runtimeMember n a).occurrences entrypoint scopes = [Expr.parameter n] := by
  simp [runtimeMember, occurrences, hs.of_runtime hn]

theorem occurrences_commandCall (line : Int) (t : Term) (ts : List Term) :
    (commandCall n line t ts).occurrences entrypoint scopes
      = Expr.parameter n :: t.occurrences entrypoint scopes
        ++ ts.flatMap (occurrences entrypoint · scopes) := by
  simp [commandCall, occurrences, occurrencesAll_eq_flatMap, occurrences_integer,
    occurrences_runtimeMember hn hs]

theorem occurrences_test (negated : Bool) (ts : List Term) :
    (test n negated ts).occurrences entrypoint scopes
      = (if ts.isEmpty then [] else [Expr.parameter n])
        ++ ts.flatMap (occurrences entrypoint · scopes) := by
  have hmember : ∀ a, (runtimeMember n a).occurrences entrypoint scopes = [Expr.parameter n] :=
    occurrences_runtimeMember hn hs
  match ts with
  | [] => rfl
  | [t] => cases negated <;> simp [test, occurrences, occurrencesAll, hmember]
  | t :: u :: ts =>
    cases negated <;> simp [test, occurrences, occurrencesAll_eq_flatMap, hmember]

theorem occurrences_bindStep (line : Int) (bound? : Option Term) (value : Term) :
    (bindStep n line bound? value).flatMap (occurrences entrypoint · scopes)
      = (bound?.elim [] fun bound => Expr.parameter n :: bound.occurrences entrypoint scopes
        ++ value.occurrences entrypoint scopes) := by
  cases bound? <;>
    simp [bindStep, occurrences, occurrencesAll, occurrences_integer,
      occurrences_runtimeMember hn hs]

omit hn hs

theorem occurrences_sequence (ts : List Term) :
    (sequence ts).occurrences entrypoint scopes
      = ts.flatMap (occurrences entrypoint · (⟨[], assignedAll ts⟩ :: scopes)) := by
  simp [sequence, occurrences, occurrencesAll, occurrencesAll_eq_flatMap, assigned]

theorem occurrences_branches (cs : List (Term × Term)) :
    (branches cs).occurrences entrypoint scopes
      = cs.flatMap fun c => c.1.occurrences entrypoint scopes ++ c.2.occurrences entrypoint scopes := by
  induction cs with
  | nil => rfl
  | cons c cs ih => simp [branches, occurrences, ih]

theorem occurrences_chain (cs : List (Term × Term)) :
    (chain cs).occurrences entrypoint scopes
      = cs.flatMap fun c =>
        c.1.occurrences entrypoint (⟨[], (branches cs).assigned⟩ :: scopes)
          ++ c.2.occurrences entrypoint (⟨[], (branches cs).assigned⟩ :: scopes) := by
  simp [chain, occurrences, occurrencesAll, occurrences_branches]

end Target.Term

/-! ## 4. Loops -/

namespace Code

/-- The scope of the lambda of a loop over a collection. -/
def elementsScope : Scope := ⟨[items, result], [result]⟩

/-- The scope of the lambda of a loop with a condition. -/
def whileScope : Scope := ⟨[result], [result]⟩

/-- The scope of a comprehension. -/
def turnScope (bound : Text) : Scope := ⟨[bound], []⟩

section

variable {s : Scope} {x : Text} (hs : ∀ y ∈ s.parameters ++ s.assigned, y ∈ locals) (hx : x ∈ locals)

include hs hx

theorem has_eq_contains : s.has x = (s.parameters ++ s.assigned).contains x := by
  rw [Scope.has, List.contains_eq_any_beq]
  exact Expr.any_congr_left fun y hy => sameName_locals hx (hs y hy)

theorem rebinds_eq_contains : s.rebinds x = s.assigned.contains x := by
  rw [Scope.rebinds, List.contains_eq_any_beq]
  exact Expr.any_congr_left fun y hy => sameName_locals hx (hs y (List.mem_append_right _ hy))

end

theorem elementsScope_has : elementsScope.has items = true ∧ elementsScope.has result = true ∧
    elementsScope.rebinds items = false ∧ elementsScope.rebinds result = true := by
  have hs : ∀ y ∈ elementsScope.parameters ++ elementsScope.assigned, y ∈ locals := by decide
  rw [has_eq_contains hs (by decide), has_eq_contains hs (by decide),
    rebinds_eq_contains hs (by decide), rebinds_eq_contains hs (by decide)]
  decide

theorem whileScope_has : whileScope.has result = true ∧ whileScope.rebinds result = true := by
  have hs : ∀ y ∈ whileScope.parameters ++ whileScope.assigned, y ∈ locals := by decide
  rw [has_eq_contains hs (by decide), rebinds_eq_contains hs (by decide)]
  decide

theorem turnScope_position : (turnScope position).has position = true ∧
    (turnScope position).has items = false ∧ (turnScope position).has result = false := by
  have hs : ∀ y ∈ (turnScope position).parameters ++ (turnScope position).assigned, y ∈ locals := by
    decide
  rw [has_eq_contains hs (by decide), has_eq_contains hs (by decide), has_eq_contains hs (by decide)]
  decide

theorem turnScope_underscore : (turnScope "_").has "_" = true ∧
    (turnScope "_").has result = false := by
  have hs : ∀ y ∈ (turnScope "_").parameters ++ (turnScope "_").assigned, y ∈ locals := by decide
  rw [has_eq_contains hs (by decide), has_eq_contains hs (by decide)]
  decide

end Code

namespace Target.Term

variable {n : RuntimeNames} (entrypoint : Text) {scopes : List Scope} (hs : Inside n scopes)

theorem occurrences_loop (bound : Text) (source filter : Term) :
    (loop bound source filter).occurrences entrypoint scopes
      = source.occurrences entrypoint scopes
        ++ .of entrypoint (Code.turnScope bound :: scopes) bound
          :: filter.occurrences entrypoint (Code.turnScope bound :: scopes)
        ++ [.of entrypoint scopes Code.result] := by
  simp [loop, occurrences, Code.turnScope]

include hs

theorem occurrences_overElements (hn : n.Valid) (line : Int) (iterable : Term) {body : Term}
    {element? position? : Option Term} (hbody : body.assigned = [])
    (helement : ∀ t ∈ element?, t.assigned = []) (hposition : ∀ t ∈ position?, t.assigned = []) :
    (overElements n line iterable body element? position?).occurrences entrypoint scopes
      = let items : Occurrence := (Code.items, .variable scopes.length false)
        let turn : Occurrence := (Code.position, .variable (scopes.length + 1) false)
        let result : Occurrence := (Code.result, .variable scopes.length true)
        let inner := Code.turnScope Code.position :: Code.elementsScope :: scopes
        [items, result, found entrypoint n ("range", .builtin), found entrypoint n ("len", .builtin),
          items, turn]
          ++ (position?.elim [] fun t => Expr.parameter n :: t.occurrences entrypoint inner ++ [turn])
          ++ (element?.elim [] fun t =>
            Expr.parameter n :: t.occurrences entrypoint inner ++ [items, turn])
          ++ result :: body.occurrences entrypoint inner
          ++ result :: Expr.parameter n :: iterable.occurrences entrypoint scopes := by
  have hsteps := assignedAll_loopSteps n line hbody helement hposition
  have hscope : (⟨[Code.items, Code.result], (loop Code.position positions
      (turn n line body element? position?)).assigned⟩ : Scope) = Code.elementsScope := by
    simp [loop, positions, turn, assigned, assignedAll, hsteps, Code.elementsScope]
  have houter : Inside n (Code.elementsScope :: scopes) := hs.inner _ (by decide)
  have hinner : Inside n (Code.turnScope Code.position :: Code.elementsScope :: scopes) :=
    houter.inner _ (by decide)
  obtain ⟨hitems, hresult, hitems', hresult'⟩ := Code.elementsScope_has
  obtain ⟨hturn, hnoItems, hnoResult⟩ := Code.turnScope_position
  have hofItems : Occurrence.of entrypoint (Code.elementsScope :: scopes) Code.items
      = (Code.items, .variable scopes.length false) := by
    rw [Occurrence.of_has hitems, hitems']
  have hofResult : Occurrence.of entrypoint (Code.elementsScope :: scopes) Code.result
      = (Code.result, .variable scopes.length true) := by
    rw [Occurrence.of_has hresult, hresult']
  have hofTurn : Occurrence.of entrypoint
      (Code.turnScope Code.position :: Code.elementsScope :: scopes) Code.position
      = (Code.position, .variable (scopes.length + 1) false) :=
    Occurrence.of_has hturn _
  rw [overElements, occurrences, occurrences, hscope, occurrences_loop, turn, loopSteps]
  simp only [occurrences, occurrencesAll_eq_flatMap, List.flatMap_append, List.flatMap_cons,
    List.flatMap_nil, occurrences_bindStep hn hinner, occurrences_runtimeMember hn hs, positions,
    houter.of_builtin (x := "range") (by decide), houter.of_builtin (x := "len") (by decide), hofItems,
    hofResult, hofTurn, Occurrence.of_not_has hnoItems, Occurrence.of_not_has hnoResult,
    List.map_cons, List.map_nil]
  simp

theorem occurrences_whileHolds {test body : Term} (htest : test.assigned = [])
    (hbody : body.assigned = []) :
    (whileHolds test body).occurrences entrypoint scopes
      = let turn : Occurrence := ("_", .variable (scopes.length + 1) false)
        let result : Occurrence := (Code.result, .variable scopes.length true)
        let polling := ⟨[], test.assigned⟩ :: Code.whileScope :: scopes
        let inner := Code.turnScope "_" :: Code.whileScope :: scopes
        [result, found entrypoint n ("iter", .builtin), found entrypoint n ("bool", .builtin)]
          ++ test.occurrences entrypoint polling ++ turn :: result :: body.occurrences entrypoint inner
          ++ [result] := by
  have hscope : (⟨[Code.result], (loop "_" (polls test)
      (and (bind Code.result body) (bool false))).assigned⟩ : Scope) = Code.whileScope := by
    simp [loop, polls, assigned, assignedAll, hbody, Code.whileScope]
  have houter : Inside n (Code.whileScope :: scopes) := hs.inner _ (by decide)
  have hpolling : Inside n (⟨[], test.assigned⟩ :: Code.whileScope :: scopes) :=
    houter.inner _ (by simp [htest])
  obtain ⟨hresult, hresult'⟩ := Code.whileScope_has
  obtain ⟨hturn, hnoResult⟩ := Code.turnScope_underscore
  have hofResult : Occurrence.of entrypoint (Code.whileScope :: scopes) Code.result
      = (Code.result, .variable scopes.length true) := by
    rw [Occurrence.of_has hresult, hresult']
  have hofTurn : Occurrence.of entrypoint (Code.turnScope "_" :: Code.whileScope :: scopes) "_"
      = (("_" : Text), .variable (scopes.length + 1) false) :=
    Occurrence.of_has hturn _
  rw [whileHolds, occurrences, occurrences, hscope, occurrences_loop, polls]
  simp only [occurrences, occurrencesAll, assigned, assignedAll,
    houter.of_builtin (x := "iter") (by decide), hofResult, hofTurn, Occurrence.of_not_has hnoResult,
    List.map_cons, List.map_nil]
  simp [hpolling.of_builtin (x := "bool") (by decide)]

end Target.Term

/-! ## 5. The names of a tree -/

namespace Expr

variable {n : RuntimeNames} {entrypoint : Text} {scopes : List Scope}

/-- The names in the code of an expression are found to refer to what they are meant to, as far as
    they are not built-in functions. -/
def Keeps (n : RuntimeNames) (entrypoint : Text) (e : Expr) : Prop :=
  ∀ {scopes : List Scope}, Inside n scopes →
    (e.term n).occurrences entrypoint scopes = (e.meant n scopes.length).map (found entrypoint n)

theorem Keeps.all {es : List Expr} (h : ∀ e ∈ es, Keeps n entrypoint e) (hs : Inside n scopes) :
    (terms n es).flatMap (Term.occurrences entrypoint · scopes)
      = (meantAll n es scopes.length).map (found entrypoint n) := by
  induction es with
  | nil => rfl
  | cons e es ih =>
    simp [terms, meantAll, h e (by simp) hs, ih fun f hf => h f (by simp [hf])]

theorem Keeps.clauses {cs : List (Expr × Expr)}
    (h : ∀ c ∈ cs, Keeps n entrypoint c.1 ∧ Keeps n entrypoint c.2) (hs : Inside n scopes) :
    ((clauseTerms n cs).flatMap fun c =>
        c.1.occurrences entrypoint scopes ++ c.2.occurrences entrypoint scopes)
      = (meantClauses n cs scopes.length).map (found entrypoint n) := by
  induction cs with
  | nil => rfl
  | cons c cs ih =>
    obtain ⟨htest, hbranch⟩ := h c (by simp)
    simp [clauseTerms, meantClauses, htest hs, hbranch hs, ih fun d hd => h d (by simp [hd])]

theorem Keeps.bound {o : Option Expr} (h : ∀ e ∈ o, Keeps n entrypoint e) (hs : Inside n scopes)
    {value : List Occurrence} (hvalue : value.map (found entrypoint n) = value) :
    ((optionTerm n o).elim [] fun t => parameter n :: t.occurrences entrypoint scopes ++ value)
      = (meantBound n o scopes.length value).map (found entrypoint n) := by
  cases o with
  | none => rfl
  | some e => simp [optionTerm, meantBound, h e rfl hs, hvalue]

theorem assigned_optionTerm (n : RuntimeNames) (o : Option Expr) :
    ∀ t ∈ optionTerm n o, t.assigned = [] := by
  intro t ht
  rw [optionTerm_eq_map] at ht
  obtain ⟨e, -, rfl⟩ := Option.map_eq_some_iff.mp ht
  exact assigned_term n e

/-- **Every name in the code of a tree is found to refer to what it is meant to**, as far as it is not
    a built-in function. -/
theorem occurrences_term (hn : n.Valid) (e : Expr) : Keeps n entrypoint e := by
  induction e with
  | string value => exact fun _ => rfl
  | command line name arguments hname harguments =>
    intro scopes hs
    rw [term, Term.occurrences_commandCall hn hs, hname hs, Keeps.all harguments hs, meant]
    simp
  | block first rest hfirst hrest =>
    intro scopes hs
    have hitems : ∀ e ∈ first :: rest, Keeps n entrypoint e := by simpa using ⟨hfirst, hrest⟩
    have hassigned : Term.assignedAll (terms n (first :: rest)) = [] :=
      Term.assignedAll_eq_nil (by simp [terms_eq_map, assigned_term])
    have hinner : Inside n (⟨[], []⟩ :: scopes) := hs.inner _ (by simp)
    have h := Keeps.all hitems hinner
    rw [term, Term.occurrences_sequence, ← terms, hassigned, h, meantAll, meant]
    rfl
  | condition negated operands hoperands =>
    intro scopes hs
    rw [term, Term.occurrences_test hn hs, Keeps.all hoperands hs, meant]
    cases operands <;> simp [terms]
  | choice clauses hclauses =>
    intro scopes hs
    have hassigned : (Term.branches (clauseTerms n clauses)).assigned = [] :=
      Term.assigned_branches fun c hc => by
        rw [clauseTerms_eq_map] at hc
        obtain ⟨d, -, rfl⟩ := List.mem_map.mp hc
        exact ⟨assigned_term n d.1, assigned_term n d.2⟩
    have hinner : Inside n (⟨[], []⟩ :: scopes) := hs.inner _ (by simp)
    rw [term, Term.occurrences_chain, hassigned, Keeps.clauses hclauses hinner, meant]
    rfl
  | forEach line iterable body element position hiterable hbody helement hposition =>
    intro scopes hs
    have hinner : Inside n (Code.turnScope Code.position :: Code.elementsScope :: scopes) :=
      (hs.inner _ (by decide)).inner _ (by decide)
    have h := Term.occurrences_overElements entrypoint hs hn line (iterable.term n)
      (assigned_term n body) (assigned_optionTerm n element) (assigned_optionTerm n position)
    dsimp only at h
    rw [term, h, hiterable hs, hbody hinner, Keeps.bound hposition hinner rfl,
      Keeps.bound helement hinner rfl, meant]
    simp
  | whileLoop test body htest hbody =>
    intro scopes hs
    have hpolling : Inside n (⟨[], (test.term n).assigned⟩ :: Code.whileScope :: scopes) :=
      (hs.inner _ (by decide)).inner _ (by simp [assigned_term])
    have hinner : Inside n (Code.turnScope "_" :: Code.whileScope :: scopes) :=
      (hs.inner _ (by decide)).inner _ (by decide)
    have h := Term.occurrences_whileHolds entrypoint hs (assigned_term n test)
      (assigned_term n body)
    dsimp only at h
    rw [term, h, htest hpolling, hbody hinner, meant]
    simp

/-! ## 6. The built-in functions of a tree -/

variable {x : Text}

theorem builtin_of_mem_meant {e : Expr} {level : Nat} (h : (x, .builtin) ∈ e.meant n level) :
    x ∈ e.builtins ∨ ∃ c ∈ e.children, ∃ level', (x, .builtin) ∈ c.meant n level' := by
  cases e with
  | forEach line iterable body element position =>
    cases element <;> cases position <;>
      simp [meant, meantBound, builtins, children, parameter] at h ⊢ <;> grind
  | _ =>
    simp [meant, meantAll_eq_flatMap, meantClauses_eq_flatMap, builtins, children, parameter] at h ⊢
      <;> grind

theorem mem_meant_of_builtin {e : Expr} (h : x ∈ e.builtins) (level : Nat) :
    (x, .builtin) ∈ e.meant n level := by
  cases e with
  | forEach => simp [builtins, meant] at h ⊢; grind
  | whileLoop => simp [builtins, meant] at h ⊢; grind
  | _ => cases h

theorem mem_meant_of_child {c e : Expr} (hc : c ∈ e.children)
    (h : ∀ level, (x, .builtin) ∈ c.meant n level) (level : Nat) :
    (x, .builtin) ∈ e.meant n level := by
  cases e with
  | forEach line iterable body element position =>
    cases element <;> cases position <;>
      simp [meant, meantBound, children, parameter] at hc ⊢ <;> grind
  | _ =>
    simp [meant, meantAll_eq_flatMap, meantClauses_eq_flatMap, children, parameter] at hc ⊢
      <;> grind

/-- **The code counts on a built-in function exactly if a loop in the tree calls it.** -/
theorem builtin_mem_meant_iff (e : Expr) (level : Nat) :
    (x, .builtin) ∈ e.meant n level ↔ ∃ loop, Within loop e ∧ x ∈ loop.builtins := by
  constructor
  · intro h
    induction e using children_induction generalizing level with
    | node e ih =>
      rcases builtin_of_mem_meant h with hx | ⟨c, hc, level', hmem⟩
      · exact ⟨e, .refl e, hx⟩
      · obtain ⟨loop, hloop, hx⟩ := ih c hc level' hmem
        exact ⟨loop, .child hc hloop, hx⟩
  · intro h
    obtain ⟨loop, hloop, hx⟩ := h
    induction hloop generalizing level with
    | refl => exact mem_meant_of_builtin hx level
    | child hc _ ih => exact mem_meant_of_child hc ih level

theorem mem_builtins {e : Expr} (h : x ∈ e.builtins) : x ∈ Code.builtins := by
  cases e with
  | forEach => simp [builtins] at h; rcases h with rfl | rfl <;> decide
  | whileLoop => simp [builtins] at h; rcases h with rfl | rfl <;> decide
  | _ => cases h

theorem found_builtin_iff :
    found entrypoint n (x, .builtin) = (x, .builtin)
      ↔ sameName x n.runtime = false ∧ sameName x entrypoint = false := by
  cases hruntime : sameName x n.runtime <;> cases hentry : sameName x entrypoint <;>
    simp [found, Occurrence.of, resolve, functionScope, Scope.has, hruntime, hentry]

/-- **All names of a tree refer to what they are meant to** exactly if neither the runtime nor the
    entrypoint is a built-in function that a loop in the tree calls. -/
theorem occurrences_eq_meant_iff (hn : n.Valid) (e : Expr) :
    (e.term n).occurrences entrypoint [functionScope n] = e.meant n 1
      ↔ ∀ loop, Within loop e → ∀ b ∈ loop.builtins,
        sameName b n.runtime = false ∧ sameName b entrypoint = false := by
  have hmap : ∀ os : List Occurrence, os.map (found entrypoint n) = os
      ↔ ∀ x, (x, .builtin) ∈ os → found entrypoint n (x, .builtin) = (x, .builtin) := by
    intro os
    induction os with
    | nil => simp
    | cons o os ih =>
      obtain ⟨y, binder⟩ := o
      cases binder <;> simp [ih, found]
  rw [occurrences_term hn e .function, List.length_singleton, hmap]
  constructor
  · intro h loop hloop b hb
    exact found_builtin_iff.mp (h b ((builtin_mem_meant_iff e 1).mpr ⟨loop, hloop, hb⟩))
  · intro h x hx
    obtain ⟨loop, hloop, hb⟩ := (builtin_mem_meant_iff e 1).mp hx
    exact found_builtin_iff.mpr (h loop hloop x hb)

/-- The code of a tree is read between line breaks and behind margins as it is by itself. -/
theorem read?_hung {n : RuntimeNames} (hn : n.Valid) {e : Expr} (hloop : e.loopInCondition = false)
    (htexts : ∀ t ∈ e.texts, ∀ c ∈ t, Literal.isRawBoundary c = false) :
    read? ("\n" ++ (e.code n).hang Template.margin ++ "\n    ") = some (e.term n) := by
  have hdedent := (Template.dedent?_hang_code_iff hn e).mpr htexts
  have hhang : (e.code n).hang Template.margin = (e.code n).indent Template.margin :=
    (Text.dedent?_eq_some_iff (by decide)).mp hdedent
  have hread := readsAs_code hn e
  have hfront : Closes "\n" [] := rfl
  have hback : Closes "\n    " [] := rfl
  have hscans := hfront.append_scans
    (hread.scans.indent (by decide : ∀ c ∈ Template.margin, c = .scalar ' '))
  have hall := hscans.append hback.scans rfl
  rw [← hhang, List.nil_append, List.append_nil] at hall
  rw [read?, hall.lexemes]
  simp [hread.operand.ofLexemes?_eq, bindsInSource_term, hloop]

end Expr

/-! ## 7. Modules -/

namespace Template

/-- The docstring of a module whose source is named by a label. -/
def docstring (source : Option Text) : Text :=
  "Generated by tplc. Do not edit." ++ "\n" ++ labelLine source

theorem docstring_harmless {source : Option Text}
    (h : ∀ label ∈ source, ∀ c ∈ label, c ≠ .scalar '"' ∧ c ≠ .scalar '\\') :
    ∀ c ∈ docstring source, c ≠ .scalar '"' ∧ c ≠ .scalar '\\' := by
  have hheader : ∀ c ∈ (Text.ofString "Generated by tplc. Do not edit." ++ Text.ofString "\n"),
      c ≠ .scalar '"' ∧ c ≠ .scalar '\\' := by
    decide
  have hfront : ∀ c ∈ Text.ofString "Source: ", c ≠ .scalar '"' ∧ c ≠ .scalar '\\' := by decide
  have hback : ∀ c ∈ Text.ofString "\n", c ≠ .scalar '"' ∧ c ≠ .scalar '\\' := by decide
  intro c hc
  rcases List.mem_append.mp hc with hc | hc
  · exact hheader c hc
  · match source with
    | none => cases hc
    | some [] => cases hc
    | some (d :: label) =>
      rcases List.mem_append.mp hc with hc | hc
      · rcases List.mem_append.mp hc with hc | hc
        · exact hfront c hc
        · exact h _ rfl c hc
      · exact hback c hc

/-- A module, cut where its function is read. -/
theorem opening_append (source : Option Text) (entrypoint runtime body : Text) :
    opening "Generated by tplc. Do not edit." (labelLine source) entrypoint runtime ++ body ++ closing
      = quotes ++ docstring source ++ quotes ++ "\n\n\ndef " ++ entrypoint ++ "(" ++ runtime
        ++ "):\n    return (" ++ ("\n" ++ body ++ "\n    ") ++ ")\n" := by
  have hdef : Text.ofString "\"\"\"\n\n\ndef " = quotes ++ Text.ofString "\n\n\ndef " := rfl
  have hreturn : Text.ofString "):\n    return (\n"
      = Text.ofString "):\n    return (" ++ Text.ofString "\n" := rfl
  have hclosing : closing = Text.ofString "\n    " ++ Text.ofString ")\n" := rfl
  rw [opening, hdef, hreturn, hclosing, docstring, quotes]
  simp only [List.append_assoc]

/-- The function of a module. -/
def function (s : Settings) (e : Expr) (entrypoint : Text) : Function :=
  ⟨entrypoint, s.names.runtime, e.term s.names⟩

theorem occurrences_function (s : Settings) (e : Expr) (entrypoint : Text) :
    (function s e entrypoint).occurrences
      = (e.term s.names).occurrences entrypoint [functionScope s.names] := by
  simp [function, Function.occurrences, Function.scope, functionScope, Expr.assigned_term]

/-- **A module is read as the function that returns the syntax tree of its expression.** The label of
    the source must not hold a quote or a backslash, and no literal a boundary of lines. -/
theorem ofModule?_render {v : Value} {s : Settings} (hs : Settings.validate v = .ok s) {e : Expr}
    {source : Option Text} {t : Template} (ht : compile s e (labelValue source) = .ok t)
    (hsource : ∀ label ∈ source, ∀ c ∈ label, c ≠ .scalar '"' ∧ c ≠ .scalar '\\')
    (htexts : ∀ text ∈ e.texts, ∀ c ∈ text, Literal.isRawBoundary c = false) :
    ∃ module entrypoint, t.render = .ok module ∧ s.entrypoint = .ofText entrypoint ∧
      Function.ofModule? module = some (function s e entrypoint) := by
  obtain ⟨hn, -, -⟩ := Settings.valid_of_validate hs
  obtain ⟨entrypoint, hentry, hname⟩ := Settings.entrypoint_of_validate hs
  cases hcode : e.compile s.names with
  | error f =>
    rw [compile, hcode] at ht
    cases ht
  | ok code =>
    rw [compile_eq_ok hcode] at ht
    obtain rfl : ofCode s code (labelValue source) = t := Except.ok.inj ht
    obtain ⟨-, -, hloop, rfl⟩ := Expr.compile_eq_ok_iff.mp hcode
    have hread := Expr.read?_hung hn hloop htexts
    have hmodule := Function.ofModule?_eq (docstring_harmless hsource) hname hn.runtime hread
    rw [← opening_append] at hmodule
    exact ⟨_, entrypoint, render_ofCode hentry _ source, hentry, hmodule⟩

/-- **The names in the function of a module refer to what they are meant to** exactly if no loop of
    the tree calls a built-in function that is the same name as the runtime or the entrypoint; names
    that are not built-in functions always do. -/
theorem occurrences_module_iff {v : Value} {s : Settings} (hs : Settings.validate v = .ok s)
    {e : Expr} {source : Option Text} {t : Template}
    (ht : compile s e (labelValue source) = .ok t)
    (hsource : ∀ label ∈ source, ∀ c ∈ label, c ≠ .scalar '"' ∧ c ≠ .scalar '\\')
    (htexts : ∀ text ∈ e.texts, ∀ c ∈ text, Literal.isRawBoundary c = false) :
    ∃ module f, t.render = .ok module ∧ Function.ofModule? module = some f ∧
      f.parameter = s.names.runtime ∧ s.entrypoint = .ofText f.entrypoint ∧
      f.occurrences = (e.meant s.names 1).map (found f.entrypoint s.names) ∧
      (f.occurrences = e.meant s.names 1
        ↔ ∀ loop, Expr.Within loop e → ∀ b ∈ loop.builtins,
          sameName b f.parameter = false ∧ sameName b f.entrypoint = false) := by
  obtain ⟨hn, -, -⟩ := Settings.valid_of_validate hs
  obtain ⟨module, entrypoint, hrender, hentry, hmodule⟩ := ofModule?_render hs ht hsource htexts
  refine ⟨module, function s e entrypoint, hrender, hmodule, rfl, hentry, ?_, ?_⟩
  · rw [occurrences_function, Expr.occurrences_term hn e .function]
    rfl
  · rw [occurrences_function]
    exact Expr.occurrences_eq_meant_iff hn e

/-- A loop over a collection, inside a loop with a condition, inside another loop. -/
def nestedLoops : Expr :=
  .forEach 1 (.string "xs")
    (.whileLoop (.condition false [.string "go"])
      (.forEach 2 (.string "ys") (.string "z") (some (.string "y")) none))
    none (some (.string "i"))

/-- With the names that settings have by default, all names of nested loops refer to what they are
    meant to. -/
theorem occurrences_module_nested :
    Settings.validate (.mapping []) = .ok {} ∧
      ∃ t, compile {} nestedLoops (labelValue (some "t.yaml")) = .ok t ∧
        ∃ module f, t.render = .ok module ∧ Function.ofModule? module = some f ∧
          f.occurrences = nestedLoops.meant {} 1 := by
  have hs : Settings.validate (.mapping []) = .ok {} := rfl
  have hcompile : nestedLoops.compile {} = .ok _ :=
    Expr.compile_eq_ok_iff.mpr ⟨by decide +kernel, by decide +kernel, rfl, rfl⟩
  have ht := compile_eq_ok (s := {}) hcompile (labelValue (some "t.yaml"))
  have hsource : ∀ label ∈ some (Text.ofString "t.yaml"),
      ∀ c ∈ label, c ≠ .scalar '"' ∧ c ≠ .scalar '\\' := by
    decide
  obtain ⟨module, f, hrender, hf, hparameter, hentry, -, hiff⟩ :=
    occurrences_module_iff hs ht hsource (by decide)
  refine ⟨hs, _, ht, module, f, hrender, hf, hiff.mpr fun loop _ b hb => ?_⟩
  have hentry : f.entrypoint = "render" :=
    (Scalar.text.inj (Value.scalar.inj hentry)).symm
  have hnames : ∀ b ∈ Code.builtins, sameName b "runtime" = false ∧ sameName b "render" = false := by
    decide +kernel
  rw [hparameter, hentry]
  exact hnames b (Expr.mem_builtins hb)

/-- A runtime that is called like a built-in function hides it from the loops of its tree. -/
theorem occurrences_module_range :
    ∃ s t module f, Settings.validate (.mapping [(.text "names",
        .mapping [(.text "runtime", .ofText "range")])]) = .ok s ∧
      compile s (.forEach 1 (.string "xs") (.string "x") none none) .null = .ok t ∧
      t.render = .ok module ∧ Function.ofModule? module = some f ∧
      f.occurrences ≠ (Expr.forEach 1 (.string "xs") (.string "x") none none).meant s.names 1 := by
  have hs : Settings.validate (.mapping [(.text "names",
      .mapping [(.text "runtime", .ofText "range")])]) = .ok { names := { runtime := "range" } } := rfl
  have hcompile : Expr.compile { runtime := "range" }
      (.forEach 1 (.string "xs") (.string "x") none none) = .ok _ :=
    Expr.compile_eq_ok_iff.mpr ⟨by decide +kernel, by decide +kernel, rfl, rfl⟩
  have ht := compile_eq_ok (s := { names := { runtime := "range" } }) hcompile (labelValue none)
  obtain ⟨module, entrypoint, hrender, -, hmodule⟩ := ofModule?_render hs ht (by simp) (by decide)
  refine ⟨_, _, module, _, hs, ht, hrender, hmodule, ?_⟩
  rw [occurrences_function, ne_eq, Expr.occurrences_eq_meant_iff (Settings.valid_of_validate hs).1]
  intro h
  have hrange := (h _ (.refl _) "range" (by simp [Expr.builtins])).1
  rw [sameName_self] at hrange
  cases hrange

end Template

end TemplateTree
