import TemplateTree.Proofs.Target.Datum
import TemplateTree.Proofs.Target.Syntax

/-!
# Evaluation of expressions

A big-step semantics of the expressions that generated code is made of. An expression is evaluated
among the frames of the functions and comprehensions around it, and in a state of the runtime, which
only calls into the runtime can change (`Host`).

* Which frame a name belongs to is known before anything runs: a function has its parameters and the
  names that are bound in its body (`Term.assigned`), a comprehension has its variable. A name that
  has no value yet has no value further out either.
* A name is bound in the function around it, never in a comprehension.
* Operands are evaluated from left to right, and of `and`, `or` and a conditional expression only
  those that are needed.
* A lambda is evaluated where it is called on the spot, or polled by `iter`; in no other place does it
  have a value.
-/

namespace TemplateTree.Target

/-! ## 1. The runtime as expressions see it -/

/-- The runtime of some expressions: attributes have no effect, so that a member is known by its path
    from the runtime, while everything that is called or looked up may change the state or fail. -/
structure Host (κ α σ : Type) where
  /-- The item of a member at a key. -/
  item : List Text → Datum κ α → σ → Option (Datum κ α × σ)
  /-- The call of a member. -/
  call : List Text → List (Datum κ α) → σ → Option (Datum κ α × σ)
  /-- The call of a command. -/
  command : κ → List (Datum κ α) → σ → Option (Datum κ α × σ)
  /-- Whether an object counts as true. -/
  truth : α → Bool

namespace Host

variable {κ α σ : Type} (H : Host κ α σ)

/-- Whether a value counts as true. -/
def truthy (v : Datum κ α) : Bool := v.truthy H.truth

/-- The call of a value. -/
def apply (function : Datum κ α) (arguments : List (Datum κ α)) (s : σ) :
    Option (Datum κ α × σ) :=
  match function with
  | .member path => H.call path arguments s
  | .command c => H.command c arguments s
  | .builtin b => (b.result? H.truth arguments).map (·, s)
  | _ => none

/-- The item of a value at a key. -/
def index (subject key : Datum κ α) (s : σ) : Option (Datum κ α × σ) :=
  match subject with
  | .member path => H.item path key s
  | subject => (subject.index? key).map (·, s)

end Host

/-! ## 2. Frames -/

/-- Names with their values, as far as they have one yet. -/
abbrev Slots (κ α : Type) := List (Text × Option (Datum κ α))

/-- The names of a function or a comprehension. -/
inductive Frame (κ α : Type) where
  | function (slots : Slots κ α)
  | comprehension (slots : Slots κ α)

/-- The frames around an expression, the innermost one first. -/
abbrev Frames (κ α : Type) := List (Frame κ α)

section

variable {κ α : Type}

/-- The names of a frame with their values. -/
def Frame.slots : Frame κ α → Slots κ α
  | function slots => slots
  | comprehension slots => slots

/-- The names with another value of one of them. -/
def Slots.set (x : Text) (v : Datum κ α) (slots : Slots κ α) : Slots κ α :=
  slots.map fun slot => if slot.1 = x then (x, some v) else slot

namespace Frames

/-- The value of a name: that of the innermost frame to which it belongs, or a built-in function. -/
def find? (x : Text) : Frames κ α → Option (Datum κ α)
  | [] => (Builtin.table.lookup x).map .builtin
  | f :: ρ =>
    match f.slots.lookup x with
    | some v => v
    | none => find? x ρ

/-- The frames after a name is bound in the innermost function. -/
def bind (x : Text) (v : Datum κ α) : Frames κ α → Frames κ α
  | [] => []
  | .function slots :: ρ => .function (slots.set x v) :: ρ
  | .comprehension slots :: ρ => .comprehension slots :: bind x v ρ

end Frames

/-- The parameters of a function with their values; the last ones may be given by defaults. -/
def parameterSlots? (parameters : List Text) (defaults arguments : List (Datum κ α)) :
    Option (Slots κ α) :=
  let missing := defaults.drop (arguments.length + defaults.length - parameters.length)
  let values := arguments ++ missing
  if values.length = parameters.length then some (parameters.zip (values.map some)) else none

end

namespace Term

mutual

/-- The names that an expression binds in the function around it. -/
def assigned : Term → List Text
  | none | bool _ | number _ | text _ | name _ => []
  | member subject _ => assigned subject
  | index subject key => assigned subject ++ assigned key
  | call function arguments => assigned function ++ assignedAll arguments
  | lambda _ defaults _ => assignedAll defaults
  | tuple items => assignedAll items
  | negative operand => assigned operand
  | not operand => assigned operand
  | and left right => assigned left ++ assigned right
  | or left right => assigned left ++ assigned right
  | conditional test yes no => assigned test ++ assigned yes ++ assigned no
  | comprehension element _ source filter =>
    assigned element ++ assigned source ++ assigned filter
  | bind x value => x :: assigned value

/-- The names that some expressions bind in the function around them. -/
def assignedAll : List Term → List Text
  | [] => []
  | t :: ts => assigned t ++ assignedAll ts

end

/-- The names of a function with some parameters that have no value when it is called. -/
def locals {κ α : Type} (parameters : List Text) (body : Term) : Slots κ α :=
  (body.assigned.filter fun x => !parameters.contains x).map fun x => (x, Option.none)

end Term

/-! ## 3. The rules -/

/-- What a comprehension draws values from: values that are there, or the outcomes of an expression
    that is polled until it gives `stop`. -/
inductive Source (κ α : Type) where
  | values (values : List (Datum κ α))
  | polls (polled : Term) (stop : Bool)

section

variable {κ α σ : Type} (H : Host κ α σ)

mutual

/-- The value of an expression, with the frames and the state after it. -/
inductive Eval : Frames κ α → σ → Term → Datum κ α → Frames κ α → σ → Prop where
  | none {ρ s} : Eval ρ s .none .none ρ s
  | bool {ρ s} (b : Bool) : Eval ρ s (.bool b) (.bool b) ρ s
  | number {ρ s} (m : Nat) : Eval ρ s (.number m) (.int m) ρ s
  | text {ρ s} (v : Text) : Eval ρ s (.text v) (.text v) ρ s
  | name {ρ s x v} : ρ.find? x = some v → Eval ρ s (.name x) v ρ s
  | member {ρ s t path a ρ₁ s₁} : Eval ρ s t (.member path) ρ₁ s₁ →
      Eval ρ s (.member t a) (.member (path ++ [a])) ρ₁ s₁
  | index {ρ s t v ρ₁ s₁ k w ρ₂ s₂ r s₃} : Eval ρ s t v ρ₁ s₁ → Eval ρ₁ s₁ k w ρ₂ s₂ →
      H.index v w s₂ = some (r, s₃) → Eval ρ s (.index t k) r ρ₂ s₃
  | call {ρ s f v ρ₁ s₁ ts vs ρ₂ s₂ r s₃} : Eval ρ s f v ρ₁ s₁ → EvalAll ρ₁ s₁ ts vs ρ₂ s₂ →
      H.apply v vs s₂ = some (r, s₃) → Eval ρ s (.call f ts) r ρ₂ s₃
  | callLambda {ρ s ds us ρ₁ s₁ ts vs ρ₂ s₂ xs slots body r frame ρ₃ s₃} :
      EvalAll ρ s ds us ρ₁ s₁ → EvalAll ρ₁ s₁ ts vs ρ₂ s₂ →
      parameterSlots? xs us vs = some slots →
      Eval (.function (slots ++ body.locals xs) :: ρ₂) s₂ body r (frame :: ρ₃) s₃ →
      Eval ρ s (.call (.lambda xs ds body) ts) r ρ₃ s₃
  | tuple {ρ s ts vs ρ₁ s₁} : EvalAll ρ s ts vs ρ₁ s₁ → Eval ρ s (.tuple ts) (.tuple vs) ρ₁ s₁
  | negative {ρ s t z ρ₁ s₁} : Eval ρ s t (.int z) ρ₁ s₁ →
      Eval ρ s (.negative t) (.int (-z)) ρ₁ s₁
  | not {ρ s t v ρ₁ s₁} : Eval ρ s t v ρ₁ s₁ → Eval ρ s (.not t) (.bool (!H.truthy v)) ρ₁ s₁
  | andLeft {ρ s t v ρ₁ s₁ u} : Eval ρ s t v ρ₁ s₁ → H.truthy v = false →
      Eval ρ s (.and t u) v ρ₁ s₁
  | andRight {ρ s t v ρ₁ s₁ u w ρ₂ s₂} : Eval ρ s t v ρ₁ s₁ → H.truthy v = true →
      Eval ρ₁ s₁ u w ρ₂ s₂ → Eval ρ s (.and t u) w ρ₂ s₂
  | orLeft {ρ s t v ρ₁ s₁ u} : Eval ρ s t v ρ₁ s₁ → H.truthy v = true →
      Eval ρ s (.or t u) v ρ₁ s₁
  | orRight {ρ s t v ρ₁ s₁ u w ρ₂ s₂} : Eval ρ s t v ρ₁ s₁ → H.truthy v = false →
      Eval ρ₁ s₁ u w ρ₂ s₂ → Eval ρ s (.or t u) w ρ₂ s₂
  | yes {ρ s c v ρ₁ s₁ t u w ρ₂ s₂} : Eval ρ s c v ρ₁ s₁ → H.truthy v = true →
      Eval ρ₁ s₁ t w ρ₂ s₂ → Eval ρ s (.conditional c t u) w ρ₂ s₂
  | no {ρ s c v ρ₁ s₁ t u w ρ₂ s₂} : Eval ρ s c v ρ₁ s₁ → H.truthy v = false →
      Eval ρ₁ s₁ u w ρ₂ s₂ → Eval ρ s (.conditional c t u) w ρ₂ s₂
  | comprehension {ρ s t source ρ₁ s₁ e x filter ws ρ₂ s₂} : Opens ρ s t source ρ₁ s₁ →
      Gathers e x filter source ρ₁ s₁ ws ρ₂ s₂ →
      Eval ρ s (.comprehension e x t filter) (.list ws) ρ₂ s₂
  | bind {ρ s t v ρ₁ s₁ x} : Eval ρ s t v ρ₁ s₁ → Eval ρ s (.bind x t) v (ρ₁.bind x v) s₁

/-- The values of some expressions, from left to right. -/
inductive EvalAll : Frames κ α → σ → List Term → List (Datum κ α) → Frames κ α → σ → Prop where
  | nil {ρ s} : EvalAll ρ s [] [] ρ s
  | cons {ρ s t v ρ₁ s₁ ts vs ρ₂ s₂} : Eval ρ s t v ρ₁ s₁ → EvalAll ρ₁ s₁ ts vs ρ₂ s₂ →
      EvalAll ρ s (t :: ts) (v :: vs) ρ₂ s₂

/-- What an expression gives as the source of a comprehension. -/
inductive Opens : Frames κ α → σ → Term → Source κ α → Frames κ α → σ → Prop where
  | values {ρ s t v ρ₁ s₁ vs} : Eval ρ s t v ρ₁ s₁ → v.drawn? = some vs →
      Opens ρ s t (.values vs) ρ₁ s₁
  | polls {ρ s f polled t stop ρ₁ s₁} : ρ.find? f = some (.builtin .iter) →
      Eval ρ s t (.bool stop) ρ₁ s₁ →
      Opens ρ s (.call (.name f) [.lambda [] [] polled, t]) (.polls polled stop) ρ₁ s₁

/-- The next value of a source, with what is left of it. A polled expression is evaluated as the body
    of a function of its own. -/
inductive Draws : Source κ α → Frames κ α → σ → Option (Datum κ α × Source κ α) → Frames κ α → σ →
    Prop where
  | exhausted {ρ s} : Draws (.values []) ρ s none ρ s
  | value {v vs ρ s} : Draws (.values (v :: vs)) ρ s (some (v, .values vs)) ρ s
  | stopped {polled stop ρ s frame ρ₁ s₁} :
      Eval (.function (polled.locals []) :: ρ) s polled (.bool stop) (frame :: ρ₁) s₁ →
      Draws (.polls polled stop) ρ s none ρ₁ s₁
  | polled {polled stop ρ s frame ρ₁ s₁} :
      Eval (.function (polled.locals []) :: ρ) s polled (.bool !stop) (frame :: ρ₁) s₁ →
      Draws (.polls polled stop) ρ s (some (.bool !stop, .polls polled stop)) ρ₁ s₁

/-- The elements of a comprehension, for each drawn value that passes the filter. -/
inductive Gathers : Term → Text → Term → Source κ α → Frames κ α → σ → List (Datum κ α) →
    Frames κ α → σ → Prop where
  | done {e x filter source ρ s ρ₁ s₁} : Draws source ρ s none ρ₁ s₁ →
      Gathers e x filter source ρ s [] ρ₁ s₁
  | skip {e x filter source ρ s v rest ρ₁ s₁ c frame ρ₂ s₂ ws ρ₃ s₃} :
      Draws source ρ s (some (v, rest)) ρ₁ s₁ →
      Eval (.comprehension [(x, some v)] :: ρ₁) s₁ filter c (frame :: ρ₂) s₂ →
      H.truthy c = false → Gathers e x filter rest ρ₂ s₂ ws ρ₃ s₃ →
      Gathers e x filter source ρ s ws ρ₃ s₃
  | keep {e x filter source ρ s v rest ρ₁ s₁ c frame ρ₂ s₂ w frame' ρ₃ s₃ ws ρ₄ s₄} :
      Draws source ρ s (some (v, rest)) ρ₁ s₁ →
      Eval (.comprehension [(x, some v)] :: ρ₁) s₁ filter c (frame :: ρ₂) s₂ →
      H.truthy c = true → Eval (frame :: ρ₂) s₂ e w (frame' :: ρ₃) s₃ →
      Gathers e x filter rest ρ₃ s₃ ws ρ₄ s₄ →
      Gathers e x filter source ρ s (w :: ws) ρ₄ s₄

end

/-! ## 4. What a rule was applied to

Each form of expression has one rule, or two that exclude each other, so what holds of its evaluation
holds of the evaluation of its parts. -/

variable {H} {ρ ρ' : Frames κ α} {s s' : σ} {w : Datum κ α}

theorem not_eval_lambda {xs : List Text} {ds : List Term} {body : Term} :
    ¬ Eval H ρ s (.lambda xs ds body) w ρ' s' := by
  rintro ⟨⟩

theorem evalAll_nil_iff {vs : List (Datum κ α)} :
    EvalAll H ρ s [] vs ρ' s' ↔ vs = [] ∧ ρ' = ρ ∧ s' = s := by
  constructor
  · rintro ⟨⟩
    exact ⟨rfl, rfl, rfl⟩
  · rintro ⟨rfl, rfl, rfl⟩
    exact .nil

theorem evalAll_cons_iff {t : Term} {ts : List Term} {vs : List (Datum κ α)} :
    EvalAll H ρ s (t :: ts) vs ρ' s' ↔
      ∃ v ρ₁ s₁ ws, Eval H ρ s t v ρ₁ s₁ ∧ EvalAll H ρ₁ s₁ ts ws ρ' s' ∧ vs = v :: ws := by
  constructor
  · rintro ⟨⟩
    exact ⟨_, _, _, _, ‹_›, ‹_›, rfl⟩
  · rintro ⟨v, ρ₁, s₁, ws, ht, hts, rfl⟩
    exact .cons ht hts

theorem evalAll_append_iff {ts us : List Term} {vs : List (Datum κ α)} :
    EvalAll H ρ s (ts ++ us) vs ρ' s' ↔
      ∃ ws ρ₁ s₁ rs, EvalAll H ρ s ts ws ρ₁ s₁ ∧ EvalAll H ρ₁ s₁ us rs ρ' s' ∧ vs = ws ++ rs := by
  induction ts generalizing ρ s vs with
  | nil =>
    constructor
    · exact fun h => ⟨[], ρ, s, vs, .nil, h, rfl⟩
    · rintro ⟨_, _, _, rs, h, hus, rfl⟩
      obtain ⟨rfl, rfl, rfl⟩ := evalAll_nil_iff.mp h
      exact hus
  | cons t ts ih =>
    simp only [List.cons_append, evalAll_cons_iff, ih]
    constructor
    · rintro ⟨v, ρ₁, s₁, _, ht, ⟨ws, ρ₂, s₂, rs, hts, hus, rfl⟩, rfl⟩
      exact ⟨_, _, _, _, ⟨v, ρ₁, s₁, ws, ht, hts, rfl⟩, hus, rfl⟩
    · rintro ⟨_, ρ₂, s₂, rs, ⟨v, ρ₁, s₁, ws, ht, hts, rfl⟩, hus, rfl⟩
      exact ⟨v, ρ₁, s₁, _, ht, ⟨ws, ρ₂, s₂, rs, hts, hus, rfl⟩, rfl⟩

theorem eval_name_iff {x : Text} :
    Eval H ρ s (.name x) w ρ' s' ↔ ρ.find? x = some w ∧ ρ' = ρ ∧ s' = s := by
  constructor
  · rintro ⟨⟩
    exact ⟨‹_›, rfl, rfl⟩
  · rintro ⟨h, rfl, rfl⟩
    exact .name h

theorem eval_call_iff {f : Term} {ts : List Term} (hf : ∀ xs ds body, f ≠ .lambda xs ds body) :
    Eval H ρ s (.call f ts) w ρ' s' ↔ ∃ v ρ₁ s₁ vs s₂, Eval H ρ s f v ρ₁ s₁ ∧
      EvalAll H ρ₁ s₁ ts vs ρ' s₂ ∧ H.apply v vs s₂ = some (w, s') := by
  constructor
  · intro h
    cases h with
    | call hv hvs happly => exact ⟨_, _, _, _, _, hv, hvs, happly⟩
    | callLambda => exact absurd rfl (hf _ _ _)
  · rintro ⟨v, ρ₁, s₁, vs, s₂, hv, hvs, happly⟩
    exact .call hv hvs happly

theorem eval_callLambda_iff {xs : List Text} {ds ts : List Term} {body : Term} :
    Eval H ρ s (.call (.lambda xs ds body) ts) w ρ' s' ↔
      ∃ us ρ₁ s₁ vs ρ₂ s₂ slots frame, EvalAll H ρ s ds us ρ₁ s₁ ∧ EvalAll H ρ₁ s₁ ts vs ρ₂ s₂ ∧
        parameterSlots? xs us vs = some slots ∧
        Eval H (.function (slots ++ body.locals xs) :: ρ₂) s₂ body w (frame :: ρ') s' := by
  constructor
  · intro h
    cases h with
    | call hv _ _ => exact absurd hv not_eval_lambda
    | callLambda hds hts hslots hbody => exact ⟨_, _, _, _, _, _, _, _, hds, hts, hslots, hbody⟩
  · rintro ⟨us, ρ₁, s₁, vs, ρ₂, s₂, slots, frame, hds, hts, hslots, hbody⟩
    exact .callLambda hds hts hslots hbody

theorem eval_conditional_iff {c t u : Term} :
    Eval H ρ s (.conditional c t u) w ρ' s' ↔ ∃ v ρ₁ s₁, Eval H ρ s c v ρ₁ s₁ ∧
      Eval H ρ₁ s₁ (if H.truthy v then t else u) w ρ' s' := by
  constructor
  · intro h
    cases h with
    | yes hc hv ht => exact ⟨_, _, _, hc, by rwa [if_pos hv]⟩
    | no hc hv hu => exact ⟨_, _, _, hc, by rwa [if_neg (by simp [hv])]⟩
  · rintro ⟨v, ρ₁, s₁, hc, h⟩
    cases hv : H.truthy v with
    | true => exact .yes hc hv (by simpa [hv] using h)
    | false => exact .no hc hv (by simpa [hv] using h)

end

end TemplateTree.Target
