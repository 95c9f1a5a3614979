import TemplateTree.Document.Build

/-!
# What tokens of documents stand for

A token of a document stands for a literal, or for a command whose name and arguments are tokens at
the line of the command (`Expr.IsToken`). Nothing else comes out of one (`Tokens.isToken_of_expr`),
and each such expression has a token (`Expr.token`) that stands for it at its line
(`View.expr_token`), if the view of the document reaches as deep as the token does.
-/

namespace TemplateTree

/-! ## 1. Steps that can fail -/

section

variable {ε α β : Type}

theorem exists_of_bind {x : Except ε α} {f : α → Except ε β} {b : β} (h : (x >>= f) = .ok b) :
    ∃ a, x = .ok a ∧ f a = .ok b := by
  cases x with
  | error e => cases h
  | ok a => exact ⟨a, rfl, h⟩

theorem ok_bind (a : α) (f : α → Except ε β) : (Except.ok a >>= f) = f a := rfl

theorem exists_of_mapM_cons {f : α → Except ε β} {x : α} {xs : List α} {ys : List β}
    (h : (x :: xs).mapM f = .ok ys) : ∃ y rest, f x = .ok y ∧ xs.mapM f = .ok rest ∧ ys = y :: rest := by
  rw [List.mapM_cons] at h
  obtain ⟨y, hy, h⟩ := exists_of_bind h
  obtain ⟨rest, hrest, h⟩ := exists_of_bind h
  exact ⟨y, rest, hy, hrest, (Except.ok.inj h).symm⟩

/-- Each result of a row of steps is the result of one of them. -/
theorem exists_of_mem_mapM {f : α → Except ε β} {xs : List α} {ys : List β}
    (h : xs.mapM f = .ok ys) {y : β} (hy : y ∈ ys) : ∃ x ∈ xs, f x = .ok y := by
  induction xs generalizing ys with
  | nil =>
    obtain rfl : [] = ys := Except.ok.inj h
    cases hy
  | cons x xs ih =>
    obtain ⟨z, rest, hz, hrest, rfl⟩ := exists_of_mapM_cons h
    rcases List.mem_cons.mp hy with rfl | hy
    · exact ⟨x, List.mem_cons_self, hz⟩
    · obtain ⟨x', hx', hx⟩ := ih hrest hy
      exact ⟨x', List.mem_cons_of_mem x hx', hx⟩

/-- A row of steps gives back what each of them was made from. -/
theorem mapM_map_eq_ok {f : β → Except ε α} {g : α → β} {xs : List α}
    (h : ∀ x ∈ xs, f (g x) = .ok x) : (xs.map g).mapM f = .ok xs := by
  induction xs with
  | nil => rfl
  | cons x xs ih =>
    rw [List.map_cons, List.mapM_cons, h x List.mem_cons_self,
      ih fun y hy => h y (List.mem_cons_of_mem x hy)]
    rfl

theorem forM_eq_ok {f : α → Except ε PUnit} {xs : List α} (h : ∀ x ∈ xs, f x = .ok ⟨⟩) :
    xs.forM f = .ok ⟨⟩ := by
  induction xs with
  | nil => rfl
  | cons x xs ih =>
    show (f x >>= fun _ => xs.forM f) = .ok ⟨⟩
    rw [h x List.mem_cons_self]
    exact ih fun y hy => h y (List.mem_cons_of_mem x hy)

end

/-! ## 2. Expressions of tokens -/

/-- An expression that a token can stand for: a literal, or a command at the line whose name and
    arguments are such expressions again. -/
inductive Expr.IsToken (line : Int) : Expr → Prop
  | string (value : Text) : IsToken line (.string value)
  | command {name : Expr} {arguments : List Expr} (hname : IsToken line name)
      (harguments : ∀ a ∈ arguments, IsToken line a) : IsToken line (.command line name arguments)

namespace Tokens

variable {α : Type} {line : Int} {e : Expr}

/-- What comes out of a sequence of tokens: a command of them. -/
theorem exists_of_commandOf {es : List Expr} (h : commandOf line es = .ok e) :
    ∃ name arguments, es = name :: arguments ∧ e = .command line name arguments := by
  cases es with
  | nil => cases h
  | cons name arguments => exact ⟨name, arguments, rfl, (Except.ok.inj h).symm⟩

/-- **A token stands for a literal or a command at one line**, where no expression is prepared. -/
theorem isToken_of_expr {look : α → TokenLevel α} (hlook : ∀ t e, look t ≠ .prepared e)
    {depth : Nat} {t : α} (h : expr look depth line t = .ok e) : e.IsToken line := by
  induction depth generalizing t e with
  | zero => cases h
  | succ depth ih =>
    rw [expr] at h
    split at h
    · obtain rfl := Except.ok.inj h
      exact .string _
    · rename_i hprepared
      exact absurd hprepared (hlook t _)
    · cases h
    · obtain ⟨es, hes, h⟩ := exists_of_bind h
      obtain ⟨name, arguments, rfl, rfl⟩ := exists_of_commandOf h
      have hall : ∀ x ∈ name :: arguments, x.IsToken line := by
        intro x hx
        obtain ⟨member, -, hmember⟩ := exists_of_mem_mapM hes hx
        exact ih hmember
      exact .command (hall name List.mem_cons_self) fun a ha => hall a (List.mem_cons_of_mem name ha)

/-- Tokens behind the marker are the operands of a negated test. -/
theorem condition_of_marker {look : α → TokenLevel α} {depth : Nat} {isMarker : α → Bool} {first : α}
    {rest : List α} {es : List Expr} (hfirst : isMarker first = true)
    (hrow : rest.mapM (expr look depth line) = .ok es) :
    condition look depth isMarker line (first :: rest) = .ok (.condition true es) := by
  rw [condition, if_pos hfirst, hrow]
  rfl

/-- Tokens without the marker in front are the operands of a test. -/
theorem condition_of_operands {look : α → TokenLevel α} {depth : Nat} {isMarker : α → Bool}
    {ts : List α} {es : List Expr} (hfirst : ∀ t ∈ ts.head?, isMarker t = false)
    (hrow : ts.mapM (expr look depth line) = .ok es) :
    condition look depth isMarker line ts = .ok (.condition false es) := by
  cases ts with
  | nil =>
    obtain rfl : [] = es := Except.ok.inj hrow
    rfl
  | cons first rest =>
    have hfirst := hfirst first rfl
    rw [condition, if_neg (by simp [hfirst]), hrow]
    rfl

end Tokens

/-! ## 3. Tokens of values -/

namespace View

variable {α : Type} (view : View α)

theorem token_ne_prepared (t : Bool × α) (e : Expr) : view.token t ≠ .prepared e := by
  obtain ⟨raw, v⟩ := t
  intro h
  rw [token] at h
  split at h
  · cases h
  · split at h <;> cases h
  all_goals cases h

theorem eq_of_tokens {items : List α} {ts : List (Bool × α)} (h : view.tokens items = .ok ts) :
    ts = items.map ((false, ·)) := by
  unfold tokens at h
  obtain ⟨-, -, h⟩ := exists_of_bind h
  exact (Except.ok.inj h).symm

/-- A list of values is built as a command of tokens. -/
theorem exists_of_command {line : Int} {items : List α} {e : Expr}
    (h : view.command line items = .ok e) :
    ∃ name arguments, e = .command line name arguments ∧
      ∀ x ∈ name :: arguments, x.IsToken line := by
  unfold command Tokens.command at h
  obtain ⟨ts, -, h⟩ := exists_of_bind h
  obtain ⟨es, hes, h⟩ := exists_of_bind h
  obtain ⟨name, arguments, rfl, rfl⟩ := Tokens.exists_of_commandOf h
  refine ⟨name, arguments, rfl, fun x hx => ?_⟩
  obtain ⟨t, -, ht⟩ := exists_of_mem_mapM hes hx
  exact Tokens.isToken_of_expr view.token_ne_prepared ht

/-- What is seen as a text is equal to it, a number with that text included. -/
theorem isEqual_of_token {v : α} {t : Text} (h : view.token (false, v) = .text t) :
    view.isEqual false v (.ofText t) = true := by
  rw [Value.ofText, isEqual]
  rw [token] at h
  split at h
  · rename_i hlevel
    obtain rfl := TokenLevel.text.inj h
    rw [hlevel]
    simp [countsAs, Scalar.numberText?, Scalar.sameKey]
  · rename_i s _ hlevel
    split at h
    · rename_i hnumber
      obtain rfl := TokenLevel.text.inj h
      rw [hlevel]
      simp [countsAs, hnumber]
    · cases h
  all_goals cases h

theorem token_of_expr {depth : Nat} {line : Int} {t : Bool × α} {value : Text}
    (h : Tokens.expr view.token depth line t = .ok (.string value)) :
    view.token t = .text value := by
  cases depth with
  | zero => cases h
  | succ depth =>
    rw [Tokens.expr] at h
    split at h
    · rename_i htext
      obtain ⟨rfl⟩ := Except.ok.inj h
      exact htext
    · rename_i hprepared
      exact absurd hprepared (view.token_ne_prepared t _)
    · cases h
    · obtain ⟨es, -, h⟩ := exists_of_bind h
      obtain ⟨name, arguments, -, hcommand⟩ := Tokens.exists_of_commandOf h
      cases hcommand

end View

/-! ## 4. Tokens for expressions -/

namespace Value

theorem height_le_heights {v : Value} {vs : List Value} (h : v ∈ vs) : v.height ≤ heights vs := by
  induction vs with
  | nil => cases h
  | cons w vs ih =>
    rw [heights]
    rcases List.mem_cons.mp h with rfl | h
    · exact Nat.le_max_left ..
    · exact Nat.le_trans (ih h) (Nat.le_max_right ..)

/-- An item of a list has fewer levels than the list. -/
theorem height_lt_list {v : Value} {items : List Value} (h : v ∈ items) :
    v.height < (Value.list items).height := by
  rw [height]
  exact Nat.lt_succ_of_le (height_le_heights h)

end Value

namespace Expr

mutual

/-- The token of an expression that has one. -/
def token : Expr → Value
  | string value => .ofText value
  | command _ name arguments => .list (token name :: tokens arguments)
  | _ => .null

/-- The tokens of some expressions. -/
def tokens : List Expr → List Value
  | [] => []
  | e :: es => token e :: tokens es

end

theorem tokens_eq_map (es : List Expr) : tokens es = es.map token := by
  induction es with
  | nil => rfl
  | cons e es ih => simp [tokens, ih]

theorem token_command (line : Int) (name : Expr) (arguments : List Expr) :
    token (.command line name arguments) = .list ((name :: arguments).map token) := by
  rw [token, tokens_eq_map, List.map_cons]

/-- The name and the arguments of a command of tokens have fewer levels than its token. -/
theorem height_token_lt {line : Int} {name : Expr} {arguments : List Expr} {x : Expr}
    (hx : x ∈ name :: arguments) :
    x.token.height < (token (.command line name arguments)).height := by
  rw [token_command]
  exact Value.height_lt_list (List.mem_map_of_mem hx)

end Expr

namespace View

section

variable {view : View Value} (hview : view.level = Value.level)

include hview

/-- **The token of an expression stands for it**, at the line of its commands. -/
theorem expr_token {line : Int} {e : Expr} (he : e.IsToken line) {depth : Nat}
    (hdepth : e.token.height ≤ depth) :
    Tokens.expr view.token depth line (false, e.token) = .ok e := by
  induction he generalizing depth with
  | string value =>
    cases depth with
    | zero => simp [Expr.token, Value.ofText, Value.height] at hdepth
    | succ depth => simp [Tokens.expr, token, hview, Expr.token, Value.ofText, Value.level]
  | @command name arguments _ _ hname harguments =>
    cases depth with
    | zero => exact absurd hdepth (by rw [Expr.token_command, Value.height]; omega)
    | succ depth =>
      have hmembers : ∀ x ∈ name :: arguments,
          Tokens.expr view.token depth line (false, x.token) = .ok x := by
        intro x hx
        have hlower : x.token.height ≤ depth :=
          Nat.le_of_lt_succ (Nat.lt_of_lt_of_le (Expr.height_token_lt hx) hdepth)
        rcases List.mem_cons.mp hx with rfl | hx
        · exact hname hlower
        · exact harguments x hx hlower
      have hrow := mapM_map_eq_ok (g := fun x : Expr => (false, x.token)) hmembers
      have hlook : view.token (false, Expr.token (.command line name arguments))
          = .sequence ((name :: arguments).map fun x => (false, x.token)) := by
        simp [token, hview, Expr.token_command, Value.level]
      rw [Tokens.expr, hlook]
      show (_ >>= Tokens.commandOf line) = _
      rw [hrow]
      rfl

/-- The token of an expression has no number in it. -/
theorem checkNumbers_token {line : Int} {e : Expr} (he : e.IsToken line) {depth : Nat}
    (hdepth : e.token.height ≤ depth) : view.checkNumbers depth e.token = .ok () := by
  induction he generalizing depth with
  | string value =>
    cases depth with
    | zero => simp [Expr.token, Value.ofText, Value.height] at hdepth
    | succ depth =>
      simp [checkNumbers, hview, Expr.token, Value.ofText, Value.level, Scalar.numberText?]
  | @command name arguments _ _ hname harguments =>
    cases depth with
    | zero => exact absurd hdepth (by rw [Expr.token_command, Value.height]; omega)
    | succ depth =>
      rw [checkNumbers, hview, Expr.token_command, Value.level]
      refine forM_eq_ok fun v hv => ?_
      obtain ⟨x, hx, rfl⟩ := List.mem_map.mp hv
      have hlower : x.token.height ≤ depth :=
        Nat.le_of_lt_succ (Nat.lt_of_lt_of_le (Expr.height_token_lt hx) hdepth)
      rcases List.mem_cons.mp hx with rfl | hx
      · exact hname hlower
      · exact harguments x hx hlower

theorem tokens_map_token {line : Int} {es : List Expr} (h : ∀ x ∈ es, x.IsToken line)
    (hreach : ∀ x ∈ es, x.token.height ≤ view.reach) :
    view.tokens (es.map Expr.token) = .ok (es.map fun x => (false, x.token)) := by
  have hnumbers : ∀ v ∈ es.map Expr.token, view.checkNumbers (view.reach + 1) v = .ok () := by
    intro v hv
    obtain ⟨x, hx, rfl⟩ := List.mem_map.mp hv
    exact checkNumbers_token hview (h x hx) (Nat.le_succ_of_le (hreach x hx))
  rw [tokens, forM_eq_ok hnumbers]
  show Except.ok ((es.map Expr.token).map ((false, ·))) = _
  rw [List.map_map]
  rfl

theorem mapM_expr_token {line : Int} {es : List Expr} (h : ∀ x ∈ es, x.IsToken line)
    (hreach : ∀ x ∈ es, x.token.height ≤ view.reach) :
    (es.map fun x => (false, x.token)).mapM (Tokens.expr view.token view.tokenDepth line) = .ok es := by
  refine mapM_map_eq_ok fun x hx => expr_token hview (h x hx) ?_
  have hx := hreach x hx
  rw [tokenDepth]
  omega

/-- **The tokens of a command are built as the command.** -/
theorem command_map_token {line : Int} {name : Expr} {arguments : List Expr}
    (h : ∀ x ∈ name :: arguments, x.IsToken line)
    (hreach : ∀ x ∈ name :: arguments, x.token.height ≤ view.reach) :
    view.command line ((name :: arguments).map Expr.token) = .ok (.command line name arguments) := by
  rw [command, tokens_map_token hview h hreach]
  show Tokens.command _ _ _ _ = _
  rw [Tokens.command, mapM_expr_token hview h hreach]
  rfl

end

end View

/-! ## 5. Tests -/

/-- An expression that a list of tokens can stand for as a test: operands that are tokens at one line,
    the first of which is not the marker, if the test is not negated. -/
inductive Expr.IsTest (marker : Text) : Expr → Prop
  | condition {negated : Bool} {operands : List Expr} (line : Int)
      (hoperands : ∀ o ∈ operands, o.IsToken line)
      (hmarker : negated = false → operands.head? ≠ some (.string marker)) :
      IsTest marker (.condition negated operands)

/-- Some tokens that are not the marker in front, or behind the marker, stand for a test. -/
theorem View.isTest_of_condition {α : Type} (view : View α) {depth : Nat} {marker : Text}
    {line : Int} {items : List α} {e : Expr}
    (h : Tokens.condition view.token depth (fun t => view.isEqual t.1 t.2 (.ofText marker)) line
      (items.map ((false, ·))) = .ok e) : e.IsTest marker := by
  have htokens : ∀ {ts : List (Bool × α)} {es : List Expr},
      ts.mapM (Tokens.expr view.token depth line) = .ok es → ∀ x ∈ es, x.IsToken line := by
    intro ts es hes x hx
    obtain ⟨t, -, ht⟩ := exists_of_mem_mapM hes hx
    exact Tokens.isToken_of_expr view.token_ne_prepared ht
  cases items with
  | nil =>
    obtain rfl := Except.ok.inj h
    exact .condition line (by simp) (by simp)
  | cons first rest =>
    rw [List.map_cons, Tokens.condition] at h
    split at h
    · obtain ⟨es, hes, h⟩ := exists_of_bind h
      obtain rfl := Except.ok.inj h
      exact .condition line (htokens hes) (by simp)
    · rename_i hmarker
      obtain ⟨es, hes, h⟩ := exists_of_bind h
      obtain rfl := Except.ok.inj h
      refine .condition line (htokens hes) fun _ hhead => hmarker ?_
      obtain ⟨operand, others, hfirst, -, rfl⟩ := exists_of_mapM_cons hes
      -- An operand that is the marker would have been taken for it.
      obtain rfl : operand = .string marker := by simpa using hhead
      exact view.isEqual_of_token (view.token_of_expr hfirst)

namespace Expr

/-- The tokens of a test; the marker stands in front of negated ones. -/
def testTokens (marker : Text) : Expr → List Value
  | condition true operands => tokens (.string marker :: operands)
  | condition false operands => tokens operands
  | _ => []

/-- The line of a command. -/
def commandLine? : Expr → Option Int
  | command line _ _ => some line
  | _ => none

/-- The line of the commands of a test; a test without one has any line. -/
def testLine : Expr → Int
  | condition _ operands => (operands.findSome? commandLine?).getD 0
  | _ => 0

theorem IsToken.commandLine?_eq {line l : Int} {e : Expr} (he : e.IsToken line)
    (h : e.commandLine? = some l) : l = line := by
  cases he with
  | string value => cases h
  | command _ _ => exact (Option.some.inj h).symm

/-- The operands of a test are tokens at its line. -/
theorem isToken_testLine {line : Int} {negated : Bool} {operands : List Expr}
    (h : ∀ o ∈ operands, o.IsToken line) {o : Expr} (ho : o ∈ operands) :
    o.IsToken (testLine (.condition negated operands)) := by
  rw [testLine]
  cases hfound : operands.findSome? commandLine? with
  | some l =>
    obtain ⟨first, hfirst, hl⟩ := List.exists_of_findSome?_eq_some hfound
    obtain rfl := (h first hfirst).commandLine?_eq hl
    exact h o ho
  | none =>
    have hnone := List.findSome?_eq_none_iff.mp hfound o ho
    have htoken := h o ho
    cases htoken with
    | string value => exact .string value
    | command _ _ => cases hnone

end Expr

namespace Document

variable {α : Type}

/-- **A list of tokens stands for a test.** -/
theorem isTest_of_condition {view : View α} {marker : Text} {line : Int} {v : Option α} {e : Expr}
    (h : condition view (.ofText marker) line v = .ok e) : e.IsTest marker := by
  unfold condition at h
  split at h
  · obtain rfl := Except.ok.inj h
    exact .condition line (by simp) (by simp)
  · obtain ⟨items, -, h⟩ := exists_of_bind h
    obtain ⟨ts, hts, h⟩ := exists_of_bind h
    obtain rfl := view.eq_of_tokens hts
    exact view.isTest_of_condition h

section

variable {view : View Value} (hview : view.level = Value.level)

include hview

/-- The token of an expression is taken for the marker exactly if the expression is its literal. -/
theorem isEqual_token_iff {line : Int} {marker : Text} {e : Expr} (he : e.IsToken line) :
    view.isEqual false e.token (.ofText marker) = true ↔ e = .string marker := by
  rw [Value.ofText, View.isEqual, hview]
  cases he with
  | string value =>
    simp [Expr.token, Value.ofText, Value.level, View.countsAs, Scalar.numberText?, Scalar.sameKey]
  | command _ _ => simp [Expr.token_command, Value.level]

theorem listItems_list (line : Int) (cause : Cause) (items : List Value) :
    listItems view line cause (some (.list items)) = .ok items := by
  simp [listItems, hview, Value.level]

theorem condition_list (marker : Value) (line : Int) (items : List Value) :
    condition view marker line (some (.list items)) = (view.tokens items >>=
      Tokens.condition view.token view.tokenDepth (fun t => view.isEqual t.1 t.2 marker) line) := by
  have hgiven : given view (some (.list items)) = some (.list items) := by
    simp [given, hview, Value.level]
  rw [condition, hgiven]
  simp only [listItems_list hview]
  rfl

/-- **The tokens of a test are built as the test**, at its line. -/
theorem condition_testTokens {marker : Text} {e : Expr} (he : e.IsTest marker)
    (hreach : ∀ v ∈ e.testTokens marker, v.height ≤ view.reach) :
    condition view (.ofText marker) e.testLine (some (.list (e.testTokens marker))) = .ok e := by
  rw [condition_list hview]
  cases he with
  | @condition negated operands line hoperands hmarker =>
    have hoperands : ∀ o ∈ operands, o.IsToken (Expr.testLine (.condition negated operands)) :=
      fun o ho => Expr.isToken_testLine hoperands ho
    cases negated with
    | false =>
      rw [Expr.testTokens, Expr.tokens_eq_map] at hreach ⊢
      have hreach : ∀ o ∈ operands, o.token.height ≤ view.reach := fun o ho =>
        hreach o.token (List.mem_map_of_mem ho)
      rw [View.tokens_map_token hview hoperands hreach, ok_bind]
      refine Tokens.condition_of_operands (fun t ht => ?_)
        (View.mapM_expr_token hview hoperands hreach)
      rw [List.head?_map] at ht
      obtain ⟨first, hfirst, rfl⟩ := Option.map_eq_some_iff.mp ht
      have hmem : first ∈ operands := List.mem_of_head? hfirst
      rw [Bool.eq_false_iff, Ne, isEqual_token_iff hview (hoperands first hmem)]
      rintro rfl
      exact hmarker rfl hfirst
    | true =>
      have hall : ∀ x ∈ Expr.string marker :: operands,
          x.IsToken (Expr.testLine (.condition true operands)) := by
        intro x hx
        rcases List.mem_cons.mp hx with rfl | hx
        · exact .string marker
        · exact hoperands x hx
      rw [Expr.testTokens, Expr.tokens_eq_map] at hreach ⊢
      have hreach : ∀ x ∈ Expr.string marker :: operands, x.token.height ≤ view.reach :=
        fun x hx => hreach x.token (List.mem_map_of_mem hx)
      rw [View.tokens_map_token hview hall hreach, ok_bind, List.map_cons]
      have hfirst := (isEqual_token_iff hview (hall _ List.mem_cons_self)).mpr rfl
      exact Tokens.condition_of_marker hfirst (View.mapM_expr_token hview hoperands
        fun o ho => hreach o (List.mem_cons_of_mem _ ho))

end

end Document

end TemplateTree
