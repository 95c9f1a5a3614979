import TemplateTree.Proofs.Document.Acceptance

/-!
# Tokens and the expressions they stand for

A token is a tree of texts, sequences and prepared expressions, and of values that are none of these. Its
classification keeps that tree: what stands at a place of the expression is told by what stands at the same
place of the token (`Token.expr_eq_ok_iff`). A token is refused exactly if an empty sequence or a value
that is no token stands in it, for the first of them, depth first from left to right
(`Token.reports_expr`).

Where a token has texts and sequences only, nothing is lost: it can be read back out of the expression
(`Expr.toToken`). So the tokens of this kind and the trees of literals and commands at one line
(`Expr.IsToken`) correspond one to one.
-/

namespace TemplateTree

/-! ## 1. Induction and parts -/

namespace Token

section

variable {motive : Token → Prop} (text : ∀ value, motive (.text value))
  (sequence : ∀ members, (∀ t ∈ members, motive t) → motive (.sequence members))
  (prepared : ∀ e, motive (.prepared e)) (other : ∀ type, motive (.other type))

include text sequence prepared other

/-- **Induction over tokens**, with the hypothesis for every member of a sequence. -/
@[elab_as_elim, induction_eliminator]
theorem induction (t : Token) : motive t := by
  refine @Token.rec motive (fun ts => ∀ t ∈ ts, motive t) text sequence prepared other ?nil ?cons t
  case nil => simp
  case cons =>
    intro t ts ht hts u hu
    rcases List.mem_cons.mp hu with rfl | hu
    · exact ht
    · exact hts u hu

end

mutual

/-- A token and everything that stands in it, depth first from left to right. -/
def parts : Token → List Token
  | text value => [.text value]
  | sequence members => .sequence members :: memberParts members
  | prepared e => [.prepared e]
  | other type => [.other type]

/-- The parts of some tokens. -/
def memberParts : List Token → List Token
  | [] => []
  | t :: ts => parts t ++ memberParts ts

end

theorem memberParts_eq_flatMap (ts : List Token) : memberParts ts = ts.flatMap parts := by
  induction ts with
  | nil => rfl
  | cons t ts ih => rw [memberParts, ih, List.flatMap_cons]

theorem parts_sequence (members : List Token) :
    (sequence members).parts = .sequence members :: members.flatMap parts := by
  rw [parts, memberParts_eq_flatMap]

/-- The token at a place, which is told by the positions of members in sequences on the way to it. -/
def at? : Token → List Nat → Option Token
  | t, [] => some t
  | sequence members, i :: path => members[i]?.bind (at? · path)
  | _, _ :: _ => none

end Token

/-- The expression at a place, which is told by the positions of parts in commands on the way to it; the
    name of a command is its first part. -/
def Expr.at? : Expr → List Nat → Option Expr
  | e, [] => some e
  | .command _ name arguments, i :: path => (name :: arguments)[i]?.bind (at? · path)
  | _, _ :: _ => none

/-! ## 2. The rule without fuel -/

namespace Token

variable {line : Int} {t : Token} {e : Expr}

theorem height_le_heights {members : List Token} (h : t ∈ members) : t.height ≤ heights members := by
  induction members with
  | nil => cases h
  | cons u members ih =>
    rw [heights]
    rcases List.mem_cons.mp h with rfl | h
    · exact Nat.le_max_left ..
    · exact Nat.le_trans (ih h) (Nat.le_max_right ..)

/-- More fuel than there are levels changes nothing. -/
theorem expr_of_height_le {depth : Nat} (h : t.height ≤ depth) :
    Tokens.expr level depth line t = t.expr line := by
  induction t generalizing depth with
  | text value | prepared e | other type =>
    obtain ⟨depth, rfl⟩ := Nat.exists_eq_add_one.mpr h
    rfl
  | sequence members ih =>
    rw [height] at h
    obtain ⟨depth, rfl⟩ := Nat.exists_eq_add_one.mpr (Nat.lt_of_lt_of_le (Nat.succ_pos _) h)
    have hrow : members.mapM (Tokens.expr level depth line)
        = members.mapM (Tokens.expr level (heights members) line) := by
      refine mapM_eq_of_forall₂ (List.forall₂_same.mpr fun u hu => ?_)
      rw [ih u hu (Nat.le_trans (height_le_heights hu) (Nat.le_of_succ_le_succ h)),
        ih u hu (height_le_heights hu)]
    rw [expr, height, Tokens.expr, Tokens.expr]
    simp only [level, hrow]

/-- **A sequence is the command of its members.** -/
theorem expr_sequence (members : List Token) :
    (sequence members).expr line = members.mapM (expr line) >>= Tokens.commandOf line := by
  have hrow : members.mapM (Tokens.expr level (heights members) line) = members.mapM (expr line) :=
    mapM_eq_of_forall₂ (List.forall₂_same.mpr fun u hu => expr_of_height_le (height_le_heights hu))
  rw [expr, height, Tokens.expr]
  simp only [level, hrow]

/-- The members of a sequence are classified one by one, and there is at least one. -/
theorem expr_sequence_eq_ok_iff {members : List Token} :
    (sequence members).expr line = .ok e ↔ ∃ name arguments,
      e = .command line name arguments ∧
        List.Forall₂ (fun t x => t.expr line = .ok x) members (name :: arguments) := by
  rw [expr_sequence]
  constructor
  · intro h
    obtain ⟨es, hes, h⟩ := exists_of_bind h
    obtain ⟨name, arguments, rfl, rfl⟩ := Tokens.exists_of_commandOf h
    exact ⟨name, arguments, rfl, Document.mapM_eq_ok_iff.mp hes⟩
  · intro h
    obtain ⟨name, arguments, rfl, hes⟩ := h
    rw [Document.mapM_eq_ok_iff.mpr hes]
    rfl

/-! ## 3. Refusals -/

/-- Why a token is refused, what stands in it left aside. -/
def offence? : Token → Option Cause
  | sequence [] => some .emptyCommand
  | other type => some (.notToken type)
  | _ => none

theorem offence?_eq_none_iff : t.offence? = none ↔ t ≠ .sequence [] ∧ ∀ type, t ≠ .other type := by
  cases t with
  | sequence members => cases members <;> simp [offence?]
  | _ => simp [offence?]

/-- **A token is refused for the first offence in it.** -/
theorem reports_expr (line : Int) (t : Token) :
    Document.Reports (t.expr line) ((t.parts.filterMap offence?).map (⟨·, line⟩)) := by
  induction t with
  | text value | prepared e => exact .ok _
  | other type => exact .refusal line _
  | sequence members ih =>
    have hrow := Document.Reports.row (g := Tokens.commandOf line) ih rfl fun e es => ⟨_, rfl⟩
    rw [expr_sequence, parts_sequence]
    cases members with
    | nil => exact hrow
    | cons first rest =>
      rw [List.filterMap_cons_none rfl, List.filterMap_flatMap, List.map_flatMap]
      exact hrow

theorem exists_expr_iff :
    (∃ e, t.expr line = .ok e) ↔ ∀ p ∈ t.parts, p ≠ .sequence [] ∧ ∀ type, p ≠ .other type := by
  rw [(reports_expr line t).iff.2, List.map_eq_nil_iff, List.filterMap_eq_nil_iff]
  exact forall₂_congr fun p _ => offence?_eq_none_iff

theorem expr_eq_error_iff {f : Failure} :
    t.expr line = .error f ↔
      ∃ cause, t.parts.findSome? offence? = some cause ∧ f = .refusal line cause := by
  have hreports := reports_expr line t
  rw [← List.head?_filterMap]
  generalize t.parts.filterMap offence? = causes at hreports
  cases causes with
  | nil =>
    obtain ⟨e, he⟩ := hreports
    simp [he]
  | cons cause causes =>
    have he : t.expr line = .error (.refusal line cause) := hreports
    simp [he, eq_comm]

/-! ## 4. What stands where -/

/-- What a token tells of the expression that it stands for, what stands in both left aside. -/
def Tells (line : Int) : Token → Expr → Prop
  | text value, e => e = .string value
  | sequence members, e => ∃ name arguments, e = .command line name arguments ∧
      (name :: arguments).length = members.length
  | prepared p, e => e = p
  | other _, _ => False

theorem exists_getElem?_of_forall₂ {α β : Type} {R : α → β → Prop} {as : List α} {bs : List β}
    (h : List.Forall₂ R as bs) {i : Nat} {a : α} (ha : as[i]? = some a) :
    ∃ b, bs[i]? = some b ∧ R a b := by
  induction h generalizing i with
  | nil => cases ha
  | @cons a' b' as bs hab _ ih =>
    cases i with
    | zero =>
      obtain rfl : a' = a := Option.some.inj ha
      exact ⟨b', rfl, hab⟩
    | succ i => exact ih ha

/-- A token in which nothing stands has one place. -/
theorem forall_places_iff_of_leaf (hleaf : ∀ i path, t.at? (i :: path) = none) :
    (∀ path p, t.at? path = some p → ∃ x, e.at? path = some x ∧ p.Tells line x) ↔ t.Tells line e := by
  constructor
  · intro h
    obtain ⟨x, hx, htells⟩ := h [] t rfl
    obtain rfl : e = x := Option.some.inj hx
    exact htells
  · intro h path p hp
    cases path with
    | nil =>
      obtain rfl : t = p := Option.some.inj hp
      exact ⟨e, rfl, h⟩
    | cons i path =>
      rw [hleaf] at hp
      cases hp

/-- **A token stands for the expression that it describes, place by place**: a text for its literal, a
    sequence for a command at the line, a prepared expression for itself. -/
theorem expr_eq_ok_iff :
    t.expr line = .ok e ↔
      ∀ path p, t.at? path = some p → ∃ x, e.at? path = some x ∧ p.Tells line x := by
  induction t generalizing e with
  | text value | prepared x =>
    rw [forall_places_iff_of_leaf fun _ _ => rfl]
    exact ⟨fun h => (Except.ok.inj h).symm, fun h => congrArg Except.ok h.symm⟩
  | other type =>
    rw [forall_places_iff_of_leaf fun _ _ => rfl]
    exact ⟨fun h => (by cases h), False.elim⟩
  | sequence members ih =>
    rw [expr_sequence_eq_ok_iff]
    constructor
    · intro h path p hp
      obtain ⟨name, arguments, rfl, hes⟩ := h
      cases path with
      | nil =>
        obtain rfl : sequence members = p := Option.some.inj hp
        exact ⟨_, rfl, name, arguments, rfl, hes.length_eq.symm⟩
      | cons i path =>
        obtain ⟨m, hm, hp⟩ := Option.bind_eq_some_iff.mp hp
        obtain ⟨y, hy, hmy⟩ := exists_getElem?_of_forall₂ hes hm
        obtain ⟨x, hx, htells⟩ := (ih m (List.mem_of_getElem? hm)).mp hmy path p hp
        exact ⟨x, Option.bind_eq_some_iff.mpr ⟨y, hy, hx⟩, htells⟩
    · intro h
      obtain ⟨x, hx, name, arguments, rfl, hlength⟩ := h [] _ rfl
      obtain rfl : e = .command line name arguments := Option.some.inj hx
      refine ⟨name, arguments, rfl, List.forall₂_iff_get.mpr ⟨hlength.symm, fun i hi hi' => ?_⟩⟩
      -- The places of a member are those of the sequence that start at its position.
      refine (ih _ (List.get_mem _ _)).mpr fun path p hp => ?_
      obtain ⟨x, hx, htells⟩ := h (i :: path) p
        (Option.bind_eq_some_iff.mpr ⟨_, List.getElem?_eq_getElem hi, hp⟩)
      obtain ⟨y, hy, hx⟩ := Option.bind_eq_some_iff.mp hx
      rw [List.getElem?_eq_getElem hi'] at hy
      obtain rfl := Option.some.inj hy
      exact ⟨x, hx, htells⟩

/-! ## 5. Reading back -/

/-- Whether a token is a text or a sequence that is not empty. -/
def isPlain : Token → Bool
  | text _ => true
  | sequence (_ :: _) => true
  | _ => false

/-- **A token of texts and sequences** of which none is empty. -/
def Plain (t : Token) : Prop := ∀ p ∈ t.parts, p.isPlain = true

instance (t : Token) : Decidable t.Plain := inferInstanceAs (Decidable (∀ p ∈ t.parts, _))

theorem Plain.exists_expr (ht : t.Plain) (line : Int) : ∃ e, t.expr line = .ok e := by
  refine exists_expr_iff.mpr fun p hp => ?_
  have hplain := ht p hp
  constructor
  · rintro rfl
    cases hplain
  · rintro type rfl
    cases hplain

theorem plain_sequence_iff {members : List Token} :
    (sequence members).Plain ↔ members ≠ [] ∧ ∀ m ∈ members, m.Plain := by
  rw [Plain, parts_sequence, List.forall_mem_cons, List.forall_mem_flatMap]
  refine and_congr ?_ Iff.rfl
  cases members <;> simp [isPlain]

end Token

namespace Expr

mutual

/-- The token that can be read back out of an expression. -/
def toToken : Expr → Token
  | string value => .text value
  | command _ name arguments => .sequence (toToken name :: toTokens arguments)
  | e => .prepared e

/-- The tokens of some expressions. -/
def toTokens : List Expr → List Token
  | [] => []
  | e :: es => toToken e :: toTokens es

end

theorem toToken_command (line : Int) (name : Expr) (arguments : List Expr) :
    toToken (.command line name arguments) = .sequence ((name :: arguments).map toToken) := by
  have htokens (es : List Expr) : toTokens es = es.map toToken := by
    induction es with
    | nil => rfl
    | cons e es ih => rw [toTokens, ih, List.map_cons]
  rw [toToken, htokens, List.map_cons]

/-- **A token is read back out of its expression**, all commands of which are at the line. -/
theorem toToken_of_expr {t : Token} (ht : t.Plain) {line : Int} {e : Expr}
    (h : t.expr line = .ok e) : e.toToken = t ∧ e.IsToken line := by
  induction t generalizing e with
  | text value =>
    obtain rfl := Except.ok.inj h
    exact ⟨rfl, .string value⟩
  | prepared x => exact absurd (ht _ List.mem_cons_self) Bool.false_ne_true
  | other type => cases h
  | sequence members ih =>
    obtain ⟨name, arguments, rfl, hes⟩ := Token.expr_sequence_eq_ok_iff.mp h
    obtain ⟨-, hmembers⟩ := Token.plain_sequence_iff.mp ht
    have hall : List.Forall₂ (fun x m => x.IsToken line ∧ x.toToken = m) (name :: arguments) members :=
      (forall₂_imp_mem hes fun m hm x _ hmx => (ih m hm (hmembers m hm) hmx).symm).flip
    obtain ⟨htokens, hback⟩ := (List.forall₂_and_left _ _).mp hall
    rw [← List.forall₂_map_left_iff, List.forall₂_eq_eq_eq] at hback
    rw [toToken_command, hback]
    exact ⟨rfl, .command (htokens name List.mem_cons_self) fun a ha =>
      htokens a (List.mem_cons_of_mem name ha)⟩

/-- **A tree of literals and commands at a line is what its token stands for.** -/
theorem IsToken.expr_toToken {line : Int} {e : Expr} (he : e.IsToken line) :
    e.toToken.Plain ∧ e.toToken.expr line = .ok e := by
  induction he with
  | string value => exact ⟨List.forall_mem_singleton.mpr rfl, rfl⟩
  | @command name arguments _ _ hname harguments =>
    have hall : ∀ x ∈ name :: arguments, x.toToken.Plain ∧ x.toToken.expr line = .ok x := by
      intro x hx
      rcases List.mem_cons.mp hx with rfl | hx
      · exact hname
      · exact harguments x hx
    rw [toToken_command]
    constructor
    · refine Token.plain_sequence_iff.mpr ⟨by simp, fun m hm => ?_⟩
      obtain ⟨x, hx, rfl⟩ := List.mem_map.mp hm
      exact (hall x hx).1
    · rw [Token.expr_sequence, mapM_map_eq_ok fun x hx => (hall x hx).2]
      rfl

end Expr

/-! ## 6. Classification -/

/-- **Tokens are classified one to one.** A token stands for an expression exactly if no sequence in it is
    empty and every value in it is a token; the expression is what the token describes, place by place.
    Else the first thing that is wrong, depth first from left to right, is refused at the line. A token of
    texts and sequences is read back out of its expression, whose commands are all at the line, and each
    tree of literals and commands at the line is the expression of exactly one such token. -/
theorem Token.classification (line : Int) :
    (∀ t : Token,
      ((∃ e, t.expr line = .ok e) ↔ ∀ p ∈ t.parts, p ≠ .sequence [] ∧ ∀ type, p ≠ .other type) ∧
      (∀ e, t.expr line = .ok e ↔
        ∀ path p, t.at? path = some p → ∃ x, e.at? path = some x ∧ p.Tells line x) ∧
      ∀ f, t.expr line = .error f ↔
        ∃ cause, t.parts.findSome? offence? = some cause ∧ f = .refusal line cause) ∧
    (∀ t : Token, t.Plain → ∃ e, t.expr line = .ok e ∧ e.toToken = t ∧ e.IsToken line) ∧
    ∀ e : Expr, e.IsToken line → ∃! t : Token, t.Plain ∧ t.expr line = .ok e := by
  refine ⟨fun t => ⟨exists_expr_iff, fun e => expr_eq_ok_iff, fun f => expr_eq_error_iff⟩,
    fun t ht => ?_, fun e he => ?_⟩
  · obtain ⟨e, he⟩ := ht.exists_expr line
    exact ⟨e, he, Expr.toToken_of_expr ht he⟩
  · refine ⟨e.toToken, he.expr_toToken, fun t ht => ?_⟩
    exact (Expr.toToken_of_expr ht.1 ht.2).1.symm

/-- A command in a command, a prepared one with a line of its own, and an empty one in front of a number. -/
theorem Token.classification_nested :
    let get : Token := .sequence [.text "get", .text "x"]
    let plain : Token := .sequence [.text "say", get]
    let mixed : Token := .sequence [.text "say", .prepared (.command 9 (.string "get") [])]
    let wrong : Token := .sequence [get, .sequence [.sequence [], .text "y"], .other "int"]
    let e : Expr := .command 4 (.string "say") [.command 4 (.string "get") [.string "x"]]
    (plain.Plain ∧ ∃ e, plain.expr 4 = .ok e ∧ e.toToken = plain ∧ e.IsToken 4) ∧
      (e.IsToken 4 ∧ ∃! t : Token, t.Plain ∧ t.expr 4 = .ok e) ∧
      (∃ e, mixed.expr 4 = .ok e ∧ e.at? [1] = some (.command 9 (.string "get") [])) ∧
      wrong.expr 4 = .error (.refusal 4 .emptyCommand) := by
  intro get plain mixed wrong e
  obtain ⟨hall, hplain, hunique⟩ := Token.classification 4
  have hget : Expr.IsToken 4 (.command 4 (.string "get") [.string "x"]) :=
    .command (.string _) (List.forall_mem_singleton.mpr (.string _))
  have he : e.IsToken 4 := .command (.string _) (List.forall_mem_singleton.mpr hget)
  have hdecide : plain.Plain := by decide +kernel
  refine ⟨⟨hdecide, hplain plain hdecide⟩, ⟨he, hunique e he⟩, ?_, ((hall wrong).2.2 _).mpr ⟨_, rfl, rfl⟩⟩
  refine ⟨.command 4 (.string "say") [.command 9 (.string "get") []], rfl, ?_⟩
  obtain ⟨x, hx, htells⟩ := ((hall mixed).2.1 _).mp rfl [1] (.prepared (.command 9 (.string "get") [])) rfl
  rw [hx, htells]

end TemplateTree
