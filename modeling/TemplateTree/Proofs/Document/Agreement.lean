import Mathlib.Data.List.Forall2
import TemplateTree.Document.Build

/-!
# Views that agree

One tree can be described in several ways: the entries of a mapping may come in any order, a part may
be shared by several places, and the text of a number may stand for the number. An `Agreement` of two
views says which of their parts stand for each other, and that what is seen there differs in nothing
that a tree is built from. Then each rule of the building does the same on both sides, and so the
trees are the same (`Agreement.tree_eq`), the refusals included.

The two sides may have different amounts of fuel, if each is more than the rank of what is built.
-/

namespace TemplateTree

/-! ## 1. Rows of steps -/

section

variable {m : Type → Type} [Monad m] [LawfulMonad m] {α β γ : Type}

theorem mapM_eq_of_forall₂ {f : α → m γ} {g : β → m γ} {as : List α} {bs : List β}
    (h : List.Forall₂ (fun a b => f a = g b) as bs) : as.mapM f = bs.mapM g := by
  induction h with
  | nil => rfl
  | cons hab _ ih => rw [List.mapM_cons, List.mapM_cons, hab, ih]

omit [LawfulMonad m] in
theorem forM_eq_of_forall₂ {f : α → m PUnit} {g : β → m PUnit} {as : List α} {bs : List β}
    (h : List.Forall₂ (fun a b => f a = g b) as bs) : as.forM f = bs.forM g := by
  induction h with
  | nil => rfl
  | @cons a b as bs hab _ ih =>
    show (f a >>= fun _ => as.forM f) = (g b >>= fun _ => bs.forM g)
    rw [hab, ih]

end

theorem rel_imp {α β : Type} {r r' : α → β → Prop} (himp : ∀ a b, r a b → r' a b) {a? : Option α}
    {b? : Option β} (h : Option.Rel r a? b?) : Option.Rel r' a? b? := by
  cases h with
  | none => exact .none
  | some hab => exact .some (himp _ _ hab)

/-- Steps that may give nothing, taken in another order, give the same in another order. -/
theorem rel_mapM_of_perm {α β : Type} {f : α → Option β} {as bs : List α} (h : as.Perm bs) :
    Option.Rel List.Perm (as.mapM f) (bs.mapM f) := by
  induction h with
  | nil => exact .some .nil
  | @cons a as bs _ ih =>
    rw [List.mapM_cons, List.mapM_cons]
    generalize as.mapM f = xs at ih
    generalize bs.mapM f = ys at ih
    cases f a with
    | none => exact .none
    | some x =>
      cases ih with
      | none => exact .none
      | some hperm => exact .some (hperm.cons x)
  | swap a b as =>
    simp only [List.mapM_cons]
    cases f a <;> cases f b <;> cases as.mapM f
    all_goals first | exact .none | exact .some (.swap ..)
  | @trans as bs cs _ _ ih ih' =>
    generalize as.mapM f = xs at ih
    generalize bs.mapM f = ys at ih ih'
    generalize cs.mapM f = zs at ih'
    cases ih with
    | none => exact ih'
    | some hperm =>
      cases ih' with
      | some hperm' => exact .some (hperm.trans hperm')

/-! ## 2. Keys in any order -/

theorem CodePoint.val_injective : Function.Injective CodePoint.val := by
  intro a b h
  cases a with
  | scalar c =>
    cases b with
    | scalar d => exact congrArg scalar (Char.toNat_inj.mp h)
    | surrogate n =>
      have hvalid := c.valid
      simp only [val, Char.toNat] at h
      simp only [UInt32.isValidChar, Nat.isValidChar] at hvalid
      omega
  | surrogate m =>
    cases b with
    | scalar d =>
      have hvalid := d.valid
      simp only [val, Char.toNat] at h
      simp only [UInt32.isValidChar, Nat.isValidChar] at hvalid
      omega
    | surrogate n =>
      simp only [val] at h
      exact congrArg surrogate (Fin.ext (by omega))

namespace Text

theorem le_cons_iff {a b : CodePoint} {s t : Text} :
    le (a :: s) (b :: t) = true ↔ a.val < b.val ∨ a = b ∧ le s t = true := by
  simp [le]

theorem le_transitive {s t u : Text} (h : le s t = true) (h' : le t u = true) : le s u = true := by
  induction s generalizing t u with
  | nil => rfl
  | cons a s ih =>
    cases t with
    | nil => cases h
    | cons b t =>
      cases u with
      | nil => cases h'
      | cons c u =>
        rw [le_cons_iff] at h h' ⊢
        rcases h with h | ⟨rfl, h⟩
        · rcases h' with h' | ⟨rfl, -⟩
          · exact .inl (Nat.lt_trans h h')
          · exact .inl h
        · rcases h' with h' | ⟨rfl, h'⟩
          · exact .inl h'
          · exact .inr ⟨rfl, ih h h'⟩

theorem le_connected (s t : Text) : (le s t || le t s) = true := by
  rw [Bool.or_eq_true]
  induction s generalizing t with
  | nil => exact .inl rfl
  | cons a s ih =>
    cases t with
    | nil => exact .inr rfl
    | cons b t =>
      rw [le_cons_iff, le_cons_iff]
      rcases Nat.lt_trichotomy a.val b.val with h | h | h
      · exact .inl (.inl h)
      · obtain rfl := CodePoint.val_injective h
        exact (ih t).imp (fun h => .inr ⟨rfl, h⟩) fun h => .inr ⟨rfl, h⟩
      · exact .inr (.inl h)

theorem le_antisymmetric {s t : Text} (h : le s t = true) (h' : le t s = true) : s = t := by
  induction s generalizing t with
  | nil =>
    cases t with
    | nil => rfl
    | cons b t => cases h'
  | cons a s ih =>
    cases t with
    | nil => cases h
    | cons b t =>
      rw [le_cons_iff] at h h'
      rcases h with h | ⟨rfl, h⟩
      · rcases h' with h' | ⟨rfl, -⟩
        · exact absurd h' (Nat.lt_asymm h)
        · exact absurd h (Nat.lt_irrefl _)
      · rcases h' with h' | ⟨-, h'⟩
        · exact absurd h' (Nat.lt_irrefl _)
        · rw [ih h h']

/-- Texts are sorted into one order, in whatever order they come. -/
theorem mergeSort_eq_of_perm {ts us : List Text} (h : ts.Perm us) :
    ts.mergeSort le = us.mergeSort le := by
  have hsorted (ts : List Text) : (ts.mergeSort le).Pairwise fun s t => le s t = true :=
    @List.pairwise_mergeSort _ le (fun _ _ _ => le_transitive) le_connected ts
  refine List.Perm.eq_of_pairwise (fun s t _ _ => le_antisymmetric) (hsorted ts) (hsorted us) ?_
  exact ((List.mergeSort_perm ts le).trans h).trans (List.mergeSort_perm us le).symm

end Text

/-- The check of the keys does not depend on their order. -/
theorem Entries.checkKeys_eq_of_perm {α β : Type} {entries : Entries α} {entries' : Entries β}
    (h : (entries.map Prod.fst).Perm (entries'.map Prod.fst)) (kind : Text) (allowed : List Text)
    (line : Int) : entries.checkKeys kind allowed line = entries'.checkKeys kind allowed line := by
  have hunknown := h.filter fun k => !isAmong allowed k
  have hplain := rel_mapM_of_perm (f := Scalar.plain) hunknown
  rw [checkKeys, checkKeys]
  generalize (entries.map Prod.fst).filter _ = unknown at hunknown hplain
  generalize (entries'.map Prod.fst).filter _ = unknown' at hunknown hplain
  cases unknown with
  | nil => rw [hunknown.nil_eq]
  | cons k ks =>
    cases unknown' with
    | nil => exact absurd hunknown.symm.nil_eq (by simp)
    | cons k' ks' =>
      dsimp only
      generalize List.mapM Scalar.plain (k :: ks) = plain at hplain
      generalize List.mapM Scalar.plain (k' :: ks') = plain' at hplain
      cases hplain with
      | none => rfl
      | some hperm =>
        dsimp only
        rw [Text.mergeSort_eq_of_perm hperm]

/-- What lies under a key of entries that are related one by one is related. -/
theorem Entries.rel_find? {α β : Type} {R : Scalar → α → β → Prop} {entries : Entries α}
    {entries' : Entries β}
    (h : List.Forall₂ (fun e e' => e.1 = e'.1 ∧ R e.1 e.2 e'.2) entries entries') (key : Text) :
    Option.Rel (R (.text key)) (entries.find? key) (entries'.find? key) := by
  induction h with
  | nil => exact .none
  | @cons e e' entries entries' he _ ih =>
    obtain ⟨k, a⟩ := e
    obtain ⟨k', b⟩ := e'
    obtain ⟨rfl, hab⟩ : k = k' ∧ R k a b := he
    rw [find?, find?]
    by_cases hkey : k = .text key
    · subst hkey
      rw [if_pos rfl, if_pos rfl]
      exact .some hab
    · rw [if_neg hkey, if_neg hkey]
      exact ih

/-! ## 3. Scalars as tokens -/

/-- The text that a scalar counts as in the place of a token. A number counts as its own, unless it is
    taken as it is. -/
def Scalar.tokenText? : (raw : Bool) → Scalar → Option Text
  | _, .text t => some t
  | false, .int n => Decimal.ofInt? n
  | false, .float d => some (Shortest.text d)
  | _, _ => none

theorem Scalar.numberText?_ne {raw : Bool} {s : Scalar} {t : Text} (h : s.tokenText? raw = some t) :
    s.numberText? ≠ some none := by
  cases s with
  | int n =>
    cases raw with
    | false =>
      rw [tokenText?] at h
      simp [numberText?, h]
    | true => cases h
  | _ => simp [numberText?]

theorem Scalar.ne_null_of_tokenText? {raw : Bool} {s : Scalar} {t : Text}
    (h : s.tokenText? raw = some t) : s ≠ .null := by
  intro hnull
  subst hnull
  cases raw <;> cases h

namespace View

variable {α : Type} {view : View α} {raw : Bool} {a : α} {s : Scalar}

theorem token_of_text {t : Text} (ha : view.level a = .scalar s) (h : s.tokenText? raw = some t) :
    view.token (raw, a) = .text t := by
  cases s with
  | text value =>
    obtain rfl : value = t := by cases raw <;> exact Option.some.inj h
    simp only [token, ha]
  | int n =>
    cases raw with
    | false =>
      rw [Scalar.tokenText?] at h
      simp only [token, ha, Scalar.numberText?, h]
    | true => cases h
  | float d =>
    cases raw with
    | false =>
      obtain rfl : Shortest.text d = t := Option.some.inj h
      simp only [token, ha, Scalar.numberText?]
    | true => cases h
  | _ => cases raw <;> cases h

theorem token_of_other (ha : view.level a = .scalar s) (h : s.tokenText? raw = none) :
    view.token (raw, a) = .other s.typeName := by
  cases s with
  | text value => cases raw <;> cases h
  | int n =>
    cases raw with
    | false =>
      rw [Scalar.tokenText?] at h
      simp only [token, ha, Scalar.numberText?, h]
    | true => simp only [token, ha]
  | float d =>
    cases raw with
    | false => cases h
    | true => simp only [token, ha]
  | _ => cases raw <;> simp only [token, ha, Scalar.numberText?]

/-- A scalar is taken for a text exactly if it counts as that text. -/
theorem countsAs_text_iff (raw : Bool) (s : Scalar) (t : Text) :
    countsAs raw s (.text t) = true ↔ s.tokenText? raw = some t := by
  cases s with
  | text value => cases raw <;> simp [countsAs, Scalar.numberText?, Scalar.sameKey, Scalar.tokenText?]
  | int n =>
    cases raw with
    | false =>
      rw [Scalar.tokenText?]
      cases h : Decimal.ofInt? n <;>
        simp [countsAs, Scalar.sameKey, Scalar.numberText?, h, @eq_comm Text t]
    | true => simp [countsAs, Scalar.sameKey, Scalar.tokenText?]
  | float d =>
    cases raw with
    | false => simp [countsAs, Scalar.tokenText?, Scalar.numberText?, @eq_comm Text t]
    | true => simp [countsAs, Scalar.sameKey, Scalar.tokenText?]
  | _ => cases raw <;> simp [countsAs, Scalar.sameKey, Scalar.tokenText?, Scalar.numberText?]

end View

namespace Document

variable {α : Type} {view : View α} {outer : Int} {entries : Entries α} {v : α}

theorem lineInside_of_int {n : Int} (hv : entries.find? "line" = some v)
    (hn : view.level v = .scalar (.int n)) : lineInside view outer entries = .ok n := by
  simp only [lineInside, hv, hn]

/-- A line that is no integer is refused with what it is shown as. -/
theorem lineInside_of_other (hv : entries.find? "line" = some v)
    (hn : ∀ n, view.level v ≠ .scalar (.int n)) :
    lineInside view outer entries = .error ((view.display v).elim .overlongInteger
      fun shown => .refusal outer (.lineNotInteger shown)) := by
  rw [lineInside, hv]
  dsimp only
  generalize view.display v = shown
  split
  · exact absurd ‹_› (hn _)
  · cases shown <;> rfl

/-- A scalar that counts as a text describes the literal of that text. -/
theorem node_of_text {marker : Value} {depth : Nat} {s : Scalar} {t : Text}
    (hv : view.level v = .scalar s) (h : s.tokenText? false = some t) :
    node view marker (depth + 1) outer v = .ok (.string t) := by
  cases s with
  | text value =>
    obtain rfl : value = t := Option.some.inj h
    simp only [node, hv]
  | int n =>
    rw [Scalar.tokenText?] at h
    simp only [node, hv, Scalar.numberText?, h]
  | float d =>
    obtain rfl : Shortest.text d = t := Option.some.inj h
    simp only [node, hv, Scalar.numberText?]
  | _ => cases h

end Document

/-! ## 4. Agreements -/

/-- A scalar in the place of another one: the same, or one that counts as the same text. -/
inductive Scalar.Agrees (raw : Bool) : Scalar → Scalar → Prop
  | same (s : Scalar) : Agrees raw s s
  | text {s s' : Scalar} {t : Text} (h : s.tokenText? raw = some t) (h' : s'.tokenText? raw = some t) :
      Agrees raw s s'

/-- What is seen at a part in the place of what is seen at another one, for parts that stand for each
    other by `agree`, and by `line` under the key `line`. The members of a tuple are taken as they
    are. -/
inductive Level.Agrees {α β : Type} (agree : Bool → α → β → Prop) (line : α → β → Prop) (raw : Bool) :
    Level α → Level β → Prop
  | scalar {s t : Scalar} (h : s.Agrees raw t) : Agrees agree line raw (.scalar s) (.scalar t)
  | list {items : List α} {items' : List β} (h : List.Forall₂ (agree raw) items items') :
      Agrees agree line raw (.list items) (.list items')
  | tuple {members : List α} {members' : List β} (h : List.Forall₂ (agree true) members members') :
      Agrees agree line raw (.tuple members) (.tuple members')
  | mapping {entries : Entries α} {entries' : Entries β}
      (hkeys : (entries.map Prod.fst).Perm (entries'.map Prod.fst))
      (hline : Option.Rel line (entries.find? "line") (entries'.find? "line"))
      (hfind : ∀ key : Text, key ≠ Text.ofString "line" →
        Option.Rel (agree false) (entries.find? key) (entries'.find? key)) :
      Agrees agree line raw (.mapping entries) (.mapping entries')
  | set (members members' : List Scalar) : Agrees agree line raw (.set members) (.set members')

/-- A way in which parts of two views stand for each other. -/
structure Agreement {α β : Type} (view : View α) (view' : View β) where
  /-- Two parts stand for each other; the truth value says whether they are taken as they are. -/
  Agree : (raw : Bool) → α → β → Prop
  /-- Two parts stand for each other under the key `line`, where they are shown if they are none. -/
  Line : α → β → Prop
  /-- A bound on the levels below a part. -/
  rank : β → Nat
  level : ∀ {raw a b}, Agree raw a b →
    (view.level a).Agrees (fun raw c d => rank d < rank b ∧ Agree raw c d) Line raw (view'.level b)
  line : ∀ {a b}, Line a b → view.display a = view'.display b ∧
    ∀ n, view.level a = .scalar (.int n) ↔ view'.level b = .scalar (.int n)
  reach : ∀ {raw a b}, Agree raw a b → rank b ≤ view.reach ∧ rank b ≤ view'.reach

theorem Level.Agrees.imp {α β : Type} {agree agree' : Bool → α → β → Prop} {line : α → β → Prop}
    {raw : Bool} {level : Level α} {level' : Level β}
    (himp : ∀ raw a b, agree raw a b → agree' raw a b) (h : level.Agrees agree line raw level') :
    level.Agrees agree' line raw level' := by
  cases h with
  | scalar hscalar => exact .scalar hscalar
  | list hitems => exact .list (hitems.imp (himp raw))
  | tuple hmembers => exact .tuple (hmembers.imp (himp true))
  | mapping hkeys hline hfind =>
    exact .mapping hkeys hline fun key hkey => rel_imp (himp false) (hfind key hkey)
  | set => exact .set ..

/-- Mappings name the same kinds, if they have the same parts. -/
theorem Entries.kinds_eq_of_rel {α β : Type} {agree : α → β → Prop} {entries : Entries α}
    {entries' : Entries β}
    (h : ∀ kind : NodeKind, Option.Rel agree (entries.find? kind.key) (entries'.find? kind.key)) :
    entries.kinds = entries'.kinds := by
  have hhas (kind : NodeKind) : entries.has kind.key = entries'.has kind.key := by
    have hkind := h kind
    rw [has, has]
    generalize entries.find? kind.key = part at hkind
    generalize entries'.find? kind.key = part' at hkind
    cases hkind <;> rfl
  rw [kinds, kinds, funext hhas]

theorem NodeKind.key_ne_line (kind : NodeKind) : kind.key ≠ Text.ofString "line" := by
  cases kind <;> decide

namespace Agreement

variable {α β : Type} {view : View α} {view' : View β} (A : Agreement view view') {raw : Bool} {a : α}
  {b : β}

/-- **Induction over what agrees**, for two amounts of fuel of which each is more than the rank: both
    are spent together. -/
theorem induction {P : Nat → Nat → Bool → α → β → Prop}
    (step : ∀ {m n raw a b}, A.Agree raw a b →
      (view.level a).Agrees (fun raw c d => A.Agree raw c d ∧ P m n raw c d) A.Line raw
        (view'.level b) →
      P (m + 1) (n + 1) raw a b)
    (h : A.Agree raw a b) {m n : Nat} (hm : A.rank b < m) (hn : A.rank b < n) :
    P m n raw a b := by
  induction m generalizing n raw a b with
  | zero => exact absurd hm (Nat.not_lt_zero _)
  | succ m ih =>
    obtain ⟨n, rfl⟩ := Nat.exists_eq_add_one.mpr (Nat.lt_of_le_of_lt (Nat.zero_le _) hn)
    refine step h ((A.level h).imp fun raw c d hcd => ?_)
    obtain ⟨hrank, hagree⟩ := hcd
    exact ⟨hagree, ih hagree (by omega) (by omega)⟩

/-! ## 5. Numbers and tokens -/

theorem checkNumbers_eq (h : A.Agree raw a b) {m n : Nat} (hm : A.rank b < m) (hn : A.rank b < n) :
    view.checkNumbers m a = view'.checkNumbers n b := by
  refine A.induction (P := fun m n _ a b => view.checkNumbers m a = view'.checkNumbers n b) ?_ h hm hn
  intro m n raw a b _ hlevel
  rw [View.checkNumbers, View.checkNumbers]
  generalize view.level a = level at hlevel
  generalize view'.level b = level' at hlevel
  cases hlevel with
  | scalar hscalar =>
    cases hscalar with
    | same => rfl
    | text htext htext' =>
      dsimp only
      rw [if_neg (Scalar.numberText?_ne htext), if_neg (Scalar.numberText?_ne htext')]
  | list hitems => exact forM_eq_of_forall₂ (hitems.imp fun c d hcd => hcd.2)
  | tuple | mapping | set => rfl

theorem expr_eq (h : A.Agree raw a b) (line : Int) {m n : Nat} (hm : A.rank b < m)
    (hn : A.rank b < n) :
    Tokens.expr view.token m line (raw, a) = Tokens.expr view'.token n line (raw, b) := by
  refine A.induction (P := fun m n raw a b =>
    Tokens.expr view.token m line (raw, a) = Tokens.expr view'.token n line (raw, b)) ?_ h hm hn
  intro m n raw a b _ hlevel
  have hrow {raw : Bool} {items : List α} {items' : List β}
      (hitems : List.Forall₂ (fun c d => A.Agree raw c d ∧
        Tokens.expr view.token m line (raw, c) = Tokens.expr view'.token n line (raw, d)) items items') :
      (items.map ((raw, ·))).mapM (Tokens.expr view.token m line)
        = (items'.map ((raw, ·))).mapM (Tokens.expr view'.token n line) := by
    refine mapM_eq_of_forall₂ ?_
    rw [List.forall₂_map_left_iff, List.forall₂_map_right_iff]
    exact hitems.imp fun c d hcd => hcd.2
  rw [Tokens.expr, Tokens.expr]
  generalize ha : view.level a = level at hlevel
  generalize hb : view'.level b = level' at hlevel
  cases hlevel with
  | @scalar s t hscalar =>
    cases hscalar with
    | same =>
      cases htext : s.tokenText? raw with
      | some t => rw [View.token_of_text ha htext, View.token_of_text hb htext]
      | none => rw [View.token_of_other ha htext, View.token_of_other hb htext]
    | text htext htext' => rw [View.token_of_text ha htext, View.token_of_text hb htext']
  | list hitems =>
    simp only [View.token, ha, hb]
    rw [hrow hitems]
  | tuple hmembers =>
    simp only [View.token, ha, hb]
    rw [hrow hmembers]
  | mapping | set => simp only [View.token, ha, hb, Level.typeName]

/-- The marker of negations, which is a text, is seen on both sides. -/
theorem isEqual_eq (h : A.Agree raw a b) (marker : Text) :
    view.isEqual raw a (.ofText marker) = view'.isEqual raw b (.ofText marker) := by
  have hlevel := A.level h
  rw [Value.ofText, View.isEqual, View.isEqual]
  generalize view.level a = level at hlevel
  generalize view'.level b = level' at hlevel
  cases hlevel with
  | scalar hscalar =>
    cases hscalar with
    | same => rfl
    | text htext htext' =>
      dsimp only
      rw [Bool.eq_iff_iff, View.countsAs_text_iff, View.countsAs_text_iff, htext, htext']
  | list | tuple | mapping | set => rfl

section

variable {items : List α} {items' : List β} (h : List.Forall₂ (A.Agree false) items items')

include h

theorem mapM_expr_eq (line : Int) :
    (items.map ((false, ·))).mapM (Tokens.expr view.token view.tokenDepth line)
      = (items'.map ((false, ·))).mapM (Tokens.expr view'.token view'.tokenDepth line) := by
  refine mapM_eq_of_forall₂ ?_
  rw [List.forall₂_map_left_iff, List.forall₂_map_right_iff]
  refine h.imp fun c d hcd => ?_
  obtain ⟨hreach, hreach'⟩ := A.reach hcd
  exact A.expr_eq hcd line (by rw [View.tokenDepth]; omega) (by rw [View.tokenDepth]; omega)

/-- What is done with the tokens of lists that agree is the same, if it is the same for the tokens. -/
theorem tokens_bind_eq {f : List (Bool × α) → Except Failure Expr}
    {g : List (Bool × β) → Except Failure Expr}
    (hfg : f (items.map ((false, ·))) = g (items'.map ((false, ·)))) :
    (view.tokens items >>= f) = (view'.tokens items' >>= g) := by
  have hnumbers : items.forM (view.checkNumbers (view.reach + 1))
      = items'.forM (view'.checkNumbers (view'.reach + 1)) := by
    refine forM_eq_of_forall₂ (h.imp fun c d hcd => ?_)
    obtain ⟨hreach, hreach'⟩ := A.reach hcd
    exact A.checkNumbers_eq hcd (by omega) (by omega)
  rw [View.tokens, View.tokens, hnumbers]
  cases items'.forM (view'.checkNumbers (view'.reach + 1)) with
  | error e => rfl
  | ok _ => exact hfg

theorem command_eq (line : Int) : view.command line items = view'.command line items' := by
  refine A.tokens_bind_eq h ?_
  rw [Tokens.command, Tokens.command, A.mapM_expr_eq h line]

theorem tokensCondition_eq (marker : Text) (line : Int) :
    Tokens.condition view.token view.tokenDepth
        (fun t => view.isEqual t.1 t.2 (.ofText marker)) line (items.map ((false, ·)))
      = Tokens.condition view'.token view'.tokenDepth
        (fun t => view'.isEqual t.1 t.2 (.ofText marker)) line (items'.map ((false, ·))) := by
  cases h with
  | nil => rfl
  | @cons c d items items' hcd hrest =>
    have hall := A.mapM_expr_eq (.cons hcd hrest) line
    have hrow := A.mapM_expr_eq hrest line
    rw [List.map_cons, List.map_cons] at hall ⊢
    rw [Tokens.condition, Tokens.condition, A.isEqual_eq hcd marker, hrow, hall]

end

/-! ## 6. Nodes -/

theorem lineInside_eq {entries : Entries α} {entries' : Entries β}
    (h : Option.Rel A.Line (entries.find? "line") (entries'.find? "line")) (outer : Int) :
    Document.lineInside view outer entries = Document.lineInside view' outer entries' := by
  generalize hpart : entries.find? "line" = part at h
  generalize hpart' : entries'.find? "line" = part' at h
  cases h with
  | none => rw [Document.lineInside, Document.lineInside, hpart, hpart']
  | @some a b hab =>
    obtain ⟨hdisplay, hint⟩ := A.line hab
    by_cases hn : ∃ n, view.level a = .scalar (.int n)
    · obtain ⟨n, hn⟩ := hn
      rw [Document.lineInside_of_int hpart hn, Document.lineInside_of_int hpart' ((hint n).mp hn)]
    · rw [Document.lineInside_of_other hpart fun n ha => hn ⟨n, ha⟩,
        Document.lineInside_of_other hpart' fun n hb => hn ⟨n, (hint n).mpr hb⟩, hdisplay]

section

variable {part : Option α} {part' : Option β} (h : Option.Rel (A.Agree false) part part')

include h

theorem rel_given :
    Option.Rel (A.Agree false) (Document.given view part) (Document.given view' part') := by
  cases h with
  | none => exact .none
  | @some a b hab =>
    have hlevel := A.level hab
    rw [Document.given, Document.given]
    generalize view.level a = level at hlevel
    generalize view'.level b = level' at hlevel
    cases hlevel with
    | @scalar s t hscalar =>
      cases hscalar with
      | same =>
        cases s with
        | null => exact .none
        | _ => exact .some hab
      | text htext htext' =>
        have hs := Scalar.ne_null_of_tokenText? htext
        have ht := Scalar.ne_null_of_tokenText? htext'
        cases s <;> cases t
        all_goals first | exact .some hab | exact absurd rfl hs | exact absurd rfl ht
    | list | tuple | mapping | set => exact .some hab

/-- What is done with the items of lists that agree is the same, if it is the same for the items. -/
theorem listItems_bind_eq (line : Int) (cause : Cause) {γ : Type} {f : List α → Except Failure γ}
    {g : List β → Except Failure γ}
    (hfg : ∀ items items', List.Forall₂ (A.Agree false) items items' → f items = g items') :
    (Document.listItems view line cause part >>= f)
      = (Document.listItems view' line cause part' >>= g) := by
  cases h with
  | none => rfl
  | @some a b hab =>
    have hlevel := A.level hab
    rw [Document.listItems, Document.listItems]
    generalize view.level a = level at hlevel
    generalize view'.level b = level' at hlevel
    cases hlevel with
    | list hitems => exact hfg _ _ (hitems.imp fun c d hcd => hcd.2)
    | scalar | tuple | mapping | set => rfl

theorem condition_eq (marker : Text) (line : Int) :
    Document.condition view (.ofText marker) line part
      = Document.condition view' (.ofText marker) line part' := by
  have hgiven := A.rel_given h
  rw [Document.condition, Document.condition]
  generalize Document.given view part = given at hgiven
  generalize Document.given view' part' = given' at hgiven
  cases hgiven with
  | none => rfl
  | some hab =>
    refine A.listItems_bind_eq (.some hab) line .conditionNotList fun items items' hitems => ?_
    exact A.tokens_bind_eq hitems (A.tokensCondition_eq hitems marker line)

end

section

variable {marker : Text} {below : Int → α → Except Failure Expr}
  {below' : Int → β → Except Failure Expr}
  (hbelow : ∀ {a b}, A.Agree false a b → ∀ line, below line a = below' line b)

include hbelow

/-- A clause is the same, if the nodes below are. -/
theorem clause_eq (h : A.Agree false a b) (outer : Int) :
    Document.clause view (.ofText marker) below outer a
      = Document.clause view' (.ofText marker) below' outer b := by
  have hlevel := A.level h
  rw [Document.clause, Document.clause]
  generalize view.level a = level at hlevel
  generalize view'.level b = level' at hlevel
  cases hlevel with
  | scalar | list | tuple | set => rfl
  | @mapping entries entries' hkeys hline hfind =>
    have hpart (key : Text) (hkey : key ≠ Text.ofString "line") :=
      rel_imp (fun _ _ hcd => hcd.2) (hfind key hkey)
    have hthen := hpart "then" (by decide)
    have htest := A.condition_eq (hpart "when" (by decide)) marker
    dsimp only
    rw [A.lineInside_eq hline]
    generalize entries.find? "then" = branch at hthen
    generalize entries'.find? "then" = branch' at hthen
    cases hthen with
    | none => rfl
    | some hbranch =>
      simp only [Entries.checkKeys_eq_of_perm hkeys, htest, hbelow hbranch]

/-- The tree of a mapping of a kind is the same, if the nodes below are. -/
theorem ofKind_eq {entries : Entries α} {entries' : Entries β}
    (h : ∀ key : Text, key ≠ Text.ofString "line" →
      Option.Rel (A.Agree false) (entries.find? key) (entries'.find? key))
    (line : Int) (kind : NodeKind) :
    Document.ofKind view (.ofText marker) below line kind entries
      = Document.ofKind view' (.ofText marker) below' line kind entries' := by
  cases kind with
  | command =>
    exact A.listItems_bind_eq (h "command" (by decide)) line .commandNotList
      fun items items' hitems => A.command_eq hitems line
  | block =>
    refine A.listItems_bind_eq (h "block" (by decide)) line .blockNotList
      fun items items' hitems => ?_
    rw [mapM_eq_of_forall₂ (hitems.imp fun c d hcd => hbelow hcd line)]
  | choice =>
    refine A.listItems_bind_eq (h "if" (by decide)) line .ifNotList fun items items' hitems => ?_
    rw [mapM_eq_of_forall₂ (hitems.imp fun c d hcd => A.clause_eq hbelow hcd line)]
  | forEach =>
    have hname (key : Text) (hkey : key ≠ Text.ofString "line") :
        (Document.given view (entries.find? key)).mapM (below line)
          = (Document.given view' (entries'.find? key)).mapM (below' line) := by
      have hgiven := A.rel_given (h key hkey)
      generalize Document.given view (entries.find? key) = part at hgiven
      generalize Document.given view' (entries'.find? key) = part' at hgiven
      cases hgiven with
      | none => rfl
      | some hab => rw [Option.mapM_some, Option.mapM_some, hbelow hab line]
    have hiterable := h "for" (by decide)
    have hbody := h "do" (by decide)
    rw [Document.ofKind, Document.ofKind, hname "as" (by decide), hname "index" (by decide)]
    generalize entries.find? "for" = iterable at hiterable
    generalize entries'.find? "for" = iterable' at hiterable
    generalize entries.find? "do" = body at hbody
    generalize entries'.find? "do" = body' at hbody
    cases hiterable with
    | none => rfl
    | some hiterable =>
      cases hbody with
      | none => rfl
      | some hbody => simp only [hbelow hiterable, hbelow hbody]
  | whileLoop =>
    have hbody := h "do" (by decide)
    have htest := A.condition_eq (h "while" (by decide)) marker
    rw [Document.ofKind, Document.ofKind, htest]
    generalize entries.find? "do" = body at hbody
    generalize entries'.find? "do" = body' at hbody
    cases hbody with
    | none => rfl
    | some hbody => simp only [hbelow hbody]

end

/-- What agrees and has a rank below a bound. -/
def below (bound : Nat) : Agreement view view' where
  Agree raw a b := A.Agree raw a b ∧ A.rank b < bound
  Line := A.Line
  rank := A.rank
  level h := (A.level h.1).imp fun _ _ _ hcd => ⟨hcd.1, hcd.2, Nat.lt_trans hcd.1 h.2⟩
  line := A.line
  reach h := A.reach h.1

/-- **Nodes that agree describe the same tree**, or are refused for the same cause. -/
theorem node_eq (h : A.Agree false a b) (marker : Text) {m n : Nat} (hm : A.rank b < m)
    (hn : A.rank b < n) (line : Int) :
    Document.node view (.ofText marker) m line a = Document.node view' (.ofText marker) n line b := by
  induction m generalizing n a b line with
  | zero => exact absurd hm (Nat.not_lt_zero _)
  | succ m ih =>
    obtain ⟨n, rfl⟩ := Nat.exists_eq_add_one.mpr (Nat.lt_of_le_of_lt (Nat.zero_le _) hn)
    -- A clause stands between a node and the ones below it, so the hypothesis is needed for
    -- everything of a lower rank, not only for the parts of the node.
    have hbelow : ∀ {c d}, (A.below (A.rank b)).Agree false c d → ∀ line,
        Document.node view (.ofText marker) m line c
          = Document.node view' (.ofText marker) n line d := by
      intro c d hcd line
      have hrank : A.rank d < A.rank b := hcd.2
      exact ih hcd.1 (by omega) (by omega) line
    have hlevel := A.level h
    generalize ha : view.level a = level at hlevel
    generalize hb : view'.level b = level' at hlevel
    cases hlevel with
    | @scalar s t hscalar =>
      cases hscalar with
      | same =>
        rw [Document.node, Document.node, ha, hb]
        cases s with
        | int n => simp only [Scalar.numberText?]
        | _ => rfl
      | text htext htext' => rw [Document.node_of_text ha htext, Document.node_of_text hb htext']
    | list hitems =>
      simp only [Document.node, ha, hb]
      exact A.command_eq (hitems.imp fun c d hcd => hcd.2) line
    | tuple | set => simp only [Document.node, ha, hb, Level.typeName]
    | @mapping entries entries' hkeys hline hfind =>
      have hpart (key : Text) (hkey : key ≠ Text.ofString "line") :
          Option.Rel ((A.below (A.rank b)).Agree false) (entries.find? key) (entries'.find? key) :=
        rel_imp (fun _ _ hcd => ⟨hcd.2, hcd.1⟩) (hfind key hkey)
      simp only [Document.node, ha, hb]
      rw [A.lineInside_eq hline, Entries.kinds_eq_of_rel fun kind => hpart kind.key kind.key_ne_line]
      simp only [Entries.checkKeys_eq_of_perm hkeys, (A.below _).ofKind_eq hbelow hpart]

/-- **Documents that agree describe the same tree.** -/
theorem tree_eq (h : A.Agree false a b) (marker : Text) (line : Int) :
    Document.tree view (.ofText marker) line a = Document.tree view' (.ofText marker) line b := by
  obtain ⟨hreach, hreach'⟩ := A.reach h
  exact A.node_eq h marker (by omega) (by omega) line

end Agreement

end TemplateTree
