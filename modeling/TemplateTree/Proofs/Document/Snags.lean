import Mathlib.Data.Finset.Card
import Mathlib.Logic.Relation
import TemplateTree.Document.Build
import TemplateTree.Proofs.Document.Token
import TemplateTree.Proofs.Failing
import TemplateTree.Proofs.Value.Parts
import TemplateTree.Value.Graph

/-!
# What a document cannot be built or refused for

Building a document gives a tree or a refusal, unless it comes upon an integer that is too long to be written,
or to no end. This file says that both are to be seen in the document (`View.Snag`): the integer stands at a
part that can be reached, and a way that has no end comes back to a part that it has passed.

* `View.Descends`: a way downwards of some length. Where the fuel of the building runs out, there is one of
  its length (`Document.fails_node`).
* `Graph.exists_containsItself`: a way that is longer than the number of parts passes one of them twice.
* `Graph.fails_tree`: a graph is built or refused, unless it has a snag.
-/

namespace TemplateTree

/-! ## 1. Parts below parts -/

namespace Level

variable {α : Type}

/-- The parts right below a level. -/
def below : Level α → List α
  | scalar _ => []
  | list items => items
  | tuple members => members
  | mapping entries => entries.map Prod.snd
  | set _ => []

/-- The scalars of a level: its own, the keys of a mapping, the members of a set. -/
def scalars : Level α → List Scalar
  | scalar s => [s]
  | list _ => []
  | tuple _ => []
  | mapping entries => entries.map Prod.fst
  | set members => members

end Level

namespace View

variable {α : Type} (view : View α)

/-- A part lies right below another. -/
def Below (a b : α) : Prop := b ∈ (view.level a).below

/-- A part can be reached from another downwards. -/
def Reaches (a b : α) : Prop := Relation.ReflTransGen view.Below a b

/-- A part lies below itself. -/
def ContainsItself (a : α) : Prop := Relation.TransGen view.Below a a

/-- **What keeps a document from being built or refused**: an integer that is too long to be written, or a
    part that contains itself. -/
inductive Snag (root : α) : Failure → Prop
  | integer {part : α} {n : Int} (hpart : view.Reaches root part)
      (hn : .int n ∈ (view.level part).scalars) (hlong : Decimal.fits n = false) :
      Snag root .overlongInteger
  | endless {part : α} (hpart : view.Reaches root part) (hself : view.ContainsItself part) :
      Snag root .endlessDocument

/-- There is a way downwards of a given number of steps. -/
def Descends : Nat → α → Prop
  | 0, _ => True
  | steps + 1, a => ∃ b, view.Below a b ∧ Descends steps b

/-- What a rule with some steps of fuel can fail for at a part: a refusal, an integer that is too long, or
    a way downwards that takes all of the fuel, there or, with the fuel of a whole document, further below. -/
inductive Hinders (steps : Nat) (a : α) : Failure → Prop
  | refused (e : CompileError) : Hinders steps a (.refused e)
  | integer {b : α} {s : Scalar} (hb : view.Reaches a b) (hs : s ∈ (view.level b).scalars)
      (hlong : s.isWritable = false) : Hinders steps a .overlongInteger
  | deep (h : view.Descends steps a) : Hinders steps a .endlessDocument
  | deepBelow {b : α} (hb : view.Reaches a b) (h : view.Descends (view.reach + 1) b) :
      Hinders steps a .endlessDocument

variable {view} {a b c : α} {m n : Nat} {f : Failure}

theorem Descends.mono (h : view.Descends m a) (hle : n ≤ m) : view.Descends n a := by
  induction n generalizing m a with
  | zero => trivial
  | succ n ih =>
    obtain ⟨k, rfl⟩ := Nat.exists_eq_add_one_of_ne_zero (show m ≠ 0 by omega)
    obtain ⟨b, hb, hbelow⟩ := h
    exact ⟨b, hb, ih hbelow (by omega)⟩

theorem Descends.above (hb : view.Reaches a b) (hc : view.Below b c) (h : view.Descends n c) :
    view.Descends (n + 1) a := by
  induction hb using Relation.ReflTransGen.head_induction_on with
  | refl => exact ⟨c, hc, h⟩
  | head hstep _ ih => exact ⟨_, hstep, ih.mono (Nat.le_succ n)⟩

namespace Hinders

/-- What is met at a part below with one step less is met at the part. -/
theorem above (hb : view.Reaches a b) (hc : view.Below b c) (h : view.Hinders n c f) :
    view.Hinders (n + 1) a f := by
  have hreach : view.Reaches a c := hb.tail hc
  cases h with
  | refused e => exact .refused e
  | integer hd hs hlong => exact .integer (hreach.trans hd) hs hlong
  | deep h => exact .deep (h.above hb hc)
  | deepBelow hd h => exact .deepBelow (hreach.trans hd) h

/-- What is met further below with the fuel of a whole document is met at the part. -/
theorem of_reaches (hb : view.Reaches a b) (hle : view.reach + 1 ≤ m) (h : view.Hinders m b f) :
    view.Hinders n a f := by
  cases h with
  | refused e => exact .refused e
  | integer hd hs hlong => exact .integer (hb.trans hd) hs hlong
  | deep h => exact .deepBelow hb (h.mono hle)
  | deepBelow hd h => exact .deepBelow (hb.trans hd) h

end Hinders

theorem below_of_find? {entries : Entries α} {key : Text} (ha : view.level a = .mapping entries)
    (hb : entries.find? key = some b) : view.Below a b := by
  rw [Below, ha]
  exact List.mem_map.mpr ⟨_, Entries.mem_of_find? hb, rfl⟩

/-! ## 2. Tokens -/

theorem fails_checkNumbers (n : Nat) (a : α) : Fails (view.Hinders n a) (view.checkNumbers n a) := by
  induction n generalizing a with
  | zero => exact .error (.deep trivial)
  | succ n ih =>
    rw [checkNumbers]
    cases ha : view.level a with
    | scalar s =>
      dsimp only
      split
      · rename_i hnumber
        refine .error (.integer .refl (s := s) (by rw [ha]; exact List.mem_singleton_self s) ?_)
        cases s with
        | int k =>
          rw [Scalar.numberText?, Option.some.injEq, Decimal.ofInt?] at hnumber
          split at hnumber
          · cases hnumber
          · rename_i hlong
            exact Bool.eq_false_iff.mpr hlong
        | _ => cases hnumber
      · exact .ok ()
    | list items =>
      refine Fails.forM fun c hc => (ih c).imp fun f => Hinders.above .refl ?_
      rw [Below, ha]
      exact hc
    | _ => exact .ok ()

/-- The members of a token lie below its part. -/
theorem below_of_token {raw : Bool} {members : List (Bool × α)}
    (h : view.token (raw, a) = .sequence members) {t : Bool × α} (ht : t ∈ members) :
    view.Below a t.2 := by
  rw [token] at h
  split at h
  · cases h
  · split at h <;> cases h
  · rename_i items ha
    cases h
    obtain ⟨c, hc, rfl⟩ := List.mem_map.mp ht
    rw [Below, ha]
    exact hc
  · rename_i items ha
    cases h
    obtain ⟨c, hc, rfl⟩ := List.mem_map.mp ht
    rw [Below, ha]
    exact hc
  · cases h

theorem fails_expr (n : Nat) (line : Int) (raw : Bool) (a : α) :
    Fails (view.Hinders n a) (Tokens.expr view.token n line (raw, a)) := by
  induction n generalizing raw a with
  | zero => exact .error (.deep trivial)
  | succ n ih =>
    rw [Tokens.expr]
    cases ha : view.token (raw, a) with
    | text value => exact .ok _
    | prepared e => exact .ok _
    | other type => exact .error (.refused _)
    | sequence members =>
      refine Fails.bind (Fails.mapM fun t ht => ?_) fun es _ => ?_
      · exact (ih t.1 t.2).imp fun f => Hinders.above .refl (below_of_token ha ht)
      · cases es with
        | nil => exact .error (.refused _)
        | cons name arguments => exact .ok _

theorem fails_tokens {items : List α} (hitems : ∀ c ∈ items, view.Reaches a c) :
    Fails (view.Hinders n a) (view.tokens items) := by
  refine Fails.bind (Fails.forM fun c hc => ?_) fun _ _ => .ok _
  exact (fails_checkNumbers _ c).imp fun f => Hinders.of_reaches (hitems c hc) (Nat.le_refl _)

/-- The expressions of tokens at parts that can be reached. -/
theorem fails_exprs {tokens : List (Bool × α)} (htokens : ∀ t ∈ tokens, view.Reaches a t.2)
    (line : Int) :
    Fails (view.Hinders n a) (tokens.mapM (Tokens.expr view.token view.tokenDepth line)) := by
  refine Fails.mapM fun t ht => ?_
  exact (fails_expr _ line t.1 t.2).imp fun f =>
    Hinders.of_reaches (htokens t ht) (show view.reach + 1 ≤ 2 * view.reach + 1 by omega)

theorem reaches_of_tokens {items : List α} {ts : List (Bool × α)}
    (hitems : ∀ c ∈ items, view.Reaches a c) (h : view.tokens items = .ok ts) :
    ∀ t ∈ ts, view.Reaches a t.2 := by
  intro t ht
  rw [view.eq_of_tokens h] at ht
  obtain ⟨c, hc, rfl⟩ := List.mem_map.mp ht
  exact hitems c hc

theorem fails_command {items : List α} (hitems : ∀ c ∈ items, view.Reaches a c) (line : Int) :
    Fails (view.Hinders n a) (view.command line items) := by
  refine (fails_tokens hitems).bind fun tokens htokens => ?_
  refine (fails_exprs (reaches_of_tokens hitems htokens) line).bind fun es _ => ?_
  cases es with
  | nil => exact .error (.refused _)
  | cons name arguments => exact .ok _

/-! ## 3. Lines and keys -/

/-- A row of shown forms is there unless one of them is not. -/
theorem exists_of_mapM_eq_none {β γ : Type} {f : β → Option γ} {bs : List β} (h : bs.mapM f = none) :
    ∃ b ∈ bs, f b = none := by
  induction bs with
  | nil => cases h
  | cons b bs ih =>
    cases hb : f b with
    | none => exact ⟨b, List.mem_cons_self, hb⟩
    | some c =>
      rw [List.mapM_cons, hb] at h
      cases hbs : bs.mapM f with
      | none =>
        obtain ⟨b', hb', hnone⟩ := ih hbs
        exact ⟨b', List.mem_cons_of_mem b hb', hnone⟩
      | some cs =>
        rw [hbs] at h
        cases h

theorem isWritable_of_display {s : Scalar} (h : s.display = none) : s.isWritable = false := by
  rw [Bool.eq_false_iff]
  intro hs
  obtain ⟨t, ht⟩ := Scalar.exists_display hs
  cases h.symm.trans ht

theorem isWritable_of_plain {s : Scalar} (h : s.plain = none) : s.isWritable = false := by
  rw [Bool.eq_false_iff]
  intro hs
  obtain ⟨t, ht⟩ := Scalar.exists_plain hs
  cases h.symm.trans ht

/-- A collection that is on the path has a shown form. -/
theorem not_on_path {path : List α} (h : view.displayWithin (n + 1) path a = none)
    (hscalar : ∀ s, view.level a ≠ .scalar s) (hset : ∀ members, view.level a ≠ .set members) :
    path.any (view.same a) = false := by
  rw [Bool.eq_false_iff]
  intro hpath
  cases ha : view.level a with
  | scalar s => exact hscalar s ha
  | set members => exact hset members ha
  | list items | tuple items | mapping items =>
    simp only [displayWithin, ha] at h
    rw [if_pos hpath] at h
    cases h

/-- **A part has a shown form unless an integer below it is too long.** -/
theorem exists_of_displayWithin {path : List α} (h : view.displayWithin n path a = none) :
    ∃ b s, view.Reaches a b ∧ s ∈ (view.level b).scalars ∧ s.isWritable = false := by
  induction n generalizing a path with
  | zero => cases h
  | succ n ih =>
    -- What has no shown form is the scalar itself, or something right below.
    have hbelow {c : α} (hc : view.Below a c) (hnone : view.displayWithin n (a :: path) c = none) :
        ∃ b s, view.Reaches a b ∧ s ∈ (view.level b).scalars ∧ s.isWritable = false := by
      obtain ⟨b, s, hb, hs, hlong⟩ := ih hnone
      exact ⟨b, s, .head hc hb, hs, hlong⟩
    have hhere {s : Scalar} (hs : s ∈ (view.level a).scalars) (hnone : s.display = none) :
        ∃ b s, view.Reaches a b ∧ s ∈ (view.level b).scalars ∧ s.isWritable = false :=
      ⟨a, s, .refl, hs, isWritable_of_display hnone⟩
    cases ha : view.level a with
    | scalar s =>
      rw [displayWithin_scalar ha] at h
      exact hhere (by rw [ha]; exact List.mem_singleton_self s) h
    | set members =>
      rw [displayWithin_set ha] at h
      cases members with
      | nil => cases h
      | cons first rest =>
        obtain ⟨s, hs, hnone⟩ := exists_of_mapM_eq_none (Option.map_eq_none_iff.mp h)
        exact hhere (by rw [ha]; exact Scalar.mem_of_mem_inTableOrder hs) hnone
    | list items =>
      rw [displayWithin_list (not_on_path h (by simp [ha]) (by simp [ha])) ha] at h
      obtain ⟨c, hc, hnone⟩ := exists_of_mapM_eq_none (Option.map_eq_none_iff.mp h)
      exact hbelow (by rw [Below, ha]; exact hc) hnone
    | tuple members =>
      rw [displayWithin_tuple (not_on_path h (by simp [ha]) (by simp [ha])) ha] at h
      obtain ⟨c, hc, hnone⟩ := exists_of_mapM_eq_none (Option.map_eq_none_iff.mp h)
      exact hbelow (by rw [Below, ha]; exact hc) hnone
    | mapping entries =>
      rw [displayWithin_mapping (not_on_path h (by simp [ha]) (by simp [ha])) ha] at h
      obtain ⟨e, he, hnone⟩ := exists_of_mapM_eq_none (Option.map_eq_none_iff.mp h)
      cases hkey : e.1.display with
      | none => exact hhere (by rw [ha]; exact List.mem_map.mpr ⟨e, he, rfl⟩) hkey
      | some key =>
        have hvalue : view.Below a e.2 := by
          rw [Below, ha]
          exact List.mem_map.mpr ⟨e, he, rfl⟩
        refine hbelow hvalue ?_
        rw [hkey] at hnone
        cases hshown : view.displayWithin n (a :: path) e.2 with
        | none => rfl
        | some value =>
          rw [hshown] at hnone
          cases hnone

end View

namespace Document

variable {α : Type} {view : View α} {a b : α} {n : Nat} {entries : Entries α}

theorem fails_lineInside (hb : view.Reaches a b) (hentries : view.level b = .mapping entries)
    (outer : Int) : Fails (view.Hinders n a) (lineInside view outer entries) := by
  rw [lineInside]
  cases hline : entries.find? "line" with
  | none => exact .ok _
  | some v =>
    dsimp only
    split
    · exact .ok _
    · cases hshown : view.display v with
      | some shown => exact .error (.refused _)
      | none =>
        obtain ⟨c, s, hc, hs, hlong⟩ := View.exists_of_displayWithin hshown
        have hv : view.Reaches a v := hb.tail (View.below_of_find? hentries hline)
        exact .error (.integer (hv.trans hc) hs hlong)

theorem fails_checkKeys (hb : view.Reaches a b) (hentries : view.level b = .mapping entries)
    (kind : Text) (allowed : List Text) (line : Int) :
    Fails (view.Hinders n a) (entries.checkKeys kind allowed line) := by
  rw [Entries.checkKeys]
  split
  · exact .ok ()
  · cases hkeys : ((entries.map Prod.fst).filter fun k => !Entries.isAmong allowed k).mapM
        Scalar.plain with
    | some keys => exact .error (.refused _)
    | none =>
      obtain ⟨s, hs, hnone⟩ := View.exists_of_mapM_eq_none hkeys
      refine .error (.integer (s := s) hb ?_ (View.isWritable_of_plain hnone))
      rw [hentries]
      exact List.mem_of_mem_filter hs

/-! ## 4. Nodes -/

/-- The items of a list that is given lie below it. -/
theorem below_of_listItems {line : Int} {cause : Cause} {v? : Option α} {items : List α}
    (h : listItems view line cause v? = .ok items) :
    ∃ v, v? = some v ∧ ∀ c ∈ items, view.Below v c := by
  cases v? with
  | none => cases h
  | some v =>
    rw [listItems] at h
    split at h
    · rename_i items' hv
      obtain rfl := Except.ok.inj h
      exact ⟨v, rfl, fun c hc => by rw [View.Below, hv]; exact hc⟩
    · cases h

theorem fails_listItems (line : Int) (cause : Cause) (v? : Option α) :
    Fails (view.Hinders n a) (listItems view line cause v?) := by
  cases v? with
  | none => exact .error (.refused _)
  | some v =>
    rw [listItems]
    split
    · exact .ok _
    · exact .error (.refused _)

/-- The items of the list under a key of a mapping that can be reached can be reached too. -/
theorem reaches_of_listItems (hb : view.Reaches a b) (hentries : view.level b = .mapping entries)
    {key : Text} {line : Int} {cause : Cause} {items : List α}
    (h : listItems view line cause (entries.find? key) = .ok items) :
    ∀ c ∈ items, ∃ v, view.Reaches a v ∧ view.Below v c := by
  obtain ⟨v, hv, hitems⟩ := below_of_listItems h
  exact fun c hc => ⟨v, hb.tail (View.below_of_find? hentries hv), hitems c hc⟩

theorem eq_of_given {v? : Option α} {v : α} (h : given view v? = some v) : v? = some v := by
  cases v? with
  | none => cases h
  | some w =>
    rw [given] at h
    split at h
    · cases h
    · exact h

theorem fails_condition (hb : view.Reaches a b) (hentries : view.level b = .mapping entries)
    (marker : Value) (line : Int) (key : Text) :
    Fails (view.Hinders n a) (condition view marker line (entries.find? key)) := by
  rw [condition]
  cases hgiven : given view (entries.find? key) with
  | none => exact .ok _
  | some v =>
    dsimp only
    refine (fails_listItems line .conditionNotList (some v)).bind fun items hitems => ?_
    rw [← eq_of_given hgiven] at hitems
    have hreach : ∀ c ∈ items, view.Reaches a c := fun c hc => by
      obtain ⟨w, hw, hwc⟩ := reaches_of_listItems hb hentries hitems c hc
      exact hw.tail hwc
    refine (View.fails_tokens hreach).bind fun ts hts => ?_
    have htokens := View.reaches_of_tokens hreach hts
    cases ts with
    | nil => exact .ok _
    | cons first rest =>
      rw [Tokens.condition]
      split
      · exact (View.fails_exprs (fun t ht => htokens t (List.mem_cons_of_mem first ht)) line).bind
          fun _ _ => .ok _
      · exact (View.fails_exprs htokens line).bind fun _ _ => .ok _

section

variable {node : Int → α → Except Failure Expr}
  (hnode : ∀ b c line, view.Reaches a b → view.Below b c → Fails (view.Hinders n a) (node line c))

include hnode

theorem fails_clause (hb : view.Reaches a b) (marker : Value) (outer : Int) :
    Fails (view.Hinders n a) (clause view marker node outer b) := by
  rw [clause]
  cases hentries : view.level b with
  | mapping entries =>
    dsimp only
    cases hbranch : entries.find? "then" with
    | none => exact .error (.refused _)
    | some branch =>
      refine (fails_lineInside hb hentries outer).bind fun line _ => ?_
      refine (fails_checkKeys hb hentries _ _ line).bind fun _ _ => ?_
      refine (fails_condition hb hentries marker line "when").bind fun test _ => ?_
      exact (hnode b branch line hb (View.below_of_find? hentries hbranch)).bind fun _ _ => .ok _
  | _ => exact .error (.refused _)

/-- A part that may be left out, under a key of a mapping that can be reached. -/
theorem fails_given (hb : view.Reaches a b) (hentries : view.level b = .mapping entries) (line : Int)
    (key : Text) : Fails (view.Hinders n a) ((given view (entries.find? key)).mapM (node line)) := by
  cases hgiven : given view (entries.find? key) with
  | none => exact .ok _
  | some v =>
    have hv := View.below_of_find? hentries (eq_of_given hgiven)
    exact (hnode b v line hb hv).map

theorem fails_ofKind (hb : view.Reaches a b) (hentries : view.level b = .mapping entries)
    (marker : Value) (line : Int) (kind : NodeKind) :
    Fails (view.Hinders n a) (ofKind view marker node line kind entries) := by
  cases kind with
  | command =>
    refine (fails_listItems line _ _).bind fun items hitems => ?_
    refine View.fails_command (fun c hc => ?_) line
    obtain ⟨v, hv, hvc⟩ := reaches_of_listItems hb hentries hitems c hc
    exact hv.tail hvc
  | block =>
    refine (fails_listItems line _ _).bind fun items hitems => ?_
    refine Fails.bind (Fails.mapM fun c hc => ?_) fun es _ => ?_
    · obtain ⟨v, hv, hvc⟩ := reaches_of_listItems hb hentries hitems c hc
      exact hnode v c line hv hvc
    · cases es with
      | nil => exact .error (.refused _)
      | cons first rest => exact .ok _
  | choice =>
    refine (fails_listItems line _ _).bind fun items hitems => ?_
    refine Fails.bind (Fails.mapM fun c hc => ?_) fun _ _ => .ok _
    obtain ⟨v, hv, hvc⟩ := reaches_of_listItems hb hentries hitems c hc
    exact fails_clause hnode (hv.tail hvc) marker line
  | forEach =>
    rw [ofKind]
    cases hiterable : entries.find? "for" with
    | none => exact .error (.refused _)
    | some iterable =>
      cases hbody : entries.find? "do" with
      | none => exact .error (.refused _)
      | some body =>
        have hpart {key : Text} {v : α} (hv : entries.find? key = some v) :=
          hnode b v line hb (View.below_of_find? hentries hv)
        refine (hpart hiterable).bind fun _ _ => (hpart hbody).bind fun _ _ => ?_
        refine (fails_given hnode hb hentries line "as").bind fun _ _ => ?_
        exact (fails_given hnode hb hentries line "index").bind fun _ _ => .ok _
  | whileLoop =>
    rw [ofKind]
    cases hbody : entries.find? "do" with
    | none => exact .error (.refused _)
    | some body =>
      refine (fails_condition hb hentries marker line "while").bind fun _ _ => ?_
      exact (hnode b body line hb (View.below_of_find? hentries hbody)).bind fun _ _ => .ok _

end

/-- **What a node can fail for is to be seen in it**, by induction on the fuel: below a node every rule has
    one step less. -/
theorem fails_node (marker : Value) (n : Nat) (outer : Int) (a : α) :
    Fails (view.Hinders n a) (node view marker n outer a) := by
  induction n generalizing outer a with
  | zero => exact .error (.deep trivial)
  | succ n ih =>
    have hnode : ∀ b c line, view.Reaches a b → view.Below b c →
        Fails (view.Hinders (n + 1) a) (node view marker n line c) := fun b c line hb hc =>
      (ih line c).imp fun f => View.Hinders.above hb hc
    rw [node]
    cases ha : view.level a with
    | scalar s =>
      cases s with
      | int k =>
        dsimp only [Scalar.numberText?]
        rw [Decimal.ofInt?]
        by_cases hfits : Decimal.fits k = true
        · rw [if_pos hfits]
          exact .ok _
        · rw [if_neg hfits]
          refine .error (.integer (s := .int k) .refl ?_ (Bool.eq_false_iff.mpr hfits))
          rw [ha]
          exact List.mem_singleton_self _
      | text t => exact .ok _
      | float d => exact .ok _
      | _ => exact .error (.refused _)
    | list items =>
      refine View.fails_command (fun c hc => .single ?_) outer
      rw [View.Below, ha]
      exact hc
    | mapping entries =>
      refine (fails_lineInside .refl ha outer).bind fun line _ => ?_
      split
      · refine (fails_checkKeys .refl ha _ _ line).bind fun _ _ => ?_
        exact fails_ofKind hnode .refl ha marker line _
      · exact .error (.refused _)
    | _ => exact .error (.refused _)

theorem fails_tree (marker : Value) (line : Int) (root : α) :
    Fails (view.Hinders (view.reach + 1) root) (tree view marker line root) :=
  fails_node marker _ line root

end Document

/-! ## 5. Graphs -/

namespace Graph

variable {g : Graph} {a b : Nat}

theorem lt_size_of_below (h : g.view.Below a b) : a < g.parts.size := by
  by_contra hsize
  have hlevel : g.view.level a = .scalar .null := by
    show g.parts.getD a default = _
    rw [Array.getD_eq_getD_getElem?, Array.getElem?_eq_none (Nat.le_of_not_lt hsize)]
    rfl
  rw [View.Below, hlevel] at h
  cases h

/-- A way downwards, by the parts that it passes. -/
theorem exists_way {n : Nat} (h : g.view.Descends n a) :
    ∃ way : Nat → Nat, way 0 = a ∧ ∀ i < n, g.view.Below (way i) (way (i + 1)) := by
  induction n generalizing a with
  | zero => exact ⟨fun _ => a, rfl, fun i hi => absurd hi (Nat.not_lt_zero i)⟩
  | succ n ih =>
    obtain ⟨b, hb, hbelow⟩ := h
    obtain ⟨way, hstart, hsteps⟩ := ih hbelow
    refine ⟨fun i => if i = 0 then a else way (i - 1), rfl, fun i hi => ?_⟩
    cases i with
    | zero => simpa [hstart] using hb
    | succ i => simpa using hsteps i (by omega)

theorem transGen_of_lt {n : Nat} {way : Nat → Nat}
    (hsteps : ∀ i < n, g.view.Below (way i) (way (i + 1))) {i j : Nat} (hij : i < j) (hj : j ≤ n) :
    Relation.TransGen g.view.Below (way i) (way j) := by
  induction j with
  | zero => exact absurd hij (Nat.not_lt_zero i)
  | succ j ih =>
    have hlast := hsteps j (by omega)
    rcases Nat.lt_succ_iff_lt_or_eq.mp hij with hlt | rfl
    · exact (ih hlt (by omega)).tail hlast
    · exact .single hlast

/-- **A way that is longer than the number of parts passes one of them twice**, which so contains itself. -/
theorem exists_containsItself (h : g.view.Descends (g.parts.size + 1) a) :
    ∃ b, g.view.Reaches a b ∧ g.view.ContainsItself b := by
  obtain ⟨way, rfl, hsteps⟩ := exists_way h
  have hmaps : ∀ i ∈ Finset.range (g.parts.size + 1), way i ∈ Finset.range g.parts.size :=
    fun i hi => Finset.mem_range.mpr (lt_size_of_below (hsteps i (Finset.mem_range.mp hi)))
  have hcard : (Finset.range g.parts.size).card < (Finset.range (g.parts.size + 1)).card := by
    rw [Finset.card_range, Finset.card_range]
    exact Nat.lt_succ_self _
  obtain ⟨i, hi, j, hj, hne, heq⟩ := Finset.exists_ne_map_eq_of_card_lt_of_maps_to hcard hmaps
  have hreach {k : Nat} (hk : k ∈ Finset.range (g.parts.size + 1)) : g.view.Reaches (way 0) (way k) := by
    have hle := Finset.mem_range.mp hk
    cases k with
    | zero => exact .refl
    | succ k => exact (transGen_of_lt hsteps (Nat.succ_pos k) (by omega)).to_reflTransGen
  have hcycle {i j : Nat} (hij : i < j) (hj : j ∈ Finset.range (g.parts.size + 1))
      (heq : way i = way j) : g.view.ContainsItself (way j) := by
    have htrans := transGen_of_lt hsteps hij (Nat.le_of_lt (Finset.mem_range.mp hj))
    rwa [heq] at htrans
  rcases Nat.lt_or_gt_of_ne hne with hij | hji
  · exact ⟨way j, hreach hj, hcycle hij hj heq⟩
  · exact ⟨way i, hreach hi, hcycle hji hi heq.symm⟩

/-- **A graph is built or refused, unless it has a snag.** -/
theorem fails_tree (g : Graph) (marker : Value) (line : Int) :
    Fails (fun f => (∃ e, f = .refused e) ∨ g.view.Snag g.root f)
      (Document.tree g.view marker line g.root) := by
  refine (Document.fails_tree marker line g.root).imp fun f hf => ?_
  have hendless {b : Nat} (hb : g.view.Reaches g.root b)
      (h : g.view.Descends (g.parts.size + 1) b) : g.view.Snag g.root .endlessDocument := by
    obtain ⟨c, hc, hself⟩ := exists_containsItself h
    exact .endless (hb.trans hc) hself
  cases hf with
  | refused e => exact .inl ⟨e, rfl⟩
  | deep h => exact .inr (hendless .refl h)
  | deepBelow hb h => exact .inr (hendless hb h)
  | @integer b s hb hs hlong =>
    cases s with
    | int n => exact .inr (.integer hb hs hlong)
    | _ => cases hlong

end Graph

end TemplateTree
