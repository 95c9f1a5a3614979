/-!
# Computations that fail for certain reasons only

* `Fails P x`: if the computation `x` fails, then with an error that `P` holds of.
* `Gives P Q x`: moreover, `Q` holds of its result.
* `Keeps I P Q m`: the same of a step `m` of a state machine, which also keeps the invariant `I` of the state.

All three go along the steps of a computation (`Fails.bind`, `Gives.bind`, `Keeps.bind`) and over the members
of a list.
-/

namespace TemplateTree

/-! ## 1. Without a state -/

/-- A computation fails for certain reasons only. -/
def Fails {ε α : Type} (P : ε → Prop) (x : Except ε α) : Prop := ∀ e, x = .error e → P e

namespace Fails

variable {ε α β : Type} {P P' : ε → Prop} {x : Except ε α}

theorem ok (a : α) : Fails P (.ok a) := fun e h => by cases h

theorem error {e : ε} (h : P e) : Fails P (.error e : Except ε α) := fun e' h' => by
  rw [← Except.error.inj h']
  exact h

theorem imp (h : Fails P x) (himp : ∀ e, P e → P' e) : Fails P' x := fun e he => himp e (h e he)

theorem ite {c : Prop} [Decidable c] {y : Except ε α} (hx : c → Fails P x) (hy : ¬c → Fails P y) :
    Fails P (if c then x else y) := by
  by_cases h : c
  · rw [if_pos h]
    exact hx h
  · rw [if_neg h]
    exact hy h

theorem bind {f : α → Except ε β} (hx : Fails P x) (hf : ∀ a, x = .ok a → Fails P (f a)) :
    Fails P (x >>= f) := by
  cases x with
  | error e => exact .error (hx e rfl)
  | ok a => exact hf a rfl

theorem map {f : α → β} (hx : Fails P x) : Fails P (f <$> x) := by
  cases x with
  | error e => exact .error (hx e rfl)
  | ok a => exact .ok (f a)

theorem mapM {f : α → Except ε β} {as : List α} (h : ∀ a ∈ as, Fails P (f a)) :
    Fails P (as.mapM f) := by
  induction as with
  | nil => exact .ok []
  | cons a as ih =>
    rw [List.mapM_cons]
    refine (h a List.mem_cons_self).bind fun b _ => ?_
    exact (ih fun x hx => h x (List.mem_cons_of_mem a hx)).map (f := (b :: ·))

theorem forM {f : α → Except ε PUnit} {as : List α} (h : ∀ a ∈ as, Fails P (f a)) :
    Fails P (as.forM f) := by
  induction as with
  | nil => exact .ok ()
  | cons a as ih =>
    have hrest : Fails P (as.forM f) := ih fun x hx => h x (List.mem_cons_of_mem a hx)
    exact (h a List.mem_cons_self).bind fun _ _ => hrest

end Fails

/-! ## 2. With a result -/

/-- A computation fails for certain reasons only, and gives certain results only. -/
structure Gives {ε α : Type} (P : ε → Prop) (Q : α → Prop) (x : Except ε α) : Prop where
  fails : Fails P x
  holds : ∀ a, x = .ok a → Q a

namespace Gives

variable {ε α β : Type} {P : ε → Prop} {Q : α → Prop} {R : β → Prop} {x : Except ε α}

theorem ok {a : α} (h : Q a) : Gives P Q (.ok a) where
  fails := .ok a
  holds b hb := by
    cases hb
    exact h

theorem error {e : ε} (h : P e) : Gives P Q (.error e) where
  fails := .error h
  holds a ha := by cases ha

theorem ite {c : Prop} [Decidable c] {y : Except ε α} (hx : c → Gives P Q x) (hy : ¬c → Gives P Q y) :
    Gives P Q (if c then x else y) := by
  by_cases h : c
  · rw [if_pos h]
    exact hx h
  · rw [if_neg h]
    exact hy h

theorem bind {f : α → Except ε β} (hx : Gives P Q x) (hf : ∀ a, Q a → Gives P R (f a)) :
    Gives P R (x >>= f) := by
  cases x with
  | error e => exact .error (hx.fails e rfl)
  | ok a => exact hf a (hx.holds a rfl)

/-- After a computation of whose result nothing need be known. -/
theorem after {f : α → Except ε β} (hx : Fails P x) (hf : ∀ a, Gives P R (f a)) : Gives P R (x >>= f) :=
  bind ⟨hx, fun _ _ => trivial⟩ fun a _ => hf a

theorem foldlM {f : β → α → Except ε β} {as : List α} {b : β} (hb : R b)
    (hf : ∀ b a, a ∈ as → R b → Gives P R (f b a)) : Gives P R (as.foldlM f b) := by
  induction as generalizing b with
  | nil => exact .ok hb
  | cons a as ih =>
    rw [List.foldlM_cons]
    exact (hf b a List.mem_cons_self hb).bind fun b' hb' =>
      ih hb' fun b'' x hx => hf b'' x (List.mem_cons_of_mem a hx)

end Gives

/-! ## 3. With a state -/

/-- A step keeps an invariant, fails for certain reasons only, and gives certain results only. -/
structure Keeps {σ ε α : Type} (I : σ → Prop) (P : ε → Prop) (Q : α → Prop)
    (m : StateT σ (Except ε) α) : Prop where
  fails : ∀ s, I s → Fails P (m.run s)
  holds : ∀ s a s', I s → m.run s = .ok (a, s') → Q a ∧ I s'

namespace Keeps

variable {σ ε α β : Type} {I : σ → Prop} {P : ε → Prop} {Q : α → Prop} {R : β → Prop}
  {m : StateT σ (Except ε) α}

theorem pure {a : α} (h : Q a) : Keeps I P Q (Pure.pure a : StateT σ (Except ε) α) where
  fails _ _ := .ok _
  holds s b s' hs hrun := by
    cases hrun
    exact ⟨h, hs⟩

theorem throw {e : ε} (h : P e) : Keeps I P Q (MonadExcept.throw e : StateT σ (Except ε) α) where
  fails _ _ := .error h
  holds s b s' hs hrun := by cases hrun

theorem ite {c : Prop} [Decidable c] {m' : StateT σ (Except ε) α} (hm : c → Keeps I P Q m)
    (hm' : ¬c → Keeps I P Q m') : Keeps I P Q (if c then m else m') := by
  by_cases h : c
  · rw [if_pos h]
    exact hm h
  · rw [if_neg h]
    exact hm' h

theorem bind {f : α → StateT σ (Except ε) β} (hm : Keeps I P Q m)
    (hf : ∀ a, Q a → Keeps I P R (f a)) : Keeps I P R (m >>= f) := by
  constructor
  · intro s hs
    rw [StateT.run_bind]
    exact (hm.fails s hs).bind fun p hp =>
      have hnext := hm.holds s p.1 p.2 hs hp
      (hf p.1 hnext.1).fails p.2 hnext.2
  · intro s b s' hs hrun
    rw [StateT.run_bind] at hrun
    cases hm' : m.run s with
    | error e =>
      rw [hm'] at hrun
      cases hrun
    | ok p =>
      rw [hm'] at hrun
      have hnext := hm.holds s p.1 p.2 hs hm'
      exact (hf p.1 hnext.1).holds p.2 b s' hnext.2 hrun

theorem get : Keeps I P I (MonadState.get : StateT σ (Except ε) σ) where
  fails _ _ := .ok _
  holds s a s' hs hrun := by
    cases hrun
    exact ⟨hs, hs⟩

theorem set {s : σ} (h : I s) : Keeps I P (fun _ => True) (MonadState.set s : StateT σ (Except ε) PUnit) where
  fails _ _ := .ok _
  holds _ a s' _ hrun := by
    cases hrun
    exact ⟨trivial, h⟩

theorem update {f : σ → σ} (h : ∀ s, I s → I (f s)) :
    Keeps I P (fun _ => True) (modify f : StateT σ (Except ε) PUnit) where
  fails _ _ := .ok _
  holds s a s' hs hrun := by
    cases hrun
    exact ⟨trivial, h s hs⟩

theorem updateGet {f : σ → α × σ} (h : ∀ s, I s → I (f s).2) :
    Keeps I P (fun _ => True) (modifyGet f : StateT σ (Except ε) α) where
  fails _ _ := .ok _
  holds s a s' hs hrun := by
    have hnext := h s hs
    rw [show f s = (a, s') from Except.ok.inj hrun] at hnext
    exact ⟨trivial, hnext⟩

/-- A computation without a state as a step. -/
theorem lift {x : Except ε α} (hx : Fails P x) (hQ : ∀ a, x = .ok a → Q a) :
    Keeps I P Q (liftM x : StateT σ (Except ε) α) := by
  cases x with
  | error e => exact .throw (hx e rfl)
  | ok a => exact .pure (hQ a rfl)

theorem forM {f : α → StateT σ (Except ε) PUnit} {as : List α}
    (h : ∀ a ∈ as, Keeps I P (fun _ => True) (f a)) : Keeps I P (fun _ => True) (as.forM f) := by
  induction as with
  | nil => exact .pure trivial
  | cons a as ih =>
    have hrest := ih fun x hx => h x (List.mem_cons_of_mem a hx)
    exact (h a List.mem_cons_self).bind fun _ _ => hrest

theorem mapM {f : α → StateT σ (Except ε) β} {as : List α}
    (h : ∀ a ∈ as, Keeps I P (fun _ => True) (f a)) : Keeps I P (fun _ => True) (as.mapM f) := by
  induction as with
  | nil => exact .pure trivial
  | cons a as ih =>
    rw [List.mapM_cons]
    refine (h a List.mem_cons_self).bind fun b _ => ?_
    exact (ih fun x hx => h x (List.mem_cons_of_mem a hx)).bind fun _ _ => .pure trivial

end Keeps

end TemplateTree
