import TemplateTree.Proofs.Code.Binding
import TemplateTree.Proofs.Expr.Meaning
import TemplateTree.Proofs.Settings.Names

/-!
# Generated code does what an expression means: pieces without loops

`Denotes H n t A` says of an expression `t` of generated code that it does what the action `A` does,
wherever generated code may stand: among all frames in which the runtime and the built-in functions
have not been hidden (`Frames.Clear`). It binds nothing there, so the frames are the same afterwards.
There is one rule for each piece of the code that is not a loop.

A host offers a runtime under some names (`Host.Offers`); names may be shared as far as the calls
through them differ in their number of arguments.
-/

namespace TemplateTree

namespace Target

/-! ## 1. Runtimes -/

/-- A host offers a runtime under some names. -/
structure Host.Offers {κ α σ : Type} (H : Host κ α σ) (n : RuntimeNames) (R : Runtime κ α σ) :
    Prop where
  lookup (v : Datum κ α) (s : σ) :
    H.item [n.commands] v s = (R.lookup v s).map fun r => (.command r.1, r.2)
  invoke (c : κ) (line : Int) (vs : List (Datum κ α)) (s : σ) :
    H.command c (.int line :: vs) s = R.invoke c line vs s
  assign (line : Int) (x v : Datum κ α) (s : σ) :
    H.call [n.commands, n.assign] [.int line, x, v] s = R.assign line x v s
  isEmpty (v : Datum κ α) (s : σ) :
    H.call [n.isEmpty] [v] s = (R.isEmpty v s).map fun r => (.bool r.1, r.2)
  areAllEqual (v w : Datum κ α) (vs : List (Datum κ α)) (s : σ) :
    H.call [n.areAllEqual] (v :: w :: vs) s
      = (R.areAllEqual (v :: w :: vs) s).map fun r => (.bool r.1, r.2)
  elements (v : Datum κ α) (s : σ) :
    H.call [n.elements] [v] s = (R.elements v s).map fun r => (.list r.1, r.2)
  truth (x : α) : H.truth x = R.truth x

theorem map_fst_eq_some_iff {β γ σ : Type} {f : β → γ} {o : Option (β × σ)} {c : γ} {s : σ} :
    (o.map fun r => (f r.1, r.2)) = some (c, s) ↔ ∃ b, o = some (b, s) ∧ c = f b := by
  cases o with
  | none => simp
  | some r =>
    obtain ⟨b, s₁⟩ := r
    simp only [Option.map_some, Option.some.injEq, Prod.mk.injEq]
    constructor
    · rintro ⟨rfl, rfl⟩
      exact ⟨b, ⟨rfl, rfl⟩, rfl⟩
    · rintro ⟨_, ⟨rfl, rfl⟩, rfl⟩
      exact ⟨rfl, rfl⟩

/-! ## 2. Frames that generated code runs among -/

/-- The names that generated code does not bind itself have their values: the runtime, and every
    built-in function. -/
structure Frames.Clear {κ α : Type} (n : RuntimeNames) (ρ : Frames κ α) : Prop where
  runtime : ρ.find? n.runtime = some (.member [])
  builtin : ∀ p ∈ Builtin.table, ρ.find? p.1 = some (.builtin p.2)

/-- Whether a name is one of those that generated code binds. -/
def isLoopName (x : Text) : Bool := x.head? = some (.scalar '_')

section

variable {κ α σ : Type} {H : Host κ α σ} {n : RuntimeNames} {R : Runtime κ α σ} {ρ : Frames κ α}

theorem Frames.find?_push {f : Frame κ α} {x : Text} (hx : isLoopName x = false)
    (hf : ∀ slot ∈ f.slots, isLoopName slot.1 = true) : find? x (f :: ρ) = ρ.find? x := by
  have hnone : f.slots.lookup x = none := by
    rw [List.lookup_eq_none_iff]
    intro slot hslot
    rw [bne_iff_ne]
    rintro rfl
    rw [hf slot hslot] at hx
    cases hx
  simp [Frames.find?, hnone]

theorem Frames.Clear.push (hn : n.Valid) (hρ : ρ.Clear n) {f : Frame κ α}
    (hf : ∀ slot ∈ f.slots, isLoopName slot.1 = true) : Frames.Clear n (f :: ρ) where
  runtime := by
    have hx : isLoopName n.runtime = false := by simpa [isLoopName] using hn.runtime_head
    rw [Frames.find?_push hx hf]
    exact hρ.runtime
  builtin p hp := by
    have hx : ∀ p ∈ Builtin.table, isLoopName p.1 = false := by decide
    rw [Frames.find?_push (hx p hp) hf]
    exact hρ.builtin p hp

/-! ## 3. Expressions that act -/

/-- Among some frames, an expression does what an action does, and leaves the frames. -/
structure Acts (H : Host κ α σ) (ρ : Frames κ α) (t : Term) (A : Action κ α σ) : Prop where
  eval_iff {s w ρ' s'} : Eval H ρ s t w ρ' s' ↔ ρ' = ρ ∧ A s w s'

/-- Among some frames, expressions do what some actions do, one after another. -/
structure ActsAll (H : Host κ α σ) (ρ : Frames κ α) (ts : List Term) (As : List (Action κ α σ)) :
    Prop where
  eval_iff {s vs ρ' s'} : EvalAll H ρ s ts vs ρ' s' ↔ ρ' = ρ ∧ Action.All As s vs s'

theorem Acts.congr {t : Term} {A B : Action κ α σ} (h : Acts H ρ t A)
    (hAB : ∀ {s w s'}, A s w s' ↔ B s w s') : Acts H ρ t B where
  eval_iff {s w ρ' s'} := by
    rw [h.eval_iff, hAB]

theorem ActsAll.nil : ActsAll H ρ [] [] where
  eval_iff {s vs ρ' s'} := by
    rw [evalAll_nil_iff, Action.All]
    exact and_left_comm

theorem ActsAll.cons {t : Term} {ts : List Term} {A : Action κ α σ} {As : List (Action κ α σ)}
    (h : Acts H ρ t A) (hs : ActsAll H ρ ts As) : ActsAll H ρ (t :: ts) (A :: As) where
  eval_iff {s vs ρ' s'} := by
    rw [evalAll_cons_iff, Action.All]
    constructor
    · rintro ⟨v, ρ₁, s₁, ws, ht, hts, rfl⟩
      obtain ⟨rfl, hA⟩ := h.eval_iff.mp ht
      obtain ⟨rfl, hAs⟩ := hs.eval_iff.mp hts
      exact ⟨rfl, v, s₁, ws, hA, hAs, rfl⟩
    · rintro ⟨rfl, v, s₁, ws, hA, hAs, rfl⟩
      exact ⟨v, ρ', s₁, ws, h.eval_iff.mpr ⟨rfl, hA⟩, hs.eval_iff.mpr ⟨rfl, hAs⟩, rfl⟩

theorem acts_name {x : Text} {v : Datum κ α} (h : ρ.find? x = some v) :
    Acts H ρ (.name x) (Action.Pure v) where
  eval_iff {s w ρ' s'} := by
    rw [eval_name_iff, h, Option.some.injEq, and_left_comm]
    exact and_congr_right fun _ => and_congr_left fun _ => eq_comm

theorem acts_text (v : Text) : Acts H ρ (.text v) (Action.Pure (.text v)) where
  eval_iff {s w ρ' s'} := by
    constructor
    · rintro ⟨⟩
      exact ⟨rfl, rfl, rfl⟩
    · rintro ⟨rfl, rfl, rfl⟩
      exact .text v

theorem acts_bool (b : Bool) : Acts H ρ (.bool b) (Action.Pure (.bool b)) where
  eval_iff {s w ρ' s'} := by
    constructor
    · rintro ⟨⟩
      exact ⟨rfl, rfl, rfl⟩
    · rintro ⟨rfl, rfl, rfl⟩
      exact .bool b

theorem acts_integer (z : Int) : Acts H ρ (.integer z) (Action.Pure (.int z)) where
  eval_iff {s w ρ' s'} := by
    unfold Term.integer
    split
    · have hz : z = -(z.natAbs : Int) := by omega
      constructor
      · intro h
        cases h with
        | negative h =>
          cases h
          exact ⟨rfl, congrArg Datum.int hz.symm, rfl⟩
      · rintro ⟨rfl, rfl, rfl⟩
        have h : Eval H ρ' s' (.negative (.number z.natAbs)) (.int (-(z.natAbs : Int))) ρ' s' :=
          .negative (.number _)
        rwa [← hz] at h
    · have hz : (z.natAbs : Int) = z := by omega
      constructor
      · rintro ⟨⟩
        exact ⟨rfl, congrArg Datum.int hz, rfl⟩
      · rintro ⟨rfl, rfl, rfl⟩
        have h : Eval H ρ' s' (.number z.natAbs) (.int (z.natAbs : Int)) ρ' s' := .number _
        rwa [hz] at h

theorem Acts.member {t : Term} {path : List Text} (h : Acts H ρ t (Action.Pure (.member path)))
    (a : Text) : Acts H ρ (.member t a) (Action.Pure (.member (path ++ [a]))) where
  eval_iff {s w ρ' s'} := by
    constructor
    · intro hmember
      cases hmember with
      | member ht =>
        obtain ⟨rfl, heq, rfl⟩ := h.eval_iff.mp ht
        cases heq
        exact ⟨rfl, rfl, rfl⟩
    · rintro ⟨rfl, rfl, rfl⟩
      exact .member (h.eval_iff.mpr ⟨rfl, rfl, rfl⟩)

theorem Acts.index {t k : Term} {A B : Action κ α σ} (ht : Acts H ρ t A) (hk : Acts H ρ k B) :
    Acts H ρ (.index t k) fun s w s' => ∃ v s₁ u s₂, A s v s₁ ∧ B s₁ u s₂ ∧
      H.index v u s₂ = some (w, s') where
  eval_iff {s w ρ' s'} := by
    constructor
    · intro h
      cases h with
      | index hsubject hkey hindex =>
        obtain ⟨rfl, hA⟩ := ht.eval_iff.mp hsubject
        obtain ⟨rfl, hB⟩ := hk.eval_iff.mp hkey
        exact ⟨rfl, _, _, _, _, hA, hB, hindex⟩
    · rintro ⟨rfl, v, s₁, u, s₂, hA, hB, hindex⟩
      exact .index (ht.eval_iff.mpr ⟨rfl, hA⟩) (hk.eval_iff.mpr ⟨rfl, hB⟩) hindex

theorem Acts.call {f : Term} {ts : List Term} {A : Action κ α σ} {As : List (Action κ α σ)}
    (hf : ∀ xs ds body, f ≠ .lambda xs ds body) (h : Acts H ρ f A) (hs : ActsAll H ρ ts As) :
    Acts H ρ (.call f ts) fun s w s' => ∃ v s₁ vs s₂, A s v s₁ ∧ Action.All As s₁ vs s₂ ∧
      H.apply v vs s₂ = some (w, s') where
  eval_iff {s w ρ' s'} := by
    rw [eval_call_iff hf]
    constructor
    · rintro ⟨v, ρ₁, s₁, vs, s₂, hv, hvs, happly⟩
      obtain ⟨rfl, hA⟩ := h.eval_iff.mp hv
      obtain ⟨rfl, hAs⟩ := hs.eval_iff.mp hvs
      exact ⟨rfl, v, s₁, vs, s₂, hA, hAs, happly⟩
    · rintro ⟨rfl, v, s₁, vs, s₂, hA, hAs, happly⟩
      exact ⟨v, ρ', s₁, vs, s₂, h.eval_iff.mpr ⟨rfl, hA⟩, hs.eval_iff.mpr ⟨rfl, hAs⟩, happly⟩

theorem ActsAll.tuple {ts : List Term} {As : List (Action κ α σ)} (hs : ActsAll H ρ ts As) :
    Acts H ρ (.tuple ts) fun s w s' => ∃ vs, Action.All As s vs s' ∧ w = .tuple vs where
  eval_iff {s w ρ' s'} := by
    constructor
    · intro h
      cases h with
      | tuple hvs =>
        obtain ⟨rfl, hAs⟩ := hs.eval_iff.mp hvs
        exact ⟨rfl, _, hAs, rfl⟩
    · rintro ⟨rfl, vs, hAs, rfl⟩
      exact .tuple (hs.eval_iff.mpr ⟨rfl, hAs⟩)

theorem Acts.not {t : Term} {A : Action κ α σ} (h : Acts H ρ t A) :
    Acts H ρ (.not t) fun s w s' => ∃ v, A s v s' ∧ w = .bool (!H.truthy v) where
  eval_iff {s w ρ' s'} := by
    constructor
    · intro hnot
      cases hnot with
      | not hv =>
        obtain ⟨rfl, hA⟩ := h.eval_iff.mp hv
        exact ⟨rfl, _, hA, rfl⟩
    · rintro ⟨rfl, v, hA, rfl⟩
      exact .not (h.eval_iff.mpr ⟨rfl, hA⟩)

theorem Acts.conditional {c t u : Term} {A B C : Action κ α σ} (hc : Acts H ρ c A)
    (ht : Acts H ρ t B) (hu : Acts H ρ u C) :
    Acts H ρ (.conditional c t u) fun s w s' => ∃ v s₁, A s v s₁ ∧
      if H.truthy v then B s₁ w s' else C s₁ w s' where
  eval_iff {s w ρ' s'} := by
    rw [eval_conditional_iff]
    constructor
    · rintro ⟨v, ρ₁, s₁, hv, h⟩
      obtain ⟨rfl, hA⟩ := hc.eval_iff.mp hv
      cases htruth : H.truthy v with
      | true =>
        obtain ⟨rfl, hB⟩ := ht.eval_iff.mp (by simpa [htruth] using h)
        exact ⟨rfl, v, s₁, hA, by simpa [htruth] using hB⟩
      | false =>
        obtain ⟨rfl, hC⟩ := hu.eval_iff.mp (by simpa [htruth] using h)
        exact ⟨rfl, v, s₁, hA, by simpa [htruth] using hC⟩
    · rintro ⟨rfl, v, s₁, hA, h⟩
      refine ⟨v, ρ', s₁, hc.eval_iff.mpr ⟨rfl, hA⟩, ?_⟩
      cases htruth : H.truthy v with
      | true => exact ht.eval_iff.mpr ⟨rfl, by simpa [htruth] using h⟩
      | false => exact hu.eval_iff.mpr ⟨rfl, by simpa [htruth] using h⟩

/-! ## 4. Expressions without loops -/

/-- An expression does what an action does wherever generated code may stand, and binds nothing
    there. -/
structure Denotes (H : Host κ α σ) (n : RuntimeNames) (t : Term) (A : Action κ α σ) : Prop where
  assigned : t.assigned = []
  acts {ρ : Frames κ α} : ρ.Clear n → Acts H ρ t A

/-- Expressions do what some actions do wherever generated code may stand. -/
structure DenotesAll (H : Host κ α σ) (n : RuntimeNames) (ts : List Term)
    (As : List (Action κ α σ)) : Prop where
  assigned : Term.assignedAll ts = []
  acts {ρ : Frames κ α} : ρ.Clear n → ActsAll H ρ ts As

theorem DenotesAll.nil : DenotesAll H n [] [] := ⟨rfl, fun _ => ActsAll.nil⟩

theorem DenotesAll.cons {t : Term} {ts : List Term} {A : Action κ α σ} {As : List (Action κ α σ)}
    (h : Denotes H n t A) (hs : DenotesAll H n ts As) : DenotesAll H n (t :: ts) (A :: As) where
  assigned := by simp [Term.assignedAll, h.assigned, hs.assigned]
  acts hρ := ActsAll.cons (h.acts hρ) (hs.acts hρ)

theorem Denotes.congr {t : Term} {A B : Action κ α σ} (h : Denotes H n t A)
    (hAB : ∀ {s w s'}, A s w s' ↔ B s w s') : Denotes H n t B :=
  ⟨h.assigned, fun hρ => (h.acts hρ).congr hAB⟩

theorem denotes_integer (z : Int) : Denotes H n (.integer z) (Action.Pure (.int z)) where
  assigned := Term.assigned_integer z
  acts _ := acts_integer z

theorem denotes_runtimeMember (a : Text) :
    Denotes H n (.runtimeMember n a) (Action.Pure (.member [a])) where
  assigned := rfl
  acts hρ := (acts_name hρ.runtime).member a

/-- The call of a member of the runtime with some arguments. -/
theorem DenotesAll.callMember {f : Term} {path : List Text} {ts : List Term}
    {As : List (Action κ α σ)} (hf : ∀ xs ds body, f ≠ .lambda xs ds body)
    (h : Denotes H n f (Action.Pure (.member path))) (hs : DenotesAll H n ts As) :
    Denotes H n (.call f ts) fun s w s' => ∃ vs s₁, Action.All As s vs s₁ ∧
      H.call path vs s₁ = some (w, s') where
  assigned := by simp [Term.assigned, h.assigned, hs.assigned]
  acts hρ := by
    refine (Acts.call hf (h.acts hρ) (hs.acts hρ)).congr ⟨?_, ?_⟩
    · rintro ⟨_, _, vs, s₂, ⟨rfl, rfl⟩, hvs, happly⟩
      exact ⟨vs, s₂, hvs, happly⟩
    · rintro ⟨vs, s₂, hvs, happly⟩
      exact ⟨_, _, vs, s₂, ⟨rfl, rfl⟩, hvs, happly⟩

/-- A lambda without parameters that is called on the spot does what its body does. -/
theorem Denotes.thunk (hn : n.Valid) {t : Term} {A : Action κ α σ} (h : Denotes H n t A) :
    Denotes H n (.call (.lambda [] [] t) []) A where
  assigned := rfl
  acts {ρ} hρ := by
    have hclear : Frames.Clear n (.function [] :: ρ) := hρ.push hn (by simp [Frame.slots])
    have hlocals : t.locals [] = ([] : Slots κ α) := by simp [Term.locals, h.assigned]
    refine ⟨fun {s w ρ' s'} => ?_⟩
    rw [eval_callLambda_iff]
    constructor
    · rintro ⟨us, ρ₁, s₁, vs, ρ₂, s₂, slots, frame, hds, hts, hslots, hbody⟩
      obtain ⟨rfl, rfl, rfl⟩ := evalAll_nil_iff.mp hds
      obtain ⟨rfl, rfl, rfl⟩ := evalAll_nil_iff.mp hts
      cases hslots
      rw [hlocals] at hbody
      obtain ⟨heq, hA⟩ := (h.acts hclear).eval_iff.mp hbody
      cases heq
      exact ⟨rfl, hA⟩
    · rintro ⟨rfl, hA⟩
      refine ⟨[], _, _, [], _, _, [], .function [], .nil, .nil, rfl, ?_⟩
      rw [hlocals]
      exact (h.acts hclear).eval_iff.mpr ⟨rfl, hA⟩

theorem Denotes.commandCall (hR : H.Offers n R) (line : Int) {t : Term} {ts : List Term}
    {A : Action κ α σ} {As : List (Action κ α σ)} (h : Denotes H n t A)
    (hs : DenotesAll H n ts As) :
    Denotes H n (.commandCall n line t ts) (Action.Command R line A As) where
  assigned := by
    have hts := (DenotesAll.cons (denotes_integer line) hs).assigned
    simp [Term.commandCall, Term.runtimeMember, Term.assigned, h.assigned, hts]
  acts hρ := by
    have hindex := ((denotes_runtimeMember n.commands).acts hρ).index (h.acts hρ)
    have hcall := hindex.call (by simp) ((DenotesAll.cons (denotes_integer line) hs).acts hρ)
    refine hcall.congr ⟨?_, ?_⟩
    · rintro ⟨_, s₁, _, s₂, ⟨_, _, v, s₃, ⟨rfl, rfl⟩, hA, hitem⟩, ⟨_, _, vs, ⟨rfl, rfl⟩, hAs, rfl⟩,
        hcommand⟩
      obtain ⟨c, hlookup, rfl⟩ := map_fst_eq_some_iff.mp ((hR.lookup v s₃).symm.trans hitem)
      exact ⟨v, s₃, c, _, vs, s₂, hA, hlookup, hAs, (hR.invoke c line vs s₂).symm.trans hcommand⟩
    · rintro ⟨v, s₁, c, s₂, vs, s₃, hA, hlookup, hAs, hinvoke⟩
      have hitem := (hR.lookup v s₁).trans (map_fst_eq_some_iff.mpr ⟨c, hlookup, rfl⟩)
      exact ⟨.command c, s₂, .int line :: vs, s₃, ⟨_, _, v, s₁, ⟨rfl, rfl⟩, hA, hitem⟩,
        ⟨_, _, vs, ⟨rfl, rfl⟩, hAs, rfl⟩, (hR.invoke c line vs s₃).trans hinvoke⟩

theorem DenotesAll.sequence (hn : n.Valid) {ts : List Term} {As : List (Action κ α σ)}
    (hs : DenotesAll H n ts As) : Denotes H n (.sequence ts) (Action.Sequence As) := by
  refine Denotes.thunk hn ⟨?_, fun {ρ} hρ => ?_⟩
  · simp [Term.assigned, hs.assigned]
  · have hone : Acts H ρ (.negative (.number 1)) (Action.Pure (.int (-1))) := acts_integer (-1)
    refine ((hs.acts hρ).tuple.index hone).congr ⟨?_, ?_⟩
    · rintro ⟨_, s₁, _, s₂, ⟨vs, hAs, rfl⟩, ⟨rfl, rfl⟩, hindex⟩
      have hlast : (Datum.itemAt? vs (-1)).map (·, s₂) = some (_, _) := hindex
      rw [Datum.itemAt?_neg_one, Option.map_eq_some_iff] at hlast
      obtain ⟨w, hw, heq⟩ := hlast
      cases heq
      exact ⟨vs, hAs, hw⟩
    · rintro ⟨vs, hAs, hw⟩
      refine ⟨.tuple vs, _, .int (-1), _, ⟨vs, hAs, rfl⟩, ⟨rfl, rfl⟩, ?_⟩
      show (Datum.itemAt? vs (-1)).map _ = _
      rw [Datum.itemAt?_neg_one, hw]
      rfl

theorem Host.Offers.truthy_eq (hR : H.Offers n R) (v : Datum κ α) :
    H.truthy v = v.truthy R.truth := by
  cases v <;> simp [Host.truthy, Datum.truthy, hR.truth]

/-- The action that has the truth value of something. -/
def Truth (P : σ → Bool → σ → Prop) : Action κ α σ := fun s w s' => ∃ b, P s b s' ∧ w = .bool b

theorem Denotes.not {t : Term} {P : σ → Bool → σ → Prop} (h : Denotes H n t (Truth P)) :
    Denotes H n (.not t) (Truth fun s b s' => P s (!b) s') where
  assigned := h.assigned
  acts hρ := by
    refine (h.acts hρ).not.congr ⟨?_, ?_⟩
    · rintro ⟨_, ⟨b, hb, rfl⟩, rfl⟩
      exact ⟨!b, by simpa using hb, rfl⟩
    · rintro ⟨b, hb, rfl⟩
      exact ⟨.bool !b, ⟨_, hb, rfl⟩, by simp [Host.truthy, Datum.truthy]⟩

theorem all_singleton_iff {A : Action κ α σ} {s s' : σ} {vs : List (Datum κ α)} :
    Action.All [A] s vs s' ↔ ∃ v, A s v s' ∧ vs = [v] := by
  constructor
  · rintro ⟨v, s₁, _, hA, ⟨rfl, rfl⟩, rfl⟩
    exact ⟨v, hA, rfl⟩
  · rintro ⟨v, hA, rfl⟩
    exact ⟨v, s', [], hA, ⟨rfl, rfl⟩, rfl⟩

/-- The test of one operand, which gives whether it is empty. -/
theorem DenotesAll.emptyTest (hR : H.Offers n R) {ts : List Term} {A : Action κ α σ}
    (hs : DenotesAll H n ts [A]) :
    Denotes H n (.call (.runtimeMember n n.isEmpty) ts)
      (Truth fun s b s' => ∃ v s₁, A s v s₁ ∧ R.isEmpty v s₁ = some (b, s')) := by
  refine (hs.callMember (by simp [Term.runtimeMember])
    (denotes_runtimeMember n.isEmpty)).congr ⟨?_, ?_⟩
  · rintro ⟨_, s₁, hall, hcall⟩
    obtain ⟨v, hA, rfl⟩ := all_singleton_iff.mp hall
    obtain ⟨b, hb, rfl⟩ := map_fst_eq_some_iff.mp ((hR.isEmpty v s₁).symm.trans hcall)
    exact ⟨b, ⟨v, s₁, hA, hb⟩, rfl⟩
  · rintro ⟨b, ⟨v, s₁, hA, hb⟩, rfl⟩
    exact ⟨[v], s₁, all_singleton_iff.mpr ⟨v, hA, rfl⟩,
      (hR.isEmpty v s₁).trans (map_fst_eq_some_iff.mpr ⟨b, hb, rfl⟩)⟩

/-- The test of several operands, which gives whether they are equal. -/
theorem DenotesAll.equalTest (hR : H.Offers n R) {ts : List Term} {A B : Action κ α σ}
    {As : List (Action κ α σ)} (hs : DenotesAll H n ts (A :: B :: As)) :
    Denotes H n (.call (.runtimeMember n n.areAllEqual) ts)
      (Truth fun s b s' => ∃ v w vs s₁, Action.All (A :: B :: As) s (v :: w :: vs) s₁ ∧
        R.areAllEqual (v :: w :: vs) s₁ = some (b, s')) := by
  refine (hs.callMember (by simp [Term.runtimeMember])
    (denotes_runtimeMember n.areAllEqual)).congr ⟨?_, ?_⟩
  · rintro ⟨_, s₁, hall, hcall⟩
    obtain ⟨v, s₂, _, hA, ⟨w, s₃, vs, hB, hAs, rfl⟩, rfl⟩ := hall
    obtain ⟨b, hb, rfl⟩ := map_fst_eq_some_iff.mp ((hR.areAllEqual v w vs s₁).symm.trans hcall)
    exact ⟨b, ⟨v, w, vs, s₁, ⟨v, s₂, _, hA, ⟨w, s₃, vs, hB, hAs, rfl⟩, rfl⟩, hb⟩, rfl⟩
  · rintro ⟨b, ⟨v, w, vs, s₁, hall, hb⟩, rfl⟩
    exact ⟨_, s₁, hall,
      (hR.areAllEqual v w vs s₁).trans (map_fst_eq_some_iff.mpr ⟨b, hb, rfl⟩)⟩

theorem test_singleton_iff (negated : Bool) {A : Action κ α σ} {s s' : σ} {w : Datum κ α} :
    Action.Test R negated [A] s w s' ↔
      Truth (fun s b s' => ∃ v s₁, A s v s₁ ∧ R.isEmpty v s₁ = some (b == negated, s')) s w s' := by
  constructor
  · rintro ⟨_, s₁, c, hall, hholds, rfl⟩
    obtain ⟨v, hA, rfl⟩ := all_singleton_iff.mp hall
    obtain ⟨b, hb, rfl⟩ := map_fst_eq_some_iff.mp hholds
    exact ⟨_, ⟨v, s₁, hA, by cases b <;> cases negated <;> exact hb⟩, rfl⟩
  · rintro ⟨b, ⟨v, s₁, hA, hb⟩, rfl⟩
    refine ⟨[v], s₁, _, all_singleton_iff.mpr ⟨v, hA, rfl⟩,
      map_fst_eq_some_iff.mpr ⟨_, hb, rfl⟩, ?_⟩
    cases b <;> cases negated <;> rfl

theorem test_cons_cons_iff (negated : Bool) {A B : Action κ α σ} {As : List (Action κ α σ)}
    {s s' : σ} {w : Datum κ α} :
    Action.Test R negated (A :: B :: As) s w s' ↔
      Truth (fun s b s' => ∃ v w vs s₁, Action.All (A :: B :: As) s (v :: w :: vs) s₁ ∧
        R.areAllEqual (v :: w :: vs) s₁ = some (b != negated, s')) s w s' := by
  constructor
  · rintro ⟨_, s₁, b, ⟨v, s₂, _, hA, ⟨w, s₃, vs, hB, hAs, rfl⟩, rfl⟩, hb, rfl⟩
    refine ⟨_, ⟨v, w, vs, s₁, ⟨v, s₂, _, hA, ⟨w, s₃, vs, hB, hAs, rfl⟩, rfl⟩, ?_⟩, rfl⟩
    cases b <;> cases negated <;> exact hb
  · rintro ⟨b, ⟨v, w, vs, s₁, hall, hb⟩, rfl⟩
    exact ⟨_, s₁, _, hall, hb, by cases b <;> cases negated <;> rfl⟩

theorem DenotesAll.test (hR : H.Offers n R) (negated : Bool) {ts : List Term}
    {As : List (Action κ α σ)} (hlength : ts.length = As.length) (hs : DenotesAll H n ts As) :
    Denotes H n (.test n negated ts) (Action.Test R negated As) := by
  match ts, As, hlength, hs with
  | [], [], _, hs =>
    refine ⟨rfl, fun hρ => (acts_bool _).congr ⟨?_, ?_⟩⟩
    · rintro ⟨rfl, rfl⟩
      exact ⟨[], _, true, ⟨rfl, rfl⟩, rfl, by cases negated <;> rfl⟩
    · rintro ⟨_, _, _, ⟨rfl, rfl⟩, hb, rfl⟩
      cases hb
      exact ⟨by cases negated <;> rfl, rfl⟩
  | [t], [A], _, hs =>
    have h := hs.emptyTest hR
    cases negated with
    | true => exact h.congr (by simp [test_singleton_iff])
    | false => exact h.not.congr (by simp [test_singleton_iff])
  | t :: u :: ts, A :: B :: As, _, hs =>
    have h := hs.equalTest hR
    cases negated with
    | true => exact h.not.congr (by simp [test_cons_cons_iff])
    | false => exact h.congr (by simp [test_cons_cons_iff])

end

end Target

end TemplateTree
