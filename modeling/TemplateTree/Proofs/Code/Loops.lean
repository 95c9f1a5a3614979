import TemplateTree.Proofs.Code.Denotation

/-!
# Generated code does what an expression means: loops

A loop is a comprehension in a function of its own. Its filter makes one turn and leaves the value of
the body in the frame of the function, where the next turn finds it; it is never true, so that
nothing is gathered and the loop gives the value that was left last. For both kinds of loop there is
what one turn does (`eval_turn_iff`, `eval_bindResult_iff`) and from it, by induction, what all turns
do (`gathers_elements_iff`, `gathers_polls_iff`).
-/

namespace TemplateTree

namespace Target

section

variable {κ α σ : Type} {H : Host κ α σ} {n : RuntimeNames} {R : Runtime κ α σ} {ρ : Frames κ α}

/-! ## 1. Loops over a collection -/

/-- The step that binds a variable of a loop does it, and nothing where there is no variable. -/
theorem evalAll_bindStep_iff (hR : H.Offers n R) (hρ : ρ.Clear n) (line : Int)
    {bound? : Option (Term × Action κ α σ)} (hb : ∀ b ∈ bound?, Denotes H n b.1 b.2) {value : Term}
    {v : Datum κ α} (hv : Acts H ρ value (Action.Pure v)) (s s' : σ) (ρ' : Frames κ α) :
    (∃ vs, EvalAll H ρ s (Term.bindStep n line (bound?.map Prod.fst) value) vs ρ' s') ↔
      ρ' = ρ ∧ Action.Bind R line (bound?.map Prod.snd) v s s' := by
  cases bound? with
  | none =>
    constructor
    · rintro ⟨vs, h⟩
      exact (evalAll_nil_iff.mp h).2
    · rintro ⟨rfl, rfl⟩
      exact ⟨[], .nil⟩
  | some bound =>
    have hmember := ((denotes_runtimeMember n.commands).acts hρ (H := H)).member n.assign
    have hargs := ActsAll.cons (acts_integer line) (.cons ((hb bound rfl).acts hρ) (.cons hv .nil))
    have hcall := ActsAll.cons (hmember.call (by simp) hargs) .nil
    constructor
    · rintro ⟨_, h⟩
      obtain ⟨rfl, hall⟩ := hcall.eval_iff.mp h
      obtain ⟨r, ⟨_, _, _, s₂, ⟨rfl, rfl⟩, hthree, happly⟩, rfl⟩ := all_singleton_iff.mp hall
      obtain ⟨_, _, _, ⟨rfl, rfl⟩, ⟨x, s₁, _, hx, hvalue, rfl⟩, rfl⟩ := hthree
      obtain ⟨_, ⟨rfl, rfl⟩, rfl⟩ := all_singleton_iff.mp hvalue
      exact ⟨rfl, x, _, r, hx, (hR.assign line x _ _).symm.trans happly⟩
    · rintro ⟨rfl, x, s₁, r, hx, hassign⟩
      refine ⟨[r], hcall.eval_iff.mpr ⟨rfl, all_singleton_iff.mpr ⟨r, ?_, rfl⟩⟩⟩
      exact ⟨_, _, _, s₁, ⟨rfl, rfl⟩, ⟨_, _, _, ⟨rfl, rfl⟩, ⟨x, s₁, _, hx,
        all_singleton_iff.mpr ⟨v, ⟨rfl, rfl⟩, rfl⟩, rfl⟩, rfl⟩, (hR.assign line x v s₁).trans hassign⟩

/-- The frame of a loop over some elements, with its result so far. -/
def elementsFrame (xs : List (Datum κ α)) (result : Datum κ α) : Frame κ α :=
  .function [(Code.items, some (.list xs)), (Code.result, some result)]

/-- The frame of a turn of a loop over elements. -/
def positionFrame (i : Nat) : Frame κ α := .comprehension [(Code.position, some (.int i))]

theorem find?_position (i : Nat) (ρ : Frames κ α) :
    Frames.find? Code.position (positionFrame i :: ρ) = some (.int i) := rfl

theorem find?_items (i : Nat) (xs : List (Datum κ α)) (r : Datum κ α) (ρ : Frames κ α) :
    Frames.find? Code.items (positionFrame i :: elementsFrame xs r :: ρ) = some (.list xs) := rfl

theorem bind_result (i : Nat) (xs : List (Datum κ α)) (r v : Datum κ α) (ρ : Frames κ α) :
    Frames.bind Code.result v (positionFrame i :: elementsFrame xs r :: ρ)
      = positionFrame i :: elementsFrame xs v :: ρ := rfl

theorem Frames.Clear.elements (hn : n.Valid) (hρ : ρ.Clear n) (xs : List (Datum κ α))
    (r : Datum κ α) : Frames.Clear n (elementsFrame xs r :: ρ) :=
  hρ.push hn (by simp [elementsFrame, Frame.slots]; decide)

theorem Frames.Clear.position (hn : n.Valid) (hρ : ρ.Clear n) (i : Nat) :
    Frames.Clear n (positionFrame i :: ρ) :=
  hρ.push hn (by simp [positionFrame, Frame.slots]; decide)

/-- Steps in front of a constant: all of them are evaluated, and the whole is false. -/
theorem eval_steps_iff {t : Term} {ts : List Term} {s s' : σ} {c : Datum κ α} {ρ' : Frames κ α} :
    Eval H ρ s (.and (.tuple (ts ++ [t])) (.bool false)) c ρ' s' ↔
      (∃ vs ρ₁ s₁ v, EvalAll H ρ s ts vs ρ₁ s₁ ∧ Eval H ρ₁ s₁ t v ρ' s') ∧ c = .bool false := by
  constructor
  · intro h
    cases h with
    | andLeft hleft hfalse =>
      cases hleft with
      | tuple hall =>
        obtain ⟨ws, ρ₁, s₁, rs, _, hlast, rfl⟩ := evalAll_append_iff.mp hall
        obtain ⟨v, _, _, vs, _, _, rfl⟩ := evalAll_cons_iff.mp hlast
        simp [Host.truthy, Datum.truthy] at hfalse
    | andRight hleft _ hright =>
      cases hleft with
      | tuple hall =>
        obtain ⟨ws, ρ₁, s₁, rs, hts, hlast, rfl⟩ := evalAll_append_iff.mp hall
        obtain ⟨v, ρ₂, s₂, vs, ht, hnil, rfl⟩ := evalAll_cons_iff.mp hlast
        obtain ⟨rfl, rfl, rfl⟩ := evalAll_nil_iff.mp hnil
        cases hright
        exact ⟨⟨ws, ρ₁, s₁, v, hts, ht⟩, rfl⟩
  · rintro ⟨⟨vs, ρ₁, s₁, v, hts, ht⟩, rfl⟩
    have hall : EvalAll H ρ s (ts ++ [t]) (vs ++ [v]) ρ' s' :=
      evalAll_append_iff.mpr ⟨vs, ρ₁, s₁, [v], hts, .cons ht .nil, rfl⟩
    exact .andRight (.tuple hall) (by simp [Host.truthy, Datum.truthy]) (.bool false)

theorem eval_bind_iff {x : Text} {t : Term} {A : Action κ α σ} (h : Acts H ρ t A) (s s' : σ)
    (v : Datum κ α) (ρ' : Frames κ α) :
    Eval H ρ s (.bind x t) v ρ' s' ↔ ρ' = ρ.bind x v ∧ A s v s' := by
  constructor
  · intro hbind
    cases hbind with
    | bind ht =>
      obtain ⟨rfl, hA⟩ := h.eval_iff.mp ht
      exact ⟨rfl, hA⟩
  · rintro ⟨rfl, hA⟩
    exact .bind (h.eval_iff.mpr ⟨rfl, hA⟩)

section

variable (hn : n.Valid) (hR : H.Offers n R) (hρ : ρ.Clear n) (line : Int) {body : Term}
  {A : Action κ α σ} (hbody : Denotes H n body A) {element? position? : Option (Term × Action κ α σ)}
  (he : ∀ e ∈ element?, Denotes H n e.1 e.2) (hp : ∀ p ∈ position?, Denotes H n p.1 p.2)
  {xs : List (Datum κ α)}

include hn hR hρ hbody he hp

/-- **One turn of a loop over a collection**: its filter binds the variables, runs the body and keeps
    its value as the result, and is never true. -/
theorem eval_turn_iff {i : Nat} {x : Datum κ α} (hx : xs[i]? = some x) (r c : Datum κ α)
    (s s' : σ) (ρ' : Frames κ α) :
    Eval H (positionFrame i :: elementsFrame xs r :: ρ) s
        (.turn n line body (element?.map Prod.fst) (position?.map Prod.fst)) c ρ' s' ↔
      ∃ v, Action.Turn R line A (element?.map Prod.snd) (position?.map Prod.snd) i x s v s' ∧
        c = .bool false ∧ ρ' = positionFrame i :: elementsFrame xs v :: ρ := by
  have hclear := (hρ.elements hn xs r).position hn i
  have hposition : Acts H _ (.name Code.position) (Action.Pure (.int i)) :=
    acts_name (find?_position i (elementsFrame xs r :: ρ))
  have helement : Acts H (positionFrame i :: elementsFrame xs r :: ρ)
      (.index (.name Code.items) (.name Code.position)) (Action.Pure x) := by
    refine ((acts_name (find?_items i xs r ρ)).index hposition).congr ⟨?_, ?_⟩
    · rintro ⟨_, _, _, _, ⟨rfl, rfl⟩, ⟨rfl, rfl⟩, hindex⟩
      have hitem : (Datum.itemAt? xs (i : Int)).map (·, _) = some (_, _) := hindex
      rw [Datum.itemAt?_natCast, hx] at hitem
      cases hitem
      exact ⟨rfl, rfl⟩
    · rintro ⟨rfl, rfl⟩
      refine ⟨_, _, _, _, ⟨rfl, rfl⟩, ⟨rfl, rfl⟩, ?_⟩
      show (Datum.itemAt? xs (i : Int)).map _ = _
      rw [Datum.itemAt?_natCast, hx]
      rfl
  have hbindPosition := evalAll_bindStep_iff hR hclear line hp hposition
  have hbindElement := evalAll_bindStep_iff hR hclear line he helement
  rw [Term.turn, Term.loopSteps, eval_steps_iff]
  constructor
  · rintro ⟨⟨_, ρ₁, s₁, v, hsteps, hbind⟩, rfl⟩
    obtain ⟨vs, ρ₂, s₂, ws, hvs, hws, rfl⟩ := evalAll_append_iff.mp hsteps
    obtain ⟨rfl, hP⟩ := (hbindPosition _ _ _).mp ⟨vs, hvs⟩
    obtain ⟨rfl, hE⟩ := (hbindElement _ _ _).mp ⟨ws, hws⟩
    obtain ⟨rfl, hA⟩ := (eval_bind_iff (hbody.acts hclear) _ _ _ _).mp hbind
    exact ⟨v, ⟨s₂, s₁, hP, hE, hA⟩, rfl, bind_result i xs r v ρ⟩
  · rintro ⟨v, ⟨s₁, s₂, hP, hE, hA⟩, rfl, rfl⟩
    obtain ⟨vs, hvs⟩ := (hbindPosition _ _ _).mpr ⟨rfl, hP⟩
    obtain ⟨ws, hws⟩ := (hbindElement _ _ _).mpr ⟨rfl, hE⟩
    have hbind := (eval_bind_iff (x := Code.result) (hbody.acts hclear) _ _ _ _).mpr ⟨rfl, hA⟩
    rw [bind_result] at hbind
    exact ⟨⟨_, _, _, v, evalAll_append_iff.mpr ⟨vs, _, _, ws, hvs, hws, rfl⟩, hbind⟩, rfl⟩

/-- **All turns of a loop over a collection**, from a position on. -/
theorem gathers_elements_iff {i : Nat} {rest : List (Datum κ α)} (hrest : xs.drop i = rest)
    (r : Datum κ α) (s : σ) (ws : List (Datum κ α)) (ρ' : Frames κ α) (s' : σ) :
    Gathers H .none Code.position
        (.turn n line body (element?.map Prod.fst) (position?.map Prod.fst))
        (.values ((List.range' i rest.length).map fun (k : Nat) => .int k))
        (elementsFrame xs r :: ρ) s ws ρ' s' ↔
      ∃ v, Action.Turns (Action.Turn R line A (element?.map Prod.snd) (position?.map Prod.snd))
          i rest r s v s' ∧ ws = [] ∧ ρ' = elementsFrame xs v :: ρ := by
  induction rest generalizing i r s ws with
  | nil =>
    constructor
    · intro h
      cases h with
      | done hd =>
        cases hd
        exact ⟨r, ⟨rfl, rfl⟩, rfl, rfl⟩
      | skip hd _ _ _ => cases hd
      | keep hd _ _ _ _ => cases hd
    · rintro ⟨v, ⟨rfl, rfl⟩, rfl, rfl⟩
      exact .done .exhausted
  | cons x rest ih =>
    have hx : xs[i]? = some x := by
      have := congrArg (·[0]?) hrest
      simpa using this
    have hdrop : xs.drop (i + 1) = rest := by
      rw [← List.drop_drop, hrest]
      rfl
    have hturn := eval_turn_iff hn hR hρ line hbody he hp hx
    have hvalues : (List.range' i (x :: rest).length).map (fun (k : Nat) => (.int k : Datum κ α))
        = .int i :: (List.range' (i + 1) rest.length).map fun (k : Nat) => .int k := by
      simp [List.range'_succ]
    rw [hvalues]
    constructor
    · intro h
      cases h with
      | done hd => cases hd
      | skip hd hfilter _ hgathers =>
        cases hd
        obtain ⟨v, hv, rfl, heq⟩ := (hturn _ _ _ _ _).mp hfilter
        cases heq
        obtain ⟨w, hw, rfl, rfl⟩ := (ih hdrop _ _ _).mp hgathers
        exact ⟨w, ⟨v, _, hv, hw⟩, rfl, rfl⟩
      | keep hd hfilter htrue _ _ =>
        cases hd
        obtain ⟨v, hv, rfl, heq⟩ := (hturn _ _ _ _ _).mp hfilter
        cases htrue
    · rintro ⟨w, ⟨v, s₁, hv, hw⟩, rfl, rfl⟩
      exact .skip .value ((hturn _ _ _ _ _).mpr ⟨v, hv, rfl, rfl⟩) rfl
        ((ih hdrop _ _ _).mpr ⟨w, hw, rfl, rfl⟩)

end

/-- The call of a built-in function of one argument whose value is known. -/
theorem acts_builtin {f : Text} {b : Builtin} {t : Term} {v w : Datum κ α} (hρ : ρ.Clear n)
    (hf : (f, b) ∈ Builtin.table) (h : Acts H ρ t (Action.Pure v))
    (hb : b.result? H.truth [v] = some w) : Acts H ρ (.call (.name f) [t]) (Action.Pure w) := by
  refine ((acts_name (hρ.builtin _ hf)).call (by simp) (.cons h .nil)).congr ⟨?_, ?_⟩
  · rintro ⟨_, _, _, _, ⟨rfl, rfl⟩, hall, happly⟩
    obtain ⟨_, ⟨rfl, rfl⟩, rfl⟩ := all_singleton_iff.mp hall
    simp only [Host.apply, hb, Option.map_some, Option.some.injEq, Prod.mk.injEq] at happly
    exact ⟨happly.1.symm, happly.2.symm⟩
  · rintro ⟨rfl, rfl⟩
    exact ⟨_, _, [v], _, ⟨rfl, rfl⟩, all_singleton_iff.mpr ⟨v, ⟨rfl, rfl⟩, rfl⟩,
      by simp [Host.apply, hb]⟩

/-- The source of a loop over a collection gives the positions of its elements. -/
theorem opens_positions_iff (hn : n.Valid) (hρ : ρ.Clear n) (xs : List (Datum κ α))
    (r : Datum κ α) (s : σ) (source : Source κ α) (ρ' : Frames κ α) (s' : σ) :
    Opens H (elementsFrame xs r :: ρ) s .positions source ρ' s' ↔
      source = .values ((List.range' 0 xs.length).map fun (k : Nat) => .int k) ∧
        ρ' = elementsFrame xs r :: ρ ∧ s' = s := by
  have hclear := hρ.elements hn xs r
  have hitems : Acts H (elementsFrame xs r :: ρ) (.name Code.items) (Action.Pure (.list xs)) :=
    acts_name rfl
  have hlen := acts_builtin (f := "len") (b := .len) hclear (by simp [Builtin.table]) hitems rfl
  have hrange := acts_builtin (f := "range") (b := .range) (w := .range xs.length) hclear
    (by simp [Builtin.table]) hlen rfl
  have hdrawn : (Datum.range xs.length : Datum κ α).drawn?
      = some ((List.range' 0 xs.length).map fun (k : Nat) => .int k) := by
    simp [Datum.drawn?, List.range_eq_range']
  constructor
  · intro h
    cases h with
    | values hv hvs =>
      obtain ⟨rfl, rfl, rfl⟩ := hrange.eval_iff.mp hv
      rw [hdrawn, Option.some.injEq] at hvs
      exact ⟨congrArg Source.values hvs.symm, rfl, rfl⟩
  · rintro ⟨rfl, rfl, rfl⟩
    exact .values (hrange.eval_iff.mpr ⟨rfl, rfl, rfl⟩) hdrawn

/-- A loop whose filter is never true has the result that is left in its frame. -/
theorem eval_loop_iff {t filter : Term} {x : Text} {source : Source κ α} {s : σ}
    {ρ₀ : Frames κ α} {A : Action κ α σ} (frame : Datum κ α → Frame κ α)
    (hframe : ∀ v, Frames.find? Code.result (frame v :: ρ) = some v)
    (hopens : ∀ source' ρ₁ s₁, Opens H ρ₀ s t source' ρ₁ s₁ ↔
      source' = source ∧ ρ₁ = ρ₀ ∧ s₁ = s)
    (hgathers : ∀ ws ρ' s', Gathers H .none x filter source ρ₀ s ws ρ' s' ↔
      ∃ v, A s v s' ∧ ws = [] ∧ ρ' = frame v :: ρ) (w : Datum κ α) (ρ' : Frames κ α) (s' : σ) :
    Eval H ρ₀ s (.loop x t filter) w ρ' s' ↔ A s w s' ∧ ρ' = frame w :: ρ := by
  constructor
  · intro hloop
    cases hloop with
    | orLeft hleft htrue =>
      cases hleft with
      | comprehension ho hg =>
        obtain ⟨rfl, rfl, rfl⟩ := (hopens _ _ _).mp ho
        obtain ⟨v, _, rfl, _⟩ := (hgathers _ _ _).mp hg
        cases htrue
    | orRight hleft _ hright =>
      cases hleft with
      | comprehension ho hg =>
        obtain ⟨rfl, rfl, rfl⟩ := (hopens _ _ _).mp ho
        obtain ⟨v, hv, rfl, rfl⟩ := (hgathers _ _ _).mp hg
        obtain ⟨hfind, rfl, rfl⟩ := eval_name_iff.mp hright
        obtain rfl : v = w := Option.some.inj ((hframe v).symm.trans hfind)
        exact ⟨hv, rfl⟩
  · rintro ⟨hw, rfl⟩
    exact .orRight (.comprehension ((hopens _ _ _).mpr ⟨rfl, rfl, rfl⟩)
      ((hgathers _ _ _).mpr ⟨w, hw, rfl, rfl⟩)) rfl (.name (hframe w))

/-- The elements of a collection, as a list. -/
theorem Denotes.elementList (hR : H.Offers n R) {t : Term} {A : Action κ α σ}
    (h : Denotes H n t A) :
    Denotes H n (.call (.runtimeMember n n.elements) [t]) fun s w s' =>
      ∃ v s₁ xs, A s v s₁ ∧ R.elements v s₁ = some (xs, s') ∧ w = .list xs := by
  refine ((DenotesAll.cons h .nil).callMember (by simp [Term.runtimeMember])
    (denotes_runtimeMember n.elements)).congr ⟨?_, ?_⟩
  · rintro ⟨_, s₁, hall, hcall⟩
    obtain ⟨v, hA, rfl⟩ := all_singleton_iff.mp hall
    obtain ⟨xs, hxs, rfl⟩ := map_fst_eq_some_iff.mp ((hR.elements v s₁).symm.trans hcall)
    exact ⟨v, s₁, xs, hA, hxs, rfl⟩
  · rintro ⟨v, s₁, xs, hA, hxs, rfl⟩
    exact ⟨[v], s₁, all_singleton_iff.mpr ⟨v, hA, rfl⟩,
      (hR.elements v s₁).trans (map_fst_eq_some_iff.mpr ⟨xs, hxs, rfl⟩)⟩

theorem Denotes.overElements (hn : n.Valid) (hR : H.Offers n R) (line : Int)
    {iterable body : Term} {I A : Action κ α σ} (hi : Denotes H n iterable I)
    (hbody : Denotes H n body A) {element? position? : Option (Term × Action κ α σ)}
    (he : ∀ e ∈ element?, Denotes H n e.1 e.2) (hp : ∀ p ∈ position?, Denotes H n p.1 p.2) :
    Denotes H n
      (.overElements n line iterable body (element?.map Prod.fst) (position?.map Prod.fst))
      (Action.Each R I
        (Action.Turn R line A (element?.map Prod.snd) (position?.map Prod.snd))) where
  assigned := by
    simp [Term.overElements, Term.runtimeMember, Term.assigned, Term.assignedAll, hi.assigned]
  acts {ρ} hρ := by
    have hnone : ∀ {o : Option (Term × Action κ α σ)}, (∀ p ∈ o, Denotes H n p.1 p.2) →
        ∀ t ∈ o.map Prod.fst, t.assigned = [] := by
      intro o ho t ht
      obtain ⟨p, hmem, rfl⟩ := Option.map_eq_some_iff.mp ht
      exact (ho p hmem).assigned
    have hsteps := Term.assignedAll_loopSteps n line hbody.assigned (hnone he) (hnone hp)
    have hdefault := ActsAll.cons (acts_text (H := H) (ρ := ρ) []) .nil
    have hlist := ActsAll.cons ((hi.elementList hR).acts hρ) .nil
    have hlocals : (Term.loop Code.position .positions (.turn n line body (element?.map Prod.fst)
        (position?.map Prod.fst))).locals [Code.items, Code.result] = ([] : Slots κ α) := by
      simp [Term.locals, Term.loop, Term.positions, Term.turn, Term.assigned, Term.assignedAll,
        hsteps]
    have hloop := fun xs s => eval_loop_iff (elementsFrame xs) (fun _ => rfl)
      (opens_positions_iff (H := H) hn hρ xs (.text []) s)
      (gathers_elements_iff hn hR hρ line hbody he hp List.drop_zero (.text []) s)
    refine ⟨fun {s w ρ' s'} => ?_⟩
    rw [Term.overElements, eval_callLambda_iff]
    constructor
    · rintro ⟨us, ρ₁, s₁, vs, ρ₂, s₂, slots, frame, hds, hts, hslots, heval⟩
      obtain ⟨rfl, hall⟩ := hdefault.eval_iff.mp hds
      obtain ⟨_, ⟨rfl, rfl⟩, rfl⟩ := all_singleton_iff.mp hall
      obtain ⟨rfl, hall⟩ := hlist.eval_iff.mp hts
      obtain ⟨_, ⟨v, s₁, xs, hI, hxs, rfl⟩, rfl⟩ := all_singleton_iff.mp hall
      cases hslots
      rw [hlocals] at heval
      obtain ⟨hturns, heq⟩ := (hloop xs s₂ _ _ _).mp heval
      cases heq
      exact ⟨rfl, v, s₁, xs, s₂, hI, hxs, hturns⟩
    · rintro ⟨rfl, v, s₁, xs, s₂, hI, hxs, hturns⟩
      refine ⟨[.text []], ρ', s, [.list xs], ρ', s₂, _, elementsFrame xs w, .cons (.text []) .nil,
        hlist.eval_iff.mpr ⟨rfl, ?_⟩, rfl, ?_⟩
      · exact all_singleton_iff.mpr ⟨_, ⟨v, s₁, xs, hI, hxs, rfl⟩, rfl⟩
      · rw [hlocals]
        exact (hloop xs s₂ _ _ _).mpr ⟨hturns, rfl⟩

/-! ## 2. Loops as long as a condition holds -/

/-- The frame of a loop with its result so far. -/
def resultFrame (result : Datum κ α) : Frame κ α := .function [(Code.result, some result)]

/-- The frame of a turn of a loop. -/
def turnFrame (v : Datum κ α) : Frame κ α := .comprehension [("_", some v)]

theorem Frames.Clear.result (hn : n.Valid) (hρ : ρ.Clear n) (r : Datum κ α) :
    Frames.Clear n (resultFrame r :: ρ) :=
  hρ.push hn (by simp [resultFrame, Frame.slots]; decide)

section

variable (hn : n.Valid) (hR : H.Offers n R) (hρ : ρ.Clear n) {test body : Term}
  {T A : Action κ α σ} (htest : Denotes H n test T) (hbody : Denotes H n body A)

include hn hR hρ htest

/-- The condition is polled in a function of its own. -/
theorem draws_polls_iff (r : Datum κ α) (s : σ) (next : Option (Datum κ α × Source κ α))
    (ρ' : Frames κ α) (s' : σ) :
    Draws H (.polls (.call (.name "bool") [test]) false) (resultFrame r :: ρ) s next ρ' s' ↔
      ρ' = resultFrame r :: ρ ∧ ∃ v, T s v s' ∧
        next = if v.truthy R.truth then
          some (.bool true, .polls (.call (.name "bool") [test]) false) else none := by
  have hclear : Frames.Clear n (.function [] :: resultFrame r :: ρ) :=
    (hρ.result hn r).push hn (by simp [Frame.slots])
  have hlocals : (Term.call (.name "bool") [test]).locals [] = ([] : Slots κ α) := by
    simp [Term.locals, Term.assigned, Term.assignedAll, htest.assigned]
  have hbool := (acts_name (H := H) (hclear.builtin ("bool", .bool) (by simp [Builtin.table]))).call
    (by simp) (.cons (htest.acts hclear) .nil)
  have hpoll : ∀ b ρ' s', Eval H (.function [] :: resultFrame r :: ρ) s
      (.call (.name "bool") [test]) (.bool b) ρ' s' ↔
      ρ' = .function [] :: resultFrame r :: ρ ∧ ∃ v, T s v s' ∧ v.truthy R.truth = b := by
    intro b ρ' s'
    rw [hbool.eval_iff]
    refine and_congr_right fun _ => ⟨?_, ?_⟩
    · rintro ⟨_, _, _, _, ⟨rfl, rfl⟩, hall, happly⟩
      obtain ⟨v, hv, rfl⟩ := all_singleton_iff.mp hall
      cases happly
      exact ⟨v, hv, (hR.truthy_eq v).symm⟩
    · rintro ⟨v, hv, rfl⟩
      refine ⟨_, _, [v], s', ⟨rfl, rfl⟩, all_singleton_iff.mpr ⟨v, hv, rfl⟩, ?_⟩
      rw [← hR.truthy_eq v]
      rfl
  constructor
  · intro h
    cases h with
    | stopped heval =>
      rw [hlocals] at heval
      obtain ⟨heq, v, hv, hfalse⟩ := (hpoll _ _ _).mp heval
      cases heq
      exact ⟨rfl, v, hv, by simp [hfalse]⟩
    | polled heval =>
      rw [hlocals] at heval
      obtain ⟨heq, v, hv, htrue⟩ := (hpoll _ _ _).mp heval
      cases heq
      exact ⟨rfl, v, hv, by simp [htrue]⟩
  · rintro ⟨rfl, v, hv, rfl⟩
    cases htruth : v.truthy R.truth with
    | true =>
      have heval := (hpoll true _ _).mpr ⟨rfl, v, hv, htruth⟩
      rw [← hlocals] at heval
      exact .polled heval
    | false =>
      have heval := (hpoll false _ _).mpr ⟨rfl, v, hv, htruth⟩
      rw [← hlocals] at heval
      exact .stopped heval

omit hR htest in
include hbody in
/-- **One turn of a loop**: its filter runs the body and keeps its value as the result, and is never
    true. -/
theorem eval_bindResult_iff (d r c : Datum κ α) (s s' : σ) (ρ' : Frames κ α) :
    Eval H (turnFrame d :: resultFrame r :: ρ) s (.and (.bind Code.result body) (.bool false)) c
        ρ' s' ↔
      ∃ v, A s v s' ∧ ρ' = turnFrame d :: resultFrame v :: ρ ∧
        c = if H.truthy v then .bool false else v := by
  have hclear : Frames.Clear n (turnFrame d :: resultFrame r :: ρ) :=
    (hρ.result hn r).push hn (by simp [turnFrame, Frame.slots]; decide)
  have hbind := eval_bind_iff (x := Code.result) (hbody.acts hclear)
  have hframe : ∀ v, Frames.bind Code.result v (turnFrame d :: resultFrame r :: ρ)
      = turnFrame d :: resultFrame v :: ρ := fun _ => rfl
  simp only [hframe] at hbind
  constructor
  · intro h
    cases h with
    | andLeft hleft hfalse =>
      obtain ⟨rfl, hA⟩ := (hbind _ _ _ _).mp hleft
      exact ⟨c, hA, rfl, by simp [hfalse]⟩
    | andRight hleft htrue hright =>
      obtain ⟨rfl, hA⟩ := (hbind _ _ _ _).mp hleft
      cases hright
      exact ⟨_, hA, rfl, by simp [htrue]⟩
  · rintro ⟨v, hA, rfl, rfl⟩
    have hleft := (hbind _ _ _ _).mpr ⟨rfl, hA⟩
    cases htruth : H.truthy v with
    | true => exact .andRight hleft htruth (.bool false)
    | false => exact .andLeft hleft htruth

include hbody

/-- The turns that a loop makes are those of its meaning. -/
theorem while_of_gathers {e filter : Term} {x : Text} {source : Source κ α} {ρ₀ ρ' : Frames κ α}
    {s s' : σ} {ws : List (Datum κ α)} {r : Datum κ α}
    (h : Gathers H e x filter source ρ₀ s ws ρ' s') (hx : x = "_")
    (hfilter : filter = .and (.bind Code.result body) (.bool false))
    (hsource : source = .polls (.call (.name "bool") [test]) false)
    (hframes : ρ₀ = resultFrame r :: ρ) :
    ∃ v, Action.While R T A r s v s' ∧ ws = [] ∧ ρ' = resultFrame v :: ρ := by
  match h with
  | .done hd =>
    subst hx hfilter hsource hframes
    obtain ⟨rfl, c, hc, hnext⟩ := (draws_polls_iff hn hR hρ htest _ _ _ _ _).mp hd
    cases htruth : c.truthy R.truth with
    | true => simp [htruth] at hnext
    | false => exact ⟨r, .stop hc htruth, rfl, rfl⟩
  | .skip hd heval _ hrest =>
    have ih := fun r => while_of_gathers (r := r) hrest hx hfilter
    subst hx hfilter hsource hframes
    obtain ⟨rfl, c, hc, hnext⟩ := (draws_polls_iff hn hR hρ htest _ _ _ _ _).mp hd
    cases htruth : c.truthy R.truth with
    | false => simp [htruth] at hnext
    | true =>
      simp only [htruth, if_true, Option.some.injEq, Prod.mk.injEq] at hnext
      obtain ⟨v, hv, heq, _⟩ := (eval_bindResult_iff hn hρ hbody _ _ _ _ _ _).mp heval
      obtain ⟨w, hw, rfl, rfl⟩ := ih v hnext.2 (List.cons.inj heq).2
      exact ⟨w, .turn hc htruth hv hw, rfl, rfl⟩
  | .keep hd heval htrue _ _ =>
    subst hx hfilter hsource hframes
    obtain ⟨rfl, _⟩ := (draws_polls_iff hn hR hρ htest _ _ _ _ _).mp hd
    obtain ⟨v, _, _, rfl⟩ := (eval_bindResult_iff hn hρ hbody _ _ _ _ _ _).mp heval
    cases htruth : H.truthy v with
    | true =>
      rw [htruth] at htrue
      cases htrue
    | false => simp [htruth] at htrue

/-- **All turns of a loop as long as a condition holds.** -/
theorem gathers_polls_iff (r : Datum κ α) (s : σ) (ws : List (Datum κ α)) (ρ' : Frames κ α)
    (s' : σ) :
    Gathers H .none "_" (.and (.bind Code.result body) (.bool false))
        (.polls (.call (.name "bool") [test]) false) (resultFrame r :: ρ) s ws ρ' s' ↔
      ∃ v, Action.While R T A r s v s' ∧ ws = [] ∧ ρ' = resultFrame v :: ρ := by
  constructor
  · exact fun h => while_of_gathers hn hR hρ htest hbody h rfl rfl rfl rfl
  · rintro ⟨v, hwhile, rfl, rfl⟩
    induction hwhile with
    | stop hc hfalse =>
      exact .done ((draws_polls_iff hn hR hρ htest _ _ _ _ _).mpr ⟨rfl, _, hc, by simp [hfalse]⟩)
    | @turn r c v w s s₁ s₂ s' hc htrue hv _ ih =>
      have hd := (draws_polls_iff hn hR hρ htest r s
        (some (.bool true, .polls (.call (.name "bool") [test]) false)) _ s₁).mpr
        ⟨rfl, c, hc, by simp [htrue]⟩
      have hfilter := (eval_bindResult_iff hn hρ hbody (.bool true) r _ s₁ s₂ _).mpr
        ⟨v, hv, rfl, rfl⟩
      refine .skip hd hfilter ?_ ih
      cases htruth : H.truthy v with
      | true => rfl
      | false => simpa using htruth

end

/-- The source of a loop as long as a condition holds polls the condition. -/
theorem opens_polls_iff (hρ : ρ.Clear n) {test : Term} (s : σ) (source : Source κ α)
    (ρ' : Frames κ α) (s' : σ) :
    Opens H ρ s (.polls test) source ρ' s' ↔
      source = .polls (.call (.name "bool") [test]) false ∧ ρ' = ρ ∧ s' = s := by
  constructor
  · intro h
    cases h with
    | values hv _ =>
      obtain ⟨_, _, _, _, _, _, hargs, _⟩ := (eval_call_iff (by simp)).mp hv
      obtain ⟨_, _, _, _, hlambda, _⟩ := evalAll_cons_iff.mp hargs
      exact absurd hlambda not_eval_lambda
    | polls _ hstop =>
      cases hstop
      exact ⟨rfl, rfl, rfl⟩
  · rintro ⟨rfl, rfl, rfl⟩
    exact .polls (hρ.builtin ("iter", .iter) (by simp [Builtin.table])) (.bool false)

theorem Denotes.whileHolds (hn : n.Valid) (hR : H.Offers n R) {test body : Term}
    {T A : Action κ α σ} (htest : Denotes H n test T) (hbody : Denotes H n body A) :
    Denotes H n (.whileHolds test body) (Action.While R T A (.text [])) where
  assigned := rfl
  acts {ρ} hρ := by
    have hlocals : (Term.loop "_" (.polls test) (.and (.bind Code.result body) (.bool false))).locals
        [Code.result] = ([] : Slots κ α) := by
      simp [Term.locals, Term.loop, Term.polls, Term.assigned, Term.assignedAll, hbody.assigned]
    have hloop := fun s => eval_loop_iff resultFrame (fun _ => rfl)
      (opens_polls_iff (hρ.result hn (.text [])) s)
      (gathers_polls_iff hn hR hρ htest hbody (.text []) s)
    refine ⟨fun {s w ρ' s'} => ?_⟩
    rw [Term.whileHolds, eval_callLambda_iff]
    constructor
    · rintro ⟨us, ρ₁, s₁, vs, ρ₂, s₂, slots, frame, hds, hts, hslots, heval⟩
      obtain ⟨rfl, hall⟩ := (ActsAll.cons (acts_text []) .nil).eval_iff.mp hds
      obtain ⟨_, ⟨rfl, rfl⟩, rfl⟩ := all_singleton_iff.mp hall
      obtain ⟨rfl, rfl, rfl⟩ := evalAll_nil_iff.mp hts
      cases hslots
      rw [hlocals] at heval
      obtain ⟨hwhile, heq⟩ := (hloop _ _ _ _).mp heval
      cases heq
      exact ⟨rfl, hwhile⟩
    · rintro ⟨rfl, hwhile⟩
      refine ⟨[.text []], ρ', s, [], ρ', s, _, resultFrame w, .cons (.text []) .nil, .nil, rfl, ?_⟩
      rw [hlocals]
      exact (hloop _ _ _ _).mpr ⟨hwhile, rfl⟩

end

end Target

end TemplateTree
