import TemplateTree.Proofs.Failing
import TemplateTree.Proofs.Json.Decoding
import TemplateTree.Proofs.Yaml.Scalar

/-!
# What stops the decoder of nodes

The decoder gives up on nodes that are malformed, and where a node asks for a value that does not exist
(`Nodes.Lacks`): a scalar with no value of its tag, or a mapping that is given the tag of a scalar.

* Merging changes the nodes on the way, but each stems from the one that was there at the start (`Node.Stems`,
  `Merge.gives_flattenFrom`).
* So every step of the decoder stops for a lack of the nodes as they were (`Decoder.Works`), and so does the
  decoder as a whole (`Nodes.fails_decode`).
* A document that is a scalar without a value always stops it (`Nodes.decode_eq_error`).
-/

namespace TemplateTree.Yaml

/-! ## 1. Values that do not exist -/

/-- **Some nodes ask for a value that does not exist**, for a fault. -/
inductive Nodes.Lacks (nodes : Array Node) : Fault → Prop
  /-- A scalar has no value of its tag. -/
  | scalar {i : Nat} {tag : Tag} {t : Text} {f : Fault} (h : Merge.nodeAt nodes i = .scalar tag t)
      (hno : NoValue tag t f) : Lacks nodes f
  /-- A mapping is tagged as a scalar, and the text that is its default has no value of that tag. -/
  | mapped {i j : Nat} {tag tag' : Tag} {entries : List (Nat × Nat)} {t : Text} {f : Fault}
      (h : Merge.nodeAt nodes i = .mapping tag entries) (hdefault : Merge.nodeAt nodes j = .scalar tag' t)
      (hno : NoValue tag t f) : Lacks nodes f
  /-- A mapping is tagged as a moment. -/
  | mappedMoment {i : Nat} {entries : List (Nat × Nat)}
      (h : Merge.nodeAt nodes i = .mapping .moment entries) : Lacks nodes .mappedMoment
  /-- A mapping is tagged as a scalar, or as a default value, and has no text. -/
  | endless {i : Nat} {tag : Tag} {entries : List (Nat × Nat)}
      (h : Merge.nodeAt nodes i = .mapping tag entries) (htag : tag.isScalar = true ∨ tag = .value) :
      Lacks nodes .endlessScalar

/-! ## 2. Nodes after merging -/

/-- A tag is kept, or the mark of a default value has become a text. -/
def Tag.Becomes (tag tag' : Tag) : Prop := tag' = tag ∨ tag = .value ∧ tag' = .text

/-- A node stems from another by merging: the entries of a mapping may be others, and the tag may have
    become a text. -/
inductive Node.Stems : Node → Node → Prop
  | scalar {tag tag' : Tag} (t : Text) (h : tag.Becomes tag') : Stems (.scalar tag t) (.scalar tag' t)
  | sequence {tag tag' : Tag} (items : List Nat) (h : tag.Becomes tag') :
      Stems (.sequence tag items) (.sequence tag' items)
  | mapping {tag tag' : Tag} (entries entries' : List (Nat × Nat)) (h : tag.Becomes tag') :
      Stems (.mapping tag entries) (.mapping tag' entries')

namespace Node

theorem Stems.refl (n : Node) : Stems n n := by
  cases n with
  | scalar tag t => exact .scalar t (.inl rfl)
  | sequence tag items => exact .sequence items (.inl rfl)
  | mapping tag entries => exact .mapping entries entries (.inl rfl)

theorem becomes_text {tag : Tag} (h : tag.Becomes .value) : tag.Becomes .text := by
  rcases h with h | h
  · exact .inr ⟨h.symm, rfl⟩
  · cases h.2

theorem Stems.retag {n n' : Node} (h : Stems n n') (htag : n'.tag = .value) : Stems n (n'.retag .text) := by
  cases h with
  | scalar t h =>
    cases htag
    exact .scalar t (becomes_text h)
  | sequence items h =>
    cases htag
    exact .sequence items (becomes_text h)
  | mapping entries entries' h =>
    cases htag
    exact .mapping entries entries' (becomes_text h)

end Node

namespace Merge

/-- Each node stems from the one with its number. -/
def Stemming (nodes current : Array Node) : Prop := ∀ i, (nodeAt nodes i).Stems (nodeAt current i)

variable {nodes current : Array Node}

theorem nodeAt_setIfInBounds (ns : Array Node) (i j : Nat) (n : Node) :
    nodeAt (ns.setIfInBounds i n) j = n ∧ i = j ∨ nodeAt (ns.setIfInBounds i n) j = nodeAt ns j := by
  unfold nodeAt
  rw [Array.getD_eq_getD_getElem?, Array.getD_eq_getD_getElem?, Array.getElem?_setIfInBounds]
  by_cases hij : i = j
  · rw [if_pos hij]
    by_cases hi : i < ns.size
    · rw [if_pos hi]
      exact .inl ⟨rfl, hij⟩
    · rw [if_neg hi, Array.getElem?_eq_none (by omega)]
      exact .inr rfl
  · rw [if_neg hij]
    exact .inr rfl

theorem nodeAt_modify (ns : Array Node) (i j : Nat) (f : Node → Node) :
    nodeAt (ns.modify i f) j = f (nodeAt ns j) ∧ i = j ∨ nodeAt (ns.modify i f) j = nodeAt ns j := by
  unfold nodeAt
  rw [Array.getD_eq_getD_getElem?, Array.getD_eq_getD_getElem?, Array.getElem?_modify]
  by_cases hij : i = j
  · rw [if_pos hij]
    cases hj : ns[j]? with
    | none => exact .inr rfl
    | some n => exact .inl ⟨rfl, hij⟩
  · rw [if_neg hij]
    exact .inr rfl

theorem stemming_next (h : Stemming nodes current) (position : Nat) (entries : List (Nat × Nat)) :
    Stemming nodes (next current position entries).2 := by
  induction entries generalizing current position with
  | nil => exact h
  | cons e rest ih =>
    obtain ⟨key, value⟩ := e
    unfold next
    split
    · exact h
    · rename_i htag
      refine ih (fun j => ?_) _
      rcases nodeAt_modify current key j (.retag .text) with ⟨hnode, rfl⟩ | hnode
      · rw [hnode]
        exact (h key).retag htag
      · rw [hnode]
        exact h j
    · exact ih h _

theorem stemming_setEntries (h : Stemming nodes current) (i : Nat) (entries : List (Nat × Nat)) :
    Stemming nodes (setEntries current i entries) := by
  unfold setEntries
  split
  · rename_i tag entries' hnode
    intro j
    rcases nodeAt_setIfInBounds current i j (.mapping tag entries) with ⟨hj, rfl⟩ | hj
    · have hi := h i
      rw [hnode] at hi
      rw [hj]
      generalize nodeAt nodes i = n at hi
      cases hi with
      | mapping es _ htag => exact .mapping es entries htag
    · rw [hj]
      exact h j
  · exact h

/-- **Merging is refused or keeps where each node stems from**, by induction on the merges that are left. -/
theorem gives_flattenFrom (merges i position : Nat) (found : List (Nat × Nat)) (h : Stemming nodes current) :
    Gives (· = .malformed) (Stemming nodes) (flattenFrom merges i position found current) := by
  induction merges generalizing i position found current with
  | zero => exact .ok (stemming_setEntries (stemming_next h _ _) _ _)
  | succ merges ih =>
    unfold flattenFrom
    have hnext := stemming_next h position ((entriesAt current i).drop position)
    split
    · rename_i ns hns
      rw [hns] at hnext
      exact .ok (stemming_setEntries hnext _ _)
    · rename_i place value ns hns
      rw [hns] at hnext
      have hset := stemming_setEntries hnext i ((entriesAt ns i).eraseIdx place)
      dsimp only
      generalize setEntries ns i ((entriesAt ns i).eraseIdx place) = ns' at hset ⊢
      split
      · exact (ih _ _ _ hset).bind fun _ hmerged => ih _ _ _ hmerged
      · refine Gives.bind (Q := fun state => Stemming nodes state.1) (.foldlM hset fun state j _ hstate => ?_)
          fun state hstate => ih _ _ _ hstate
        split
        · exact (ih _ _ _ hstate).bind fun _ hmerged => .ok hmerged
        · exact .error rfl
      · exact .error rfl

end Merge

/-! ## 3. Scalars -/

section

variable {nodes current : Array Node}

theorem fails_scalarValue (tag : Tag) (t : Text) :
    Fails (fun f => f = .malformed ∨ NoValue tag t f) (scalarValue tag t) := by
  intro f h
  by_cases hf : f = .malformed
  · exact .inl hf
  · exact .inr ((scalarValue_eq_error_iff hf).mp h)

/-- What has become a text has a value. -/
theorem Tag.Becomes.eq_of_noValue {tag tag' : Tag} (h : tag.Becomes tag') {t : Text} {f : Fault}
    (hno : NoValue tag' t f) : tag = tag' := by
  rcases h with h | ⟨_, rfl⟩
  · exact h.symm
  · cases hno

theorem exists_scalar {i : Nat} {tag : Tag} {t : Text} (h : Merge.Stemming nodes current)
    (hnode : Merge.nodeAt current i = .scalar tag t) :
    ∃ tag₀, Merge.nodeAt nodes i = .scalar tag₀ t ∧ tag₀.Becomes tag := by
  have hi := h i
  rw [hnode] at hi
  generalize Merge.nodeAt nodes i = n at hi ⊢
  cases hi with
  | scalar _ htag => exact ⟨_, rfl, htag⟩

theorem exists_mapping {i : Nat} {tag : Tag} {entries : List (Nat × Nat)} (h : Merge.Stemming nodes current)
    (hnode : Merge.nodeAt current i = .mapping tag entries) :
    ∃ tag₀ entries₀, Merge.nodeAt nodes i = .mapping tag₀ entries₀ ∧ tag₀.Becomes tag := by
  have hi := h i
  rw [hnode] at hi
  generalize Merge.nodeAt nodes i = n at hi ⊢
  cases hi with
  | mapping _ _ htag => exact ⟨_, _, rfl, htag⟩

/-- The text of a node is that of a scalar, which is found along default values if at all. -/
theorem gives_scalarText (current : Array Node) (steps i : Nat) :
    Gives (fun f => f = .malformed ∨ f = .endlessScalar)
      (fun t => ∃ j tag, Merge.nodeAt current j = .scalar tag t) (scalarText current steps i) := by
  induction steps generalizing i with
  | zero => exact .error (.inr rfl)
  | succ steps ih =>
    unfold scalarText
    split
    · rename_i tag t hnode
      exact .ok ⟨i, tag, hnode⟩
    · exact .error (.inl rfl)
    · split
      · exact ih _
      · exact .error (.inl rfl)

/-- **The scalar of a node** is missing for a lack of the nodes at the start. -/
theorem fails_scalarOf (h : Merge.Stemming nodes current) (i : Nat) :
    Fails (fun f => f = .malformed ∨ Nodes.Lacks nodes f) (scalarOf current i) := by
  unfold scalarOf textOf
  by_cases hscalar : (Merge.nodeAt current i).tag.isScalar = true
  · rw [if_pos hscalar]
    cases hnode : Merge.nodeAt current i with
    | scalar tag t =>
      obtain ⟨tag₀, hnode₀, htag⟩ := exists_scalar h hnode
      rw [scalarText, hnode]
      refine (fails_scalarValue tag t).imp fun f hf => hf.imp_right fun hno => ?_
      rw [← htag.eq_of_noValue hno] at hno
      exact .scalar hnode₀ hno
    | sequence tag items =>
      rw [scalarText, hnode]
      exact .error (.inl rfl)
    | mapping tag entries =>
      obtain ⟨tag₀, entries₀, hnode₀, htag⟩ := exists_mapping h hnode
      rw [hnode] at hscalar
      have htext := gives_scalarText current (current.size + 1) i
      refine Fails.bind (htext.fails.imp fun f hf => hf.imp_right fun hendless => ?_) fun t ht => ?_
      · rw [hendless]
        refine .endless hnode₀ (htag.imp (fun heq => ?_) fun hvalue => hvalue.1)
        rw [← heq]
        exact hscalar
      · obtain ⟨j, tag', hj⟩ := htext.holds t ht
        obtain ⟨tag'₀, hj₀, -⟩ := exists_scalar h hj
        split
        · rename_i heq
          cases heq
          rcases htag with rfl | hvalue
          · exact .error (.inr (.mappedMoment hnode₀))
          · cases hvalue.2
        · refine (fails_scalarValue tag t).imp fun f hf => hf.imp_right fun hno => ?_
          rw [← htag.eq_of_noValue hno] at hno
          exact .mapped hnode₀ hj₀ hno
  · rw [if_neg hscalar]
    exact .error (.inl rfl)

end

/-! ## 4. Steps of the decoder -/

namespace Decoder

/-- A step of the decoder stops for a lack of the nodes at the start, and keeps where each node stems from. -/
abbrev Works (nodes : Array Node) {α : Type} (m : Decode α) : Prop :=
  Keeps (fun d => Merge.Stemming nodes d.nodes) (fun f => f = .malformed ∨ Nodes.Lacks nodes f)
    (fun _ => True) m

variable {nodes : Array Node}

theorem works_malformed {α : Type} : Works nodes (throw .malformed : Decode α) := .throw (.inl rfl)

/-- Nothing is done behind a fault. -/
theorem works_malformed_bind {α β : Type} (f : α → Decode β) :
    Works nodes ((throw .malformed : Decode α) >>= f) :=
  Keeps.bind (Q := fun _ => False) (.throw (.inl rfl)) fun _ h => h.elim

theorem works_node (i : Nat) : Works nodes (node i) := Keeps.get.bind fun _ _ => .pure trivial

theorem works_fill (i : Nat) (level : Level Nat) : Works nodes (fill i level) := .update fun _ h => h

theorem works_meetScalar (i : Nat) : Works nodes (meetScalar i) := by
  refine Keeps.get.bind fun d hd => ?_
  refine (Keeps.lift (Q := fun _ => True) (fails_scalarOf hd i) fun _ _ => trivial).bind fun s _ => ?_
  exact (works_fill i _).bind fun _ _ => .ite (fun _ => .update fun _ h => h) fun _ => .pure trivial

theorem works_meet (i : Nat) : Works nodes (meet i) := by
  refine Keeps.get.bind fun d _ => .ite (fun _ => .pure trivial) fun _ => ?_
  refine Keeps.bind (Q := fun _ => True) (.update fun _ h => h) fun _ _ => (works_node i).bind fun _ _ => ?_
  exact .ite (fun _ => .update fun _ h => h) fun _ => works_meetScalar i

theorem works_meetEntry (entry : Nat × Nat) : Works nodes (meetEntry entry) :=
  (works_meet _).bind fun _ _ => (works_node _).bind fun _ _ =>
    .ite (fun _ => works_malformed_bind _) fun _ => works_meet _

theorem works_pair (i : Nat) : Works nodes (pair i) := by
  refine (works_node i).bind fun n _ => ?_
  split
  · exact (works_meet _).bind fun _ _ => (works_meet _).bind fun _ _ => .updateGet fun _ h => h
  · exact works_malformed

theorem works_fillCollection (i : Nat) : Works nodes (fillCollection i) := by
  refine (works_node i).bind fun n _ => ?_
  split
  · exact works_malformed
  · refine .ite (fun _ => ?_) fun _ => .ite (fun _ => ?_) fun _ => works_malformed
    · exact (Keeps.forM fun j _ => works_meet j).bind fun _ _ => works_fill i _
    · exact (Keeps.mapM fun j _ => works_pair j).bind fun _ _ => works_fill i _
  · refine .ite (fun _ => ?_) fun _ => works_malformed_bind _
    refine Keeps.get.bind fun d hd => ?_
    have hmerged := Merge.gives_flattenFrom d.merges i 0 [] hd
    refine (Keeps.lift (hmerged.fails.imp fun _ hf => .inl hf) hmerged.holds).bind fun current hcurrent => ?_
    refine Keeps.bind (Q := fun _ => True) (.set hcurrent) fun _ _ => ?_
    refine (Keeps.forM fun e _ => works_meetEntry e).bind fun _ _ => ?_
    exact Keeps.get.bind fun _ _ => works_fill i _

theorem works_fillAll (steps position : Nat) : Works nodes (fillAll steps position) := by
  induction steps generalizing position with
  | zero => exact .pure trivial
  | succ steps ih =>
    refine Keeps.get.bind fun d _ => ?_
    split
    · exact .pure trivial
    · exact (works_fillCollection _).bind fun _ _ => ih _

end Decoder

/-! ## 5. The decoder -/

/-- **The value of some nodes** is missing for a value that does not exist, unless they are malformed. -/
theorem Nodes.fails_decode (ns : Nodes) :
    Fails (fun f => f = .malformed ∨ Nodes.Lacks ns.nodes f) ns.decode := by
  have hwork : Decoder.Works ns.nodes (do
      Decoder.meet ns.root
      Decoder.fillAll ns.nodes.size 0) :=
    (Decoder.works_meet _).bind fun _ _ => Decoder.works_fillAll _ _
  exact (hwork.fails (.ofNodes ns.nodes) fun i => .refl _).bind fun _ _ => .ok _

theorem NoValue.ne_malformed {tag : Tag} {t : Text} {f : Fault} (h : NoValue tag t f) : f ≠ .malformed := by
  cases h <;> decide

theorem NoValue.isScalar {tag : Tag} {t : Text} {f : Fault} (h : NoValue tag t f) : tag.isScalar = true := by
  cases h <;> rfl

theorem NoValue.isCollection {tag : Tag} {t : Text} {f : Fault} (h : NoValue tag t f) :
    tag.isCollection = false := by
  cases h <;> rfl

theorem scalarOf_eq_error {nodes : Array Node} {i : Nat} {tag : Tag} {t : Text} {f : Fault}
    (hnode : Merge.nodeAt nodes i = .scalar tag t) (hno : NoValue tag t f) : scalarOf nodes i = .error f := by
  have htext : textOf nodes i = .ok t := by
    rw [textOf, hnode, if_pos (by exact hno.isScalar), scalarText, hnode]
  unfold scalarOf
  rw [htext, hnode]
  exact (scalarValue_eq_error_iff hno.ne_malformed).mpr hno

theorem Decoder.meetScalar_eq_error {d : Decoder} {i : Nat} {f : Fault} (h : scalarOf d.nodes i = .error f) :
    (meetScalar i).run d = .error f := by
  unfold meetScalar
  rw [StateT.run_bind, StateT.run_get, pure_bind]
  dsimp only
  rw [h]
  rfl

/-- **A document that is a scalar without a value** has none. -/
theorem Nodes.decode_eq_error {ns : Nodes} {tag : Tag} {t : Text} {f : Fault}
    (hroot : Merge.nodeAt ns.nodes ns.root = .scalar tag t) (hno : NoValue tag t f) :
    ns.decode = .error f := by
  have hlt : ns.root < ns.nodes.size := by
    by_contra hle
    rw [Merge.nodeAt, Array.getD_eq_getD_getElem?, Array.getElem?_eq_none (by omega)] at hroot
    cases hroot
    cases hno
  have hmet : (Decoder.ofNodes ns.nodes).met.getD ns.root true = false := by
    show (Array.replicate ns.nodes.size false).getD ns.root true = false
    rw [Array.getD_eq_getD_getElem?, Array.getElem?_replicate, if_pos hlt]
    rfl
  have hcollection : (Merge.nodeAt (Decoder.ofNodes ns.nodes).nodes ns.root).tag.isCollection = false := by
    show (Merge.nodeAt ns.nodes ns.root).tag.isCollection = false
    rw [hroot]
    exact hno.isCollection
  have hmeet : (Decoder.meet ns.root).run (.ofNodes ns.nodes) = .error f := by
    rw [Decoder.run_meet, hmet, hcollection, if_neg Bool.false_ne_true, if_neg Bool.false_ne_true]
    exact Decoder.meetScalar_eq_error (scalarOf_eq_error hroot hno)
  unfold decode
  dsimp only
  rw [StateT.run_bind, hmeet]
  rfl

end TemplateTree.Yaml
