import TemplateTree.Proofs.Json.Nodes
import TemplateTree.Yaml.Load

/-!
# Decoding ordinary nodes

Nodes without merges, default values, tags of their own and repeated keys (`Yaml.Seen`) are decoded to
what they look like: the decoder meets every node that it can reach and shows it as it is
(`Yaml.decode_ordinary`).
-/

namespace TemplateTree.Yaml

/-! ## 1. Ordinary nodes -/

/-- The text of a node that is a scalar. -/
def keyText (ns : Array Node) (i : Nat) : Text :=
  match Merge.nodeAt ns i with
  | .scalar _ t => t
  | _ => []

/-- An ordinary node, and what is seen at it. The keys of a mapping are texts, none of which is
    repeated. -/
inductive Seen (ns : Array Node) : Node → Level Nat → Prop
  | scalar {tag : Tag} {t : Text} {s : Scalar} (htag : tag.isScalar = true)
      (hvalue : scalarValue tag t = .ok s) (hnan : s ≠ .float .nan) :
      Seen ns (.scalar tag t) (.scalar s)
  | sequence {items : List Nat} (hitems : ∀ c ∈ items, c < ns.size) :
      Seen ns (.sequence .sequence items) (.list items)
  | mapping {entries : List (Nat × Nat)}
      (hkeys : ∀ e ∈ entries, Merge.nodeAt ns e.1 = .scalar .text (keyText ns e.1))
      (hvalues : ∀ e ∈ entries, e.2 < ns.size)
      (hnodup : (entries.map fun e => keyText ns e.1).Nodup) :
      Seen ns (.mapping .mapping entries)
        (.mapping (entries.map fun e => (.text (keyText ns e.1), e.2)))

/-- The parts that are seen at a level. -/
def children : Level Nat → List Nat
  | .list items => items
  | .mapping entries => entries.map Prod.snd
  | _ => []

theorem lt_size_of_nodeAt {ns : Array Node} {i : Nat} {t : Text}
    (h : Merge.nodeAt ns i = .scalar .text t) : i < ns.size := by
  by_contra hle
  rw [Merge.nodeAt, Array.getD_eq_getD_getElem?, Array.getElem?_eq_none (by omega)] at h
  cases h

/-! ## 2. Merges -/

namespace Merge

variable {ns : Array Node} {entries : List (Nat × Nat)}
  (hkeys : ∀ e ∈ entries, nodeAt ns e.1 = .scalar .text (keyText ns e.1))

include hkeys

theorem countP_isMerge : entries.countP (isMerge ns) = 0 := by
  rw [List.countP_eq_zero]
  intro e he
  rw [isMerge, hkeys e he]
  exact Bool.false_ne_true

theorem next_ordinary (position : Nat) : next ns position entries = (none, ns) := by
  induction entries generalizing position with
  | nil => rfl
  | cons e entries ih =>
    obtain ⟨key, value⟩ := e
    have hkey : nodeAt ns key = .scalar .text (keyText ns key) := hkeys (key, value) (by simp)
    rw [next, hkey]
    exact ih (fun e he => hkeys e (by simp [he])) (position + 1)

omit hkeys in
theorem setEntries_self (i : Nat) : setEntries ns i (entriesAt ns i) = ns := by
  unfold setEntries entriesAt
  cases hnode : nodeAt ns i with
  | scalar tag t => rfl
  | sequence tag items => rfl
  | mapping tag entries =>
    dsimp only
    rw [← hnode]
    apply Array.ext (by simp)
    intro k hk hk'
    by_cases hik : i = k
    · subst hik
      simp [nodeAt, Array.getD_eq_getD_getElem?, hk']
    · exact Array.getElem_setIfInBounds_ne hk' hik

theorem flatten_ordinary {i : Nat} {tag : Tag} (hnode : nodeAt ns i = .mapping tag entries) :
    flatten 0 i ns = .ok ns := by
  have hentries : entriesAt ns i = entries := by rw [entriesAt, hnode]
  have hnext : next ns 0 ((entriesAt ns i).drop 0) = (none, ns) := by
    rw [List.drop_zero, hentries]
    exact next_ordinary hkeys 0
  rw [flatten, flattenFrom, hnext]
  exact congrArg Except.ok (setEntries_self i)

end Merge

section

variable {ns : Array Node} {levels : Nat → Level Nat}
  (hns : ∀ i < ns.size, Seen ns (Merge.nodeAt ns i) (levels i))

include hns

theorem seen_of_mem {n : Node} (hn : n ∈ ns.toList) : ∃ level, Seen ns n level := by
  obtain ⟨i, hi, hget⟩ := List.mem_iff_getElem.mp hn
  refine ⟨levels i, ?_⟩
  have := hns i (by simpa using hi)
  rw [Merge.nodeAt, Array.getD_eq_getD_getElem?] at this
  rw [← hget]
  simpa [Array.getElem?_eq_getElem (by simpa using hi)] using this

/-- Ordinary nodes have no merges. -/
theorem count_ordinary : Merge.count ns = 0 := by
  rw [Merge.count, ← Array.foldl_toList]
  refine List.foldlRecOn (motive := fun n => n = 0) ns.toList _ rfl fun count hcount n hn => ?_
  obtain ⟨level, hseen⟩ := seen_of_mem hns hn
  cases hseen with
  | scalar htag hvalue hnan => exact hcount
  | sequence hitems => exact hcount
  | mapping hkeys hvalues hnodup =>
    show count + _ = 0
    rw [hcount, Merge.countP_isMerge hkeys]

end

/-! ## 3. Meeting nodes -/

namespace Decoder

/-- What the decoder knows of ordinary nodes while it fills the collections of the queue from a
    position on. A scalar is shown as soon as it has been met, a collection waits in the queue, and in
    front of the position everything that a collection refers to has been met. -/
structure Sound (ns : Array Node) (levels : Nat → Level Nat) (position : Nat) (d : Decoder) :
    Prop where
  nodes_eq : d.nodes = ns
  merges_eq : d.merges = 0
  met_size : d.met.size = ns.size
  parts_size : d.parts.size = ns.size
  position_le : position ≤ d.queue.toList.length
  queue_nodup : d.queue.toList.Nodup
  queued : ∀ i ∈ d.queue.toList,
    d.met[i]? = some true ∧ (Merge.nodeAt ns i).tag.isCollection = true
  waits : ∀ i : Nat, d.met[i]? = some true → (Merge.nodeAt ns i).tag.isCollection = true →
    i ∈ d.queue.toList
  shown : ∀ i : Nat, d.met[i]? = some true → (Merge.nodeAt ns i).tag.isCollection = false →
    d.parts[i]? = some (levels i)
  filled : ∀ k < position, ∀ i, d.queue.toList[k]? = some i →
    d.parts[i]? = some (levels i) ∧ ∀ c ∈ children (levels i), d.met[c]? = some true

/-- What is met stays met, and the queue only gets longer. -/
structure Grows (d d' : Decoder) : Prop where
  met : ∀ i : Nat, d.met[i]? = some true → d'.met[i]? = some true
  queue : d.queue.toList <+: d'.queue.toList

theorem Grows.refl (d : Decoder) : Grows d d := ⟨fun _ h => h, List.prefix_refl _⟩

theorem Grows.trans {d d' d'' : Decoder} (h : Grows d d') (h' : Grows d' d'') : Grows d d'' :=
  ⟨fun i hi => h'.met i (h.met i hi), h.queue.trans h'.queue⟩

theorem Grows.getElem? {d d' : Decoder} (h : Grows d d') {k i : Nat}
    (hk : d.queue.toList[k]? = some i) : d'.queue.toList[k]? = some i := by
  obtain ⟨more, hmore⟩ := h.queue
  rw [← hmore, List.getElem?_append_left (List.getElem?_eq_some_iff.mp hk).1, hk]

/-- What it takes to meet a node. -/
theorem run_meet (d : Decoder) (i : Nat) :
    (meet i).run d =
      if d.met.getD i true then .ok ((), d)
      else if (Merge.nodeAt d.nodes i).tag.isCollection then
        .ok ((), { d with met := d.met.setIfInBounds i true, queue := d.queue.push i })
      else (meetScalar i).run { d with met := d.met.setIfInBounds i true } := by
  have hunfold : (meet i).run d = (do
      unless d.met.getD i true do
        modify fun d => { d with met := d.met.setIfInBounds i true }
        if (← node i).tag.isCollection then
          modify fun d => { d with queue := d.queue.push i }
        else
          meetScalar i : Decode Unit).run d := rfl
  rw [hunfold]
  cases d.met.getD i true with
  | true => rfl
  | false =>
    show (if (Merge.nodeAt d.nodes i).tag.isCollection = true then
        modify fun d => { d with queue := d.queue.push i }
      else meetScalar i : Decode Unit).run { d with met := d.met.setIfInBounds i true } = _
    rw [if_neg Bool.false_ne_true]
    split <;> rfl

theorem scalarOf_eq {ns : Array Node} {i : Nat} {tag : Tag} {t : Text} {s : Scalar}
    (hnode : Merge.nodeAt ns i = .scalar tag t) (htag : tag.isScalar = true)
    (hvalue : scalarValue tag t = .ok s) : scalarOf ns i = .ok s := by
  have htext : textOf ns i = .ok t := by
    rw [textOf, hnode, if_pos (by exact htag), scalarText, hnode]
  rw [scalarOf, htext]
  simp only [bind, Except.bind, hnode]
  exact hvalue

theorem run_meetScalar {d : Decoder} {i : Nat} {s : Scalar} (hscalar : scalarOf d.nodes i = .ok s)
    (hnan : s ≠ .float .nan) :
    (meetScalar i).run d = .ok ((), { d with parts := d.parts.setIfInBounds i (.scalar s) }) := by
  have hunfold : (meetScalar i).run d = (do
      let s ← (scalarOf d.nodes i : Except Fault Scalar)
      fill i (.scalar s)
      if s = .float .nan ∧ !((textOf d.nodes i).toOption.any isNanWord) then
        modify fun d => { d with unequal := i :: d.unequal } : Decode Unit).run d := rfl
  rw [hunfold, hscalar]
  show (if s = .float .nan ∧ (!((textOf d.nodes i).toOption.any isNanWord)) = true then
      modify fun d => { d with unequal := i :: d.unequal }
    else pure () : Decode Unit).run { d with parts := d.parts.setIfInBounds i (.scalar s) } = _
  rw [if_neg fun h => hnan h.1]
  rfl

variable {ns : Array Node} {levels : Nat → Level Nat}


theorem getElem?_setIfInBounds_true {met : Array Bool} {i c : Nat} (hi : i < met.size) :
    (met.setIfInBounds i true)[c]? = some true ↔ c = i ∨ met[c]? = some true := by
  rw [Array.getElem?_setIfInBounds]
  by_cases hc : i = c
  · subst hc
    simp [hi]
  · simp [hc, Ne.symm hc]

section

variable {position : Nat} {d : Decoder} (hd : Sound ns levels position d) {i : Nat}
  (hi : i < ns.size) (hmet : d.met[i]? ≠ some true)

include hd hi hmet

theorem sound_collection (hcollection : (Merge.nodeAt ns i).tag.isCollection = true) :
    Sound ns levels position
      { d with met := d.met.setIfInBounds i true, queue := d.queue.push i } := by
  have hmore (c : Nat) :
      (d.met.setIfInBounds i true)[c]? = some true ↔ c = i ∨ d.met[c]? = some true :=
    getElem?_setIfInBounds_true (by rw [hd.met_size]; exact hi)
  have hqueue : (d.queue.push i).toList = d.queue.toList ++ [i] := Array.toList_push
  refine ⟨hd.nodes_eq, hd.merges_eq, ?_, hd.parts_size, ?_, ?_, ?_, ?_, ?_, ?_⟩
  · rw [Array.size_setIfInBounds]
    exact hd.met_size
  · rw [hqueue, List.length_append]
    exact Nat.le_add_right_of_le hd.position_le
  · rw [hqueue, List.nodup_append]
    refine ⟨hd.queue_nodup, by simp, ?_⟩
    intro c hc c' hc' heq
    rw [List.mem_singleton.mp hc'] at heq
    exact hmet (by rw [← heq]; exact (hd.queued c hc).1)
  · intro c hc
    rw [hqueue] at hc
    rcases List.mem_append.mp hc with hc | hc
    · exact ⟨(hmore c).mpr (.inr (hd.queued c hc).1), (hd.queued c hc).2⟩
    · rw [List.mem_singleton.mp hc]
      exact ⟨(hmore i).mpr (.inl rfl), hcollection⟩
  · intro c hc htag
    rw [hqueue]
    rcases (hmore c).mp hc with rfl | hc
    · simp
    · exact List.mem_append_left _ (hd.waits c hc htag)
  · intro c hc htag
    rcases (hmore c).mp hc with rfl | hc
    · rw [hcollection] at htag
      cases htag
    · exact hd.shown c hc htag
  · intro k hk c hc
    rw [hqueue, List.getElem?_append_left (Nat.lt_of_lt_of_le hk hd.position_le)] at hc
    obtain ⟨hpart, hchildren⟩ := hd.filled k hk c hc
    exact ⟨hpart, fun x hx => (hmore x).mpr (.inr (hchildren x hx))⟩

theorem sound_scalar (hscalar : (Merge.nodeAt ns i).tag.isCollection = false) :
    Sound ns levels position
      { d with
        met := d.met.setIfInBounds i true
        parts := d.parts.setIfInBounds i (levels i) } := by
  have hmore (c : Nat) :
      (d.met.setIfInBounds i true)[c]? = some true ↔ c = i ∨ d.met[c]? = some true :=
    getElem?_setIfInBounds_true (by rw [hd.met_size]; exact hi)
  have hparts {c : Nat} (hc : i ≠ c) :
      (d.parts.setIfInBounds i (levels i))[c]? = d.parts[c]? :=
    Array.getElem?_setIfInBounds_ne hc
  have hne {c : Nat} (hc : d.met[c]? = some true) : i ≠ c := by
    intro heq
    rw [heq] at hmet
    exact hmet hc
  refine ⟨hd.nodes_eq, hd.merges_eq, ?_, ?_, hd.position_le, hd.queue_nodup, ?_, ?_, ?_,
    ?_⟩
  · rw [Array.size_setIfInBounds]
    exact hd.met_size
  · rw [Array.size_setIfInBounds]
    exact hd.parts_size
  · exact fun c hc => ⟨(hmore c).mpr (.inr (hd.queued c hc).1), (hd.queued c hc).2⟩
  · intro c hc htag
    rcases (hmore c).mp hc with rfl | hc
    · rw [hscalar] at htag
      cases htag
    · exact hd.waits c hc htag
  · intro c hc htag
    rcases (hmore c).mp hc with rfl | hc
    · rw [Array.getElem?_setIfInBounds_self_of_lt (by rw [hd.parts_size]; exact hi)]
    · rw [hparts (hne hc)]
      exact hd.shown c hc htag
  · intro k hk c hc
    obtain ⟨hpart, hchildren⟩ := hd.filled k hk c hc
    have hqueued := (hd.queued c (List.mem_of_getElem? hc)).1
    rw [hparts (hne hqueued)]
    exact ⟨hpart, fun x hx => (hmore x).mpr (.inr (hchildren x hx))⟩

end

/-- **Meeting a node.** -/
theorem exists_meet (hns : ∀ i < ns.size, Seen ns (Merge.nodeAt ns i) (levels i)) {position : Nat}
    {d : Decoder} (hd : Sound ns levels position d) {i : Nat} (hi : i < ns.size) :
    ∃ d', Runs (meet i) d () d' ∧ Sound ns levels position d' ∧ Grows d d' ∧
      d'.met[i]? = some true := by
  have himet : i < d.met.size := by rw [hd.met_size]; exact hi
  have hmore (c : Nat) :
      (d.met.setIfInBounds i true)[c]? = some true ↔ c = i ∨ d.met[c]? = some true :=
    getElem?_setIfInBounds_true himet
  unfold Runs
  rw [run_meet]
  by_cases hmet : d.met[i]? = some true
  · have hget : d.met.getD i true = true := by rw [Array.getD_eq_getD_getElem?, hmet]; rfl
    rw [if_pos hget]
    exact ⟨d, rfl, hd, .refl d, hmet⟩
  have hget : ¬d.met.getD i true = true := by
    intro h
    rw [Array.getD_eq_getD_getElem?, Array.getElem?_eq_getElem himet] at h
    exact hmet (by rw [Array.getElem?_eq_getElem himet]; exact congrArg some h)
  rw [if_neg hget]
  by_cases hcollection : (Merge.nodeAt ns i).tag.isCollection = true
  · rw [if_pos (by rw [hd.nodes_eq]; exact hcollection)]
    exact ⟨_, rfl, sound_collection hd hi hmet hcollection,
      ⟨fun c hc => (hmore c).mpr (.inr hc), by simp⟩, (hmore i).mpr (.inl rfl)⟩
  · rw [if_neg (by rw [hd.nodes_eq]; exact hcollection)]
    have hscalar : (Merge.nodeAt ns i).tag.isCollection = false := Bool.eq_false_iff.mpr hcollection
    have hsound := sound_scalar hd hi hmet hscalar
    have hseen := hns i hi
    generalize hnode : Merge.nodeAt ns i = n at hseen hcollection
    generalize levels i = level at hseen hsound
    cases hseen with
    | scalar htag hvalue hnan =>
      have hrun := run_meetScalar (d := { d with met := d.met.setIfInBounds i true })
        (by dsimp only; rw [hd.nodes_eq]; exact scalarOf_eq hnode htag hvalue) hnan
      exact ⟨_, hrun, hsound, ⟨fun c hc => (hmore c).mpr (.inr hc), List.prefix_refl _⟩,
        (hmore i).mpr (.inl rfl)⟩
    | sequence hitems => exact absurd rfl hcollection
    | mapping hkeys hvalues hnodup => exact absurd rfl hcollection

section

variable (hns : ∀ i < ns.size, Seen ns (Merge.nodeAt ns i) (levels i)) {position : Nat}

include hns

theorem exists_meetItems {items : List Nat} (hitems : ∀ c ∈ items, c < ns.size) {d : Decoder}
    (hd : Sound ns levels position d) :
    ∃ d', Runs (items.forM meet) d () d' ∧ Sound ns levels position d' ∧ Grows d d' ∧
      ∀ c ∈ items, d'.met[c]? = some true := by
  induction items generalizing d with
  | nil => exact ⟨d, rfl, hd, .refl d, by simp⟩
  | cons i items ih =>
    obtain ⟨a, ha, hasound, hagrows, hamet⟩ := exists_meet hns hd (hitems i (by simp))
    obtain ⟨d', hd', hsound, hgrows, hmet⟩ := ih (fun c hc => hitems c (by simp [hc])) hasound
    refine ⟨d', ha.bind hd', hsound, hagrows.trans hgrows, ?_⟩
    intro c hc
    rcases List.mem_cons.mp hc with rfl | hc
    · exact hgrows.met c hamet
    · exact hmet c hc

theorem exists_meetEntry {e : Nat × Nat} {key : Text}
    (hkey : Merge.nodeAt ns e.1 = .scalar .text key) (hvalue : e.2 < ns.size) {d : Decoder}
    (hd : Sound ns levels position d) :
    ∃ d', Runs (meetEntry e) d () d' ∧ Sound ns levels position d' ∧ Grows d d' ∧
      d'.met[e.1]? = some true ∧ d'.met[e.2]? = some true := by
  obtain ⟨a, ha, hasound, hagrows, hamet⟩ := exists_meet hns hd (lt_size_of_nodeAt hkey)
  obtain ⟨d', hd', hsound, hgrows, hmet⟩ := exists_meet hns hasound hvalue
  refine ⟨d', ha.bind ?_, hsound, hagrows.trans hgrows, hgrows.met _ hamet, hmet⟩
  have hnode : (Merge.nodeAt a.nodes e.1).tag.isCollection = false := by
    rw [hasound.nodes_eq, hkey]
    rfl
  have hchecked : Runs (do
      if (Merge.nodeAt a.nodes e.1).tag.isCollection then
        throw .malformed
      meet e.2 : Decode Unit) a () d' := by
    rw [hnode]
    exact hd'
  exact hchecked

theorem exists_meetEntries {entries : List (Nat × Nat)}
    (hkeys : ∀ e ∈ entries, Merge.nodeAt ns e.1 = .scalar .text (keyText ns e.1))
    (hvalues : ∀ e ∈ entries, e.2 < ns.size) {d : Decoder} (hd : Sound ns levels position d) :
    ∃ d', Runs (entries.forM meetEntry) d () d' ∧ Sound ns levels position d' ∧ Grows d d' ∧
      ∀ e ∈ entries, d'.met[e.1]? = some true ∧ d'.met[e.2]? = some true := by
  induction entries generalizing d with
  | nil => exact ⟨d, rfl, hd, .refl d, by simp⟩
  | cons e entries ih =>
    obtain ⟨a, ha, hasound, hagrows, hakey, havalue⟩ :=
      exists_meetEntry hns (hkeys e (by simp)) (hvalues e (by simp)) hd
    obtain ⟨d', hd', hsound, hgrows, hmet⟩ := ih (fun c hc => hkeys c (by simp [hc]))
      (fun c hc => hvalues c (by simp [hc])) hasound
    refine ⟨d', ha.bind hd', hsound, hagrows.trans hgrows, ?_⟩
    intro c hc
    rcases List.mem_cons.mp hc with rfl | hc
    · exact ⟨hgrows.met _ hakey, hgrows.met _ havalue⟩
    · exact hmet c hc

end

/-! ## 4. Keys -/

section

variable {d : Decoder}

theorem sameKey_texts {a b : Nat} {t u : Text} (ha : d.scalarAt a = .text t)
    (hb : d.scalarAt b = .text u) (htu : t ≠ u) : d.sameKey a b = false := by
  have hab : (a == b) = false := by
    rw [beq_eq_false_iff_ne]
    intro heq
    rw [heq, hb] at ha
    exact htu (Scalar.text.inj ha).symm
  have hscalars : (Scalar.text t).sameKey (.text u) = false := by
    show (Scalar.text t == .text u) = false
    rw [beq_eq_false_iff_ne]
    exact fun h => htu (Scalar.text.inj h)
  rw [sameKey, hab, ha, hb, hscalars]
  rfl

theorem insert_new {e : Nat × Nat} {known : List (Nat × Nat)}
    (h : ∀ k ∈ known, d.sameKey k.1 e.1 = false) : d.insert e known = known ++ [e] := by
  induction known with
  | nil => rfl
  | cons k known ih =>
    obtain ⟨key, value⟩ := k
    have hkey : d.sameKey key e.1 = false := h (key, value) (by simp)
    rw [insert, hkey, ih fun k hk => h k (by simp [hk])]
    rfl

/-- Entries with texts as keys, of which none is repeated, stay as they are. -/
theorem foldl_insert {entries : List (Nat × Nat)} {key : Nat → Text}
    (hkeys : ∀ e ∈ entries, d.scalarAt e.1 = .text (key e.1)) (known : List (Nat × Nat))
    (hknown : ∀ e ∈ known, d.scalarAt e.1 = .text (key e.1))
    (hnodup : ((known ++ entries).map fun e => key e.1).Nodup) :
    entries.foldl (fun known e => d.insert e known) known = known ++ entries := by
  induction entries generalizing known with
  | nil => simp
  | cons e entries ih =>
    have hnew : ∀ k ∈ known, d.sameKey k.1 e.1 = false := by
      intro k hk
      apply sameKey_texts (hknown k hk) (hkeys e (by simp))
      rw [List.map_append, List.nodup_append] at hnodup
      exact hnodup.2.2 _ (List.mem_map_of_mem hk) _ (List.mem_map_of_mem (by simp))
    rw [List.foldl_cons, insert_new hnew, ih (fun x hx => hkeys x (by simp [hx]))]
    · simp
    · intro x hx
      rcases List.mem_append.mp hx with hx | hx
      · exact hknown x hx
      · rw [List.mem_singleton.mp hx]
        exact hkeys e (by simp)
    · simpa using hnodup

theorem distinct_eq {entries : List (Nat × Nat)} (key : Nat → Text)
    (hkeys : ∀ e ∈ entries, d.scalarAt e.1 = .text (key e.1))
    (hnodup : (entries.map fun e => key e.1).Nodup) :
    d.distinct entries = entries.map fun e => (.text (key e.1), e.2) := by
  rw [distinct, foldl_insert hkeys [] (by simp) hnodup, List.nil_append]
  exact List.map_congr_left fun e he => by rw [hkeys e he]

end

/-! ## 5. Filling collections -/

/-- A collection is filled when everything that it refers to has been met. -/
theorem sound_fill {position : Nat} {d : Decoder} (hd : Sound ns levels position d) {i : Nat}
    (hi : d.queue.toList[position]? = some i)
    (hchildren : ∀ c ∈ children (levels i), d.met[c]? = some true) :
    Sound ns levels (position + 1) { d with parts := d.parts.setIfInBounds i (levels i) } := by
  obtain ⟨hmet, hcollection⟩ := hd.queued i (List.mem_of_getElem? hi)
  have hlt : i < d.parts.size := by
    rw [hd.parts_size, ← hd.met_size]
    exact (Array.getElem?_eq_some_iff.mp hmet).1
  have hparts {c : Nat} (hc : i ≠ c) : (d.parts.setIfInBounds i (levels i))[c]? = d.parts[c]? :=
    Array.getElem?_setIfInBounds_ne hc
  have hself : (d.parts.setIfInBounds i (levels i))[i]? = some (levels i) :=
    Array.getElem?_setIfInBounds_self_of_lt hlt
  refine ⟨hd.nodes_eq, hd.merges_eq, hd.met_size, ?_, ?_, hd.queue_nodup, hd.queued, hd.waits, ?_, ?_⟩
  · rw [Array.size_setIfInBounds]
    exact hd.parts_size
  · exact (List.getElem?_eq_some_iff.mp hi).1
  · intro c hc htag
    have hne : i ≠ c := by
      intro heq
      rw [heq, htag] at hcollection
      cases hcollection
    rw [hparts hne]
    exact hd.shown c hc htag
  · intro k hk c hc
    by_cases heq : i = c
    · subst heq
      exact ⟨hself, hchildren⟩
    · rw [hparts heq]
      refine hd.filled k ?_ c hc
      have hne : k ≠ position := by
        intro hk
        rw [hk, hi] at hc
        exact heq (Option.some.inj hc)
      omega

theorem scalarAt_of_getElem? {d : Decoder} {i : Nat} {s : Scalar}
    (h : d.parts[i]? = some (.scalar s)) : d.scalarAt i = s := by
  rw [scalarAt, Array.getD_eq_getD_getElem?, h]
  rfl

theorem run_node (d : Decoder) (i : Nat) : (node i).run d = .ok (Merge.nodeAt d.nodes i, d) := rfl

theorem runs_sequence {d a : Decoder} {i : Nat} {items : List Nat}
    (hnode : Merge.nodeAt d.nodes i = .sequence .sequence items)
    (h : Runs (items.forM meet) d () a) :
    Runs (fillCollection i) d () { a with parts := a.parts.setIfInBounds i (.list items) } := by
  have hfilled : Runs (do items.forM meet; fill i (.list items)) d ()
      { a with parts := a.parts.setIfInBounds i (.list items) } := h.bind rfl
  unfold Runs
  rw [fillCollection, StateT.run_bind, run_node, hnode]
  exact hfilled

theorem runs_mapping {d a : Decoder} {i : Nat} {entries : List (Nat × Nat)}
    (hnode : Merge.nodeAt d.nodes i = .mapping .mapping entries)
    (hflatten : Merge.flatten d.merges i d.nodes = .ok d.nodes)
    (h : Runs (entries.forM meetEntry) d () a) :
    Runs (fillCollection i) d ()
      { a with parts := a.parts.setIfInBounds i (.mapping (a.distinct entries)) } := by
  have hentries : Merge.entriesAt d.nodes i = entries := by rw [Merge.entriesAt, hnode]
  let rest (nodes : Array Node) : Decode Unit := do
    set { d with nodes }
    (Merge.entriesAt nodes i).forM meetEntry
    fill i (.mapping ((← get).distinct (Merge.entriesAt nodes i)))
  have hrest : Runs (rest d.nodes) d ()
      { a with parts := a.parts.setIfInBounds i (.mapping (a.distinct entries)) } := by
    have hset : Runs (set { d with nodes := d.nodes } : Decode Unit) d () d := rfl
    dsimp only [rest]
    rw [hentries]
    exact hset.bind (h.bind rfl)
  have hlift : Runs (liftM (Merge.flatten d.merges i d.nodes) : Decode _) d d.nodes d := by
    rw [hflatten]
    rfl
  have hall : Runs (liftM (Merge.flatten d.merges i d.nodes) >>= rest) d () _ := hlift.bind hrest
  unfold Runs
  rw [fillCollection, StateT.run_bind, run_node, hnode]
  exact hall

theorem isCollection_of_isScalar {tag : Tag} (h : tag.isScalar = true) : tag.isCollection = false := by
  cases tag <;> simp [Tag.isScalar, Tag.isCollection] at *

section

variable (hns : ∀ i < ns.size, Seen ns (Merge.nodeAt ns i) (levels i))

include hns

/-- What is seen at the node of a key. -/
theorem levels_key {i : Nat} {t : Text} (h : Merge.nodeAt ns i = .scalar .text t) :
    levels i = .scalar (.text t) := by
  have hseen := hns i (lt_size_of_nodeAt h)
  rw [h] at hseen
  generalize levels i = level at hseen
  cases hseen with
  | scalar htag hvalue hnan => exact congrArg Level.scalar (Except.ok.inj hvalue).symm

/-- **Filling a collection.** -/
theorem exists_fillCollection {position : Nat} {d : Decoder} (hd : Sound ns levels position d)
    {i : Nat} (hi : d.queue.toList[position]? = some i) :
    ∃ d', Runs (fillCollection i) d () d' ∧ Sound ns levels (position + 1) d' ∧ Grows d d' := by
  obtain ⟨hmet, hcollection⟩ := hd.queued i (List.mem_of_getElem? hi)
  have hlt : i < ns.size := by
    rw [← hd.met_size]
    exact (Array.getElem?_eq_some_iff.mp hmet).1
  have hseen := hns i hlt
  generalize hlevel : levels i = level at hseen
  generalize hnode : Merge.nodeAt ns i = n at hseen hcollection
  cases hseen with
  | scalar htag hvalue hnan =>
    rw [Node.tag, isCollection_of_isScalar htag] at hcollection
    cases hcollection
  | sequence hitems =>
    obtain ⟨a, ha, hsound, hgrows, hall⟩ := exists_meetItems hns hitems hd
    have hrun := runs_sequence (by rw [hd.nodes_eq]; exact hnode) ha
    rw [← hlevel] at hrun
    refine ⟨_, hrun, sound_fill hsound (hgrows.getElem? hi) ?_, hgrows.met, hgrows.queue⟩
    rw [hlevel]
    exact hall
  | mapping hkeys hvalues hnodup =>
    obtain ⟨a, ha, hsound, hgrows, hall⟩ := exists_meetEntries hns hkeys hvalues hd
    have hflatten : Merge.flatten d.merges i d.nodes = .ok d.nodes := by
      rw [hd.merges_eq, hd.nodes_eq]
      exact Merge.flatten_ordinary hkeys hnode
    have hrun := runs_mapping (by rw [hd.nodes_eq]; exact hnode) hflatten ha
    rw [distinct_eq (keyText ns) ?_ hnodup, ← hlevel] at hrun
    · refine ⟨_, hrun, sound_fill hsound (hgrows.getElem? hi) ?_, hgrows.met, hgrows.queue⟩
      rw [hlevel]
      intro c hc
      rw [children, List.map_map] at hc
      obtain ⟨e, he, rfl⟩ := List.mem_map.mp hc
      exact (hall e he).2
    · intro e he
      have hshown := hsound.shown e.1 (hall e he).1 (by rw [hkeys e he]; rfl)
      rw [levels_key hns (hkeys e he)] at hshown
      exact scalarAt_of_getElem? hshown

omit hns in
/-- There are not more collections than nodes. -/
theorem queue_length_le {position : Nat} {d : Decoder} (hd : Sound ns levels position d) :
    d.queue.toList.length ≤ ns.size := by
  have hsubset : d.queue.toList ⊆ List.range ns.size := by
    intro i hi
    rw [List.mem_range, ← hd.met_size]
    exact (Array.getElem?_eq_some_iff.mp (hd.queued i hi).1).1
  have hle := (List.subperm_of_subset hd.queue_nodup hsubset).length_le
  rwa [List.length_range] at hle

/-- **Filling all collections**, for which every node has one step. -/
theorem exists_fillAll {steps position : Nat} {d : Decoder} (hd : Sound ns levels position d)
    (hsteps : ns.size ≤ steps + position) :
    ∃ d', Runs (fillAll steps position) d () d' ∧ Sound ns levels d'.queue.toList.length d' ∧
      Grows d d' := by
  induction steps generalizing position d with
  | zero =>
    have hposition : position = d.queue.toList.length := by
      have hle := queue_length_le hd
      have hge := hd.position_le
      omega
    exact ⟨d, rfl, hposition ▸ hd, .refl d⟩
  | succ steps ih =>
    rw [fillAll]
    cases hget : d.queue[position]? with
    | none =>
      have hposition : position = d.queue.toList.length := by
        have hle := Array.getElem?_eq_none_iff.mp hget
        have hge := hd.position_le
        rw [Array.length_toList] at hge ⊢
        omega
      refine ⟨d, (show Runs get d d d from rfl).bind ?_, hposition ▸ hd, .refl d⟩
      rw [hget]
      rfl
    | some i =>
      have hi : d.queue.toList[position]? = some i := by
        rw [Array.getElem?_toList]
        exact hget
      obtain ⟨a, ha, hsound, hgrows⟩ := exists_fillCollection hns hd hi
      obtain ⟨d', hd', hsound', hgrows'⟩ := ih hsound (by omega)
      refine ⟨d', (show Runs get d d d from rfl).bind ?_, hsound', hgrows.trans hgrows'⟩
      rw [hget]
      exact ha.bind hd'

end

end Decoder

/-! ## 6. The whole value -/

/-- The decoder knows nothing of its nodes at first. -/
theorem sound_ofNodes {ns : Array Node} {levels : Nat → Level Nat}
    (hns : ∀ i < ns.size, Seen ns (Merge.nodeAt ns i) (levels i)) :
    Decoder.Sound ns levels 0 (.ofNodes ns) := by
  have hmet (i : Nat) : (Decoder.ofNodes ns).met[i]? ≠ some true := by
    intro h
    rw [Decoder.ofNodes, Array.getElem?_replicate] at h
    split at h
    · cases h
    · cases h
  refine ⟨rfl, count_ordinary hns, Array.size_replicate, Array.size_replicate, Nat.zero_le _,
    List.nodup_nil, ?_, fun i hi => absurd hi (hmet i), fun i hi => absurd hi (hmet i), ?_⟩
  · intro i hi
    cases hi
  · intro k hk
    omega

/-- **Ordinary nodes are decoded to what they look like**, as far as they can be reached. -/
theorem decode_ordinary {ns : Array Node} {levels : Nat → Level Nat}
    (hns : ∀ i < ns.size, Seen ns (Merge.nodeAt ns i) (levels i)) {root : Nat}
    (hroot : root < ns.size) :
    ∃ (g : Graph) (met : Nat → Prop), Nodes.decode ⟨ns, root⟩ = .ok g ∧ g.root = root ∧
      g.parts.size = ns.size ∧ met root ∧
      ∀ i, met i → g.level i = levels i ∧ ∀ c ∈ children (levels i), met c := by
  obtain ⟨a, ha, hasound, -, hamet⟩ := Decoder.exists_meet hns (sound_ofNodes hns) hroot
  obtain ⟨d, hd, hsound, hgrows⟩ := Decoder.exists_fillAll hns hasound (Nat.le_refl _)
  have hwork : Runs (do Decoder.meet root; Decoder.fillAll ns.size 0 : Decode Unit) (.ofNodes ns) ()
      d := ha.bind hd
  let finish (p : Unit × Decoder) : Except Fault Graph := .ok ⟨p.2.parts, root⟩
  refine ⟨⟨d.parts, root⟩, fun i => d.met[i]? = some true, congrArg (· >>= finish) hwork, rfl,
    hsound.parts_size, hgrows.met root hamet, ?_⟩
  intro i hi
  have hlt : i < ns.size := by
    rw [← hsound.met_size]
    exact (Array.getElem?_eq_some_iff.mp hi).1
  have hlevel (h : d.parts[i]? = some (levels i)) : Graph.level ⟨d.parts, root⟩ i = levels i := by
    rw [Graph.level, Array.getD_eq_getD_getElem?, h]
    rfl
  cases htag : (Merge.nodeAt ns i).tag.isCollection with
  | true =>
    obtain ⟨k, hk⟩ := List.mem_iff_getElem?.mp (hsound.waits i hi htag)
    obtain ⟨hpart, hchildren⟩ := hsound.filled k (List.getElem?_eq_some_iff.mp hk).1 i hk
    exact ⟨hlevel hpart, hchildren⟩
  | false =>
    refine ⟨hlevel (hsound.shown i hi htag), ?_⟩
    have hseen := hns i hlt
    generalize levels i = level at hseen
    generalize Merge.nodeAt ns i = n at hseen htag
    cases hseen with
    | scalar htag' hvalue hnan =>
      intro c hc
      cases hc
    | sequence hitems => cases htag
    | mapping hkeys hvalues hnodup => cases htag

end TemplateTree.Yaml
