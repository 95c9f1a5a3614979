import TemplateTree.Proofs.Document.Sharing

/-!
# The order of keys

In a value whose mappings have no text key twice (`Value.Keyed`), what lies under a key does not depend
on the order of the entries. So a value with the entries of its mappings in another order, at any
depth (`Value.Rearranged`), agrees with it, and both are built alike: the same tree, or the same
refusal at the same line. Only under the key `line` the order can be seen: a line that is no integer is
shown in its refusal.
-/

namespace TemplateTree

/-! ## 1. Keys that come once -/

/-- The text of a scalar that is one. -/
def Scalar.text? : Scalar → Option Text
  | .text t => some t
  | _ => none

namespace Entries

variable {α : Type} {entries entries' : Entries α}

/-- The text keys of a mapping, in order. -/
def texts (entries : Entries α) : List Text := entries.filterMap fun e => e.1.text?

theorem mem_texts {key : Text} {v : α} (h : (Scalar.text key, v) ∈ entries) : key ∈ entries.texts :=
  List.mem_filterMap.mpr ⟨_, h, rfl⟩

/-- Where no text key comes twice, a key finds every value that it has. -/
theorem find?_eq_some_iff (h : entries.texts.Nodup) {key : Text} {v : α} :
    entries.find? key = some v ↔ (Scalar.text key, v) ∈ entries := by
  refine ⟨mem_of_find?, fun hv => ?_⟩
  induction entries with
  | nil => cases hv
  | cons e rest ih =>
    obtain ⟨k, w⟩ := e
    rw [find?]
    by_cases hk : k = .text key
    · subst hk
      have hkey : key ∉ texts rest := (List.nodup_cons.mp h).1
      rcases List.mem_cons.mp hv with hv | hv
      · rw [if_pos rfl, (Prod.mk.inj hv).2]
      · exact absurd (mem_texts hv) hkey
    · rw [if_neg hk]
      have hrest : (texts rest).Nodup := h.sublist ((List.sublist_cons_self _ _).filterMap _)
      rcases List.mem_cons.mp hv with hv | hv
      · exact absurd (Prod.mk.inj hv).1.symm hk
      · exact ih hrest hv

theorem find?_eq_of_perm (hperm : entries.Perm entries') (h : entries.texts.Nodup) (key : Text) :
    entries.find? key = entries'.find? key := by
  have h' : entries'.texts.Nodup := (hperm.filterMap _).nodup_iff.mp h
  ext v
  rw [find?_eq_some_iff h, find?_eq_some_iff h', hperm.mem_iff]

end Entries

namespace Value

/-- Whether a mapping has no text key twice. -/
def isKeyed : Value → Bool
  | mapping entries => decide (Entries.texts entries).Nodup
  | _ => true

/-- **No mapping in a value has a text key twice.** -/
def Keyed (v : Value) : Prop := ∀ p ∈ v.parts, p.isKeyed = true

instance (v : Value) : Decidable v.Keyed := inferInstanceAs (Decidable (∀ p ∈ v.parts, _))

/-! ## 2. Values with their entries in another order -/

/-- **A value is another one with the entries of its mappings in another order**, at any depth outside
    the values under `line`. -/
inductive Rearranged : Value → Value → Prop
  | scalar (s : Scalar) : Rearranged (.scalar s) (.scalar s)
  | list {items items' : List Value} (h : List.Forall₂ Rearranged items items') :
      Rearranged (.list items) (.list items')
  | tuple {members members' : List Value} (h : List.Forall₂ Rearranged members members') :
      Rearranged (.tuple members) (.tuple members')
  /-- The entries are permuted, and then their values are rearranged in place. -/
  | mapping {entries permuted entries' : Entries Value} (hperm : entries.Perm permuted)
      (hkeys : permuted.map Prod.fst = entries'.map Prod.fst)
      (hvalues : List.Forall₂ Rearranged (permuted.map Prod.snd) (entries'.map Prod.snd))
      (hline : permuted.find? "line" = entries'.find? "line") :
      Rearranged (.mapping entries) (.mapping entries')
  | set (members : List Scalar) : Rearranged (.set members) (.set members)

variable {v w : Value}

theorem heights_eq_of_perm {vs ws : List Value} (h : vs.Perm ws) : heights vs = heights ws := by
  induction h with
  | nil => rfl
  | cons v _ ih => rw [heights, heights, ih]
  | swap v w vs => simp only [heights, Nat.max_left_comm]
  | trans _ _ ih ih' => rw [ih, ih']

/-- Rows of values with as many levels one by one have as many levels. -/
theorem heights_eq_of_forall₂ {R : Value → Value → Prop} {vs ws : List Value}
    (h : List.Forall₂ R vs ws) (hheight : ∀ w ∈ ws, ∀ v, R v w → v.height = w.height) :
    heights vs = heights ws := by
  induction h with
  | nil => rfl
  | cons hv _ ih =>
    rw [heights, heights, hheight _ List.mem_cons_self _ hv,
      ih fun w hw => hheight w (List.mem_cons_of_mem _ hw)]

/-- The order of the entries does not change the number of levels. -/
theorem Rearranged.height_eq (h : v.Rearranged w) : v.height = w.height := by
  induction w generalizing v with
  | scalar s | set members =>
    cases h
    rfl
  | list items ih =>
    cases h with
    | list h => rw [height, height, heights_eq_of_forall₂ h fun w hw v => ih w hw]
  | tuple members ih =>
    cases h with
    | tuple h => rw [height, height, heights_eq_of_forall₂ h fun w hw v => ih w hw]
  | mapping entries ih =>
    cases h with
    | mapping hperm hkeys hvalues =>
      have hbelow := heights_eq_of_forall₂ hvalues fun w hw v => by
        obtain ⟨e, he, rfl⟩ := List.mem_map.mp hw
        exact ih e he
      rw [height, height, entryHeights_eq_heights, entryHeights_eq_heights,
        heights_eq_of_perm (hperm.map _), hbelow]

/-- A rearranged value is seen alike, level by level. -/
theorem Rearranged.agrees {agree : Bool → Value → Value → Prop} {raw : Bool} (h : v.Rearranged w)
    (hv : v.Keyed)
    (hagree : ∀ raw c d, c.Keyed → d.height < w.height → c.Rearranged d → agree raw c d) :
    v.level.Agrees agree Eq raw w.level := by
  cases h with
  | scalar s => exact .scalar (.same s)
  | list h =>
    exact .list (forall₂_imp_mem h fun c hc d hd hcd =>
      hagree _ _ _ (fun p hp => hv p (mem_parts_list hc hp)) (height_lt_list hd) hcd)
  | tuple h =>
    exact .tuple (forall₂_imp_mem h fun c hc d hd hcd =>
      hagree _ _ _ (fun p hp => hv p (mem_parts_tuple hc hp)) (height_lt_tuple hd) hcd)
  | @mapping entries permuted entries' hperm hkeys hvalues hline =>
    have hfind := Entries.find?_eq_of_perm hperm (of_decide_eq_true (hv _ (mem_parts_self _)))
    have hrel := Entries.rel_find? (R := fun _ => agree false)
      (forall₂_imp_mem (Entries.forall₂_of_map hkeys hvalues) fun e he e' he' hee' =>
        ⟨hee'.1, hagree false _ _ (fun p hp => hv p (mem_parts_mapping (hperm.mem_iff.mpr he) hp))
          (height_lt_mapping he') hee'.2⟩)
    refine .mapping (hkeys ▸ hperm.map _) ?_ fun key _ => ?_
    · rw [hfind, hline]
      cases entries'.find? "line" with
      | none => exact .none
      | some _ => exact .some rfl
    · rw [hfind]
      exact hrel key
  | set members => exact .set ..

/-- The parts of a value stand for the parts of rearranged ones. -/
def Rearranged.agreement (view : View Value) (hview : view.IsTree) : Agreement view view where
  Agree _ v w := v.Rearranged w ∧ v.Keyed ∧ w.height ≤ view.reach
  Line := Eq
  rank := height
  level := by
    intro raw v w ⟨h, hv, hreach⟩
    rw [hview.level_eq, hview.level_eq]
    exact h.agrees hv fun raw c d hc hlower hcd => ⟨hlower, hcd, hc, by omega⟩
  line := by
    intro v w hvw
    exact ⟨by rw [hvw], by simp [hvw]⟩
  reach := by
    intro raw v w ⟨_, _, hreach⟩
    exact ⟨hreach, hreach⟩

end Value

/-! ## 3. Trees -/

namespace Document

/-- **The order of the entries of mappings does not matter**: a value and a rearranged one give the same
    tree or the same refusal at the same line, and so do documents that show them by shared parts. -/
theorem build_eq_of_rearranged {v w : Value} (h : v.Rearranged w) (hv : v.Keyed) (marker : Text)
    (line : Int) :
    build (.ofText marker) line v = build (.ofText marker) line w ∧
      ∀ g g' : Graph, g.view.Shows g.root v → g'.view.Shows g'.root w →
        tree g.view (.ofText marker) line g.root = tree g'.view (.ofText marker) line g'.root := by
  have hview : w.view = v.view := by rw [Value.view, Value.view, h.height_eq]
  have hbuild : build (.ofText marker) line v = build (.ofText marker) line w := by
    rw [build, build, hview]
    exact (Value.Rearranged.agreement v.view v.isTree_view).tree_eq ⟨h, hv, h.height_eq.ge⟩ marker line
  refine ⟨hbuild, fun g g' hg hg' => ?_⟩
  rw [Graph.tree_eq_build hg, Graph.tree_eq_build hg', hbuild]

/-- A loop with its body in front, and in the body a command behind its line. -/
theorem build_eq_of_rearranged_loop :
    let command : Scalar × Value := (.text "command", .list [.ofText "say"])
    let line : Scalar × Value := (.text "line", .scalar (.int 3))
    let iterable : Scalar × Value := (.text "for", .ofText "names")
    let v := Value.mapping [(.text "do", .mapping [line, command]), iterable]
    let w := Value.mapping [iterable, (.text "do", .mapping [command, line])]
    v.Rearranged w ∧ v.Keyed ∧ build (.ofText "not") 7 v = build (.ofText "not") 7 w ∧
      build (.ofText "not") 7 w
        = .ok (.forEach 7 (.string "names") (.command 3 (.string "say") []) none none) := by
  intro command line iterable v w
  have hbody : Value.Rearranged (.mapping [line, command]) (.mapping [command, line]) :=
    .mapping (.swap ..) rfl (.cons (.list (.cons (.scalar _) .nil)) (.cons (.scalar _) .nil)) rfl
  have h : v.Rearranged w := .mapping (.swap ..) rfl (.cons (.scalar _) (.cons hbody .nil)) rfl
  have hv : v.Keyed := by decide +kernel
  exact ⟨h, hv, (build_eq_of_rearranged h hv _ _).1, rfl⟩

end Document

end TemplateTree
