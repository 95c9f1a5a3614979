import TemplateTree.Proofs.Document.Rearrangement

/-!
# Numbers and their texts

Where a node or a token stands, a number counts as its text. So a value with the texts of some of its
numbers in their place (`Value.Respelled`) agrees with it, and both are built alike: the same tree, with
the marker of negations found in the same tests, or the same refusal at the same line. Two places are
left out: under the key `line` an integer is a line and a text is refused, and the members of a tuple are
taken as they are.
-/

namespace TemplateTree

/-! ## 1. Values with texts in the place of numbers -/

/-- A scalar is another one, or its text if that is a number. -/
inductive Scalar.Respelled : Scalar → Scalar → Prop
  | same (s : Scalar) : Respelled s s
  | number {s : Scalar} {t : Text} (h : s.numberText? = some (some t)) : Respelled s (.text t)

theorem Scalar.tokenText?_of_numberText? {s : Scalar} {t : Text} (h : s.numberText? = some (some t)) :
    s.tokenText? false = some t := by
  cases s with
  | int n => exact Option.some.inj h
  | float d => exact Option.some.inj h
  | _ => cases h

theorem Scalar.Respelled.agrees {s s' : Scalar} (h : s.Respelled s') : s.Agrees false s' := by
  cases h with
  | same => exact .same s
  | number hnumber => exact .text (tokenText?_of_numberText? hnumber) rfl

namespace Value

/-- **A value is another one with the texts of some of its numbers in their place**, at any depth outside
    tuples and the values under `line`. -/
inductive Respelled : Value → Value → Prop
  | scalar {s s' : Scalar} (h : s.Respelled s') : Respelled (.scalar s) (.scalar s')
  | list {items items' : List Value} (h : List.Forall₂ Respelled items items') :
      Respelled (.list items) (.list items')
  | tuple (members : List Value) : Respelled (.tuple members) (.tuple members)
  | mapping {entries entries' : Entries Value} (hkeys : entries.map Prod.fst = entries'.map Prod.fst)
      (hvalues : List.Forall₂ Respelled (entries.map Prod.snd) (entries'.map Prod.snd))
      (hline : entries.find? "line" = entries'.find? "line") :
      Respelled (.mapping entries) (.mapping entries')
  | set {members members' : List Scalar} (h : List.Forall₂ Scalar.Respelled members members') :
      Respelled (.set members) (.set members')

variable {v w : Value}

theorem Respelled.refl (v : Value) : v.Respelled v := by
  induction v with
  | scalar s => exact .scalar (.same s)
  | list items ih => exact .list (List.forall₂_same.mpr ih)
  | tuple members => exact .tuple members
  | mapping entries ih =>
    refine .mapping rfl (List.forall₂_same.mpr fun v hv => ?_) rfl
    obtain ⟨e, he, rfl⟩ := List.mem_map.mp hv
    exact ih e he
  | set members => exact .set (List.forall₂_same.mpr fun s _ => .same s)

/-- A number has as many levels as its text. -/
theorem Respelled.height_eq (h : v.Respelled w) : v.height = w.height := by
  induction w generalizing v with
  | scalar s | set members =>
    cases h
    rfl
  | list items ih =>
    cases h with
    | list h => rw [height, height, heights_eq_of_forall₂ h fun w hw v => ih w hw]
  | tuple members =>
    cases h
    rfl
  | mapping entries ih =>
    cases h with
    | mapping hkeys hvalues =>
      have hbelow := heights_eq_of_forall₂ hvalues fun w hw v => by
        obtain ⟨e, he, rfl⟩ := List.mem_map.mp hw
        exact ih e he
      rw [height, height, entryHeights_eq_heights, entryHeights_eq_heights, hbelow]

/-- A respelled value is seen alike, level by level, where it is not taken as it is. -/
theorem Respelled.agrees {agree : Bool → Value → Value → Prop} {line : Value → Value → Prop}
    (h : v.Respelled w) (hagree : ∀ c d, d.height < w.height → c.Respelled d → agree false c d)
    (hsame : ∀ c, c.height < w.height → agree true c c) (hline : ∀ c, c.height < w.height → line c c) :
    v.level.Agrees agree line false w.level := by
  cases h with
  | scalar hs => exact .scalar hs.agrees
  | list h => exact .list (forall₂_imp_mem h fun c _ d hd => hagree c d (height_lt_list hd))
  | tuple members => exact .tuple (List.forall₂_same.mpr fun c hc => hsame c (height_lt_tuple hc))
  | @mapping entries entries' hkeys hvalues hfind =>
    have hrel := Entries.rel_find? (R := fun _ => agree false)
      (forall₂_imp_mem (Entries.forall₂_of_map hkeys hvalues) fun e _ e' he' hee' =>
        ⟨hee'.1, hagree _ _ (height_lt_mapping he') hee'.2⟩)
    refine .mapping (hkeys ▸ .refl _) ?_ fun key _ => hrel key
    rw [hfind]
    cases hc : entries'.find? "line" with
    | none => exact .none
    | some c => exact .some (hline c (height_lt_mapping (Entries.mem_of_find? hc)))
  | set h => exact .set ..

section

variable {view : View Value} (hview : view.IsTree)

/-- A value stands for a respelled one, and for itself alone where it is taken as it is. -/
def StandsFor (view : View Value) (raw : Bool) (v w : Value) : Prop :=
  v.Respelled w ∧ (raw = true → v = w) ∧ w.height ≤ view.reach

include hview

theorem StandsFor.agrees {raw : Bool} (h : StandsFor view raw v w) :
    (view.level v).Agrees (fun raw c d => d.height < w.height ∧ StandsFor view raw c d)
      (StandsFor view true) raw (view.level w) := by
  obtain ⟨hrespelled, hraw, hreach⟩ := h
  have hsame (raw : Bool) (c : Value) (hlower : c.height < w.height) :
      c.height < w.height ∧ StandsFor view raw c c :=
    ⟨hlower, .refl c, fun _ => rfl, by omega⟩
  rw [hview.level_eq w]
  cases raw with
  | false =>
    rw [hview.level_eq]
    refine hrespelled.agrees (fun c d hlower hcd => ⟨hlower, hcd, fun h => ?_, by omega⟩) (hsame true)
      fun c hlower => (hsame true c hlower).2
    cases h
  | true =>
    obtain rfl := hraw rfl
    -- A part of a tree shows itself and nothing else.
    refine (hview.shows v).agrees (fun raw c d hlower hc => ?_) fun c d hlower hc => ?_
    · obtain rfl := hc.unique (hview.shows c)
      exact hsame raw _ hlower
    · obtain rfl := hc.unique (hview.shows c)
      exact (hsame true _ hlower).2

/-- The parts of a value stand for the parts of respelled ones. What lies under `line` is taken as it
    is. -/
def StandsFor.agreement : Agreement view view where
  Agree := StandsFor view
  Line := StandsFor view true
  rank := height
  level h := h.agrees hview
  line h := ⟨congrArg view.display (h.2.1 rfl), fun _ => h.2.1 rfl ▸ Iff.rfl⟩
  reach h := ⟨h.2.2, h.2.2⟩

end

end Value

/-! ## 2. Trees -/

namespace Document

/-- **Numbers and their texts are interchangeable**: a value and one with the texts of some of its
    numbers in their place give the same tree or the same refusal at the same line, and so do documents
    that show them by shared parts. -/
theorem build_eq_of_respelled {v w : Value} (h : v.Respelled w) (marker : Text) (line : Int) :
    build (.ofText marker) line v = build (.ofText marker) line w ∧
      ∀ g g' : Graph, g.view.Shows g.root v → g'.view.Shows g'.root w →
        tree g.view (.ofText marker) line g.root = tree g'.view (.ofText marker) line g'.root := by
  have hview : w.view = v.view := by rw [Value.view, Value.view, h.height_eq]
  have hbuild : build (.ofText marker) line v = build (.ofText marker) line w := by
    rw [build, build, hview]
    have hstands : Value.StandsFor v.view false v w := ⟨h, fun h => (by cases h), h.height_eq.ge⟩
    exact (Value.StandsFor.agreement v.isTree_view).tree_eq hstands marker line
  refine ⟨hbuild, fun g g' hg hg' => ?_⟩
  rw [Graph.tree_eq_build hg, Graph.tree_eq_build hg', hbuild]

/-- A number that is the marker, one in a command of the test, and one that names a variable. The line
    stays a number. -/
theorem build_eq_of_respelled_loop :
    let half : Value := .scalar (.float (.finite false (2 ^ 52) (-53)))
    let line : Scalar × Value := (.text "line", .scalar (.int 3))
    let loop (one half two : Value) := Value.mapping [
      (.text "while", .list [one, .list [.ofText "get", half]]),
      (.text "do", .mapping [(.text "for", .ofText "names"), (.text "as", two), (.text "do", one), line])]
    let v := loop (.scalar (.int 1)) half (.scalar (.int (-2)))
    let w := loop (.ofText "1") (.ofText "0.5") (.ofText "-2")
    v.Respelled w ∧ build (.ofText "1") 7 v = build (.ofText "1") 7 w ∧
      build (.ofText "1") 7 w = .ok (.whileLoop
        (.condition true [.command 7 (.string "get") [.string "0.5"]])
        (.forEach 3 (.string "names") (.string "1") (some (.string "-2")) none)) := by
  intro half line loop v w
  have hnumber {s : Scalar} {t : Text} (h : s.numberText? = some (some t)) :
      Value.Respelled (.scalar s) (.ofText t) := .scalar (.number h)
  have hone : Value.Respelled (.scalar (.int 1)) (.ofText "1") := hnumber (by decide +kernel)
  have htest : Value.Respelled (.list [.scalar (.int 1), .list [.ofText "get", half]])
      (.list [.ofText "1", .list [.ofText "get", .ofText "0.5"]]) :=
    .list (.cons hone (.cons (.list (.cons (.refl _) (.cons (hnumber (by decide +kernel)) .nil))) .nil))
  have hbody : Value.Respelled
      (.mapping [(.text "for", .ofText "names"), (.text "as", .scalar (.int (-2))),
        (.text "do", .scalar (.int 1)), line])
      (.mapping [(.text "for", .ofText "names"), (.text "as", .ofText "-2"),
        (.text "do", .ofText "1"), line]) :=
    .mapping rfl (.cons (.refl _) (.cons (hnumber (by decide +kernel)) (.cons hone
      (.cons (.refl _) .nil)))) rfl
  have h : v.Respelled w := .mapping rfl (.cons htest (.cons hbody .nil)) rfl
  exact ⟨h, (build_eq_of_respelled h _ _).1, rfl⟩

end Document

end TemplateTree
