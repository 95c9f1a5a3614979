import TemplateTree.Proofs.Expr.Parts
import TemplateTree.Proofs.Text.Indent

/-!
# The code of a part in the code of the whole

A `Frame` is a node in which one of the expressions right below is left out, and a `Context` is a way
down through nodes to such a hole. Filling it gives a tree, and every part of a tree fills a context of
it (`Context.within_iff_exists_fill`).

The code of a tree holds the code of each of its parts: between two texts that do not depend on the part,
moved in by a number of levels that does not depend on it either. Each piece of the code encloses the
code of what stands in it in this way (`Code.Encloses`), and so does one piece inside another
(`Code.Encloses.comp`), where the margins add up. So another part in the same place changes no other part
of the text (`Context.code?_fill`).
-/

namespace TemplateTree

/-! ## 1. Code around code -/

theorem Text.join_cons (separator t : Text) (ts : List Text) :
    join separator (t :: ts) = t ++ ts.flatMap (separator ++ ·) := by
  induction ts generalizing t with
  | nil => simp [join]
  | cons u ts ih =>
    rw [join, List.intercalate_cons_cons, ← join, ih, List.flatMap_cons, List.append_assoc,
      List.append_assoc]

namespace Code

open Text

/-- The margin of some levels of indentation. -/
def margin (levels : Nat) : Text := List.replicate (2 * levels) (.scalar ' ')

theorem newline_not_mem_margin (levels : Nat) : newline ∉ margin levels := by
  intro h
  cases List.eq_of_mem_replicate h

theorem margin_add (outer inner : Nat) : margin outer ++ margin inner = margin (outer + inner) := by
  rw [margin, margin, margin, List.replicate_append_replicate, Nat.mul_add]

/-- **Code is enclosed**: it is moved in by some levels and stands between two texts, and neither the
    texts nor the levels depend on it. -/
def Encloses (f : Text → Text) : Prop :=
  ∃ before behind levels, ∀ code, f code = before ++ code.marginBehind (margin levels) ++ behind

/-- Code that stands alone. -/
theorem Encloses.alone : Encloses fun code => code := by
  refine ⟨[], [], 0, fun code => ?_⟩
  rw [List.nil_append, List.append_nil]
  exact (marginBehind_empty code).symm

namespace Encloses

variable {f : Text → Text} (hf : Encloses f)

include hf

/-- Code inside code inside code: what stands in front and behind is moved in with it. -/
theorem comp {g : Text → Text} (hg : Encloses g) : Encloses fun code => g (f code) := by
  obtain ⟨before, behind, levels, hf⟩ := hf
  obtain ⟨before', behind', levels', hg⟩ := hg
  refine ⟨before' ++ before.marginBehind (margin levels'),
    behind.marginBehind (margin levels') ++ behind', levels' + levels, fun code => ?_⟩
  have hinner := marginBehind_marginBehind (newline_not_mem_margin levels) code (margin levels')
  simp only [hg, hf, marginBehind_append, hinner, margin_add, List.append_assoc]

theorem prepend (text : Text) : Encloses fun code => text ++ f code := by
  obtain ⟨before, behind, levels, hf⟩ := hf
  refine ⟨text ++ before, behind, levels, fun code => ?_⟩
  simp only [hf, List.append_assoc]

theorem append (text : Text) : Encloses fun code => f code ++ text := by
  obtain ⟨before, behind, levels, hf⟩ := hf
  refine ⟨before, behind ++ text, levels, fun code => ?_⟩
  simp only [hf, List.append_assoc]

theorem nest : Encloses fun code => nest (f code) := by
  refine hf.comp ⟨margin 1, [], 1, fun code => ?_⟩
  rw [List.append_nil]
  exact indent_eq code step

/-- One of some texts between separators. -/
theorem join (separator : Text) (before after : List Text) :
    Encloses fun code => Text.join separator (before ++ f code :: after) := by
  cases before with
  | nil =>
    simp only [List.nil_append, join_cons]
    exact hf.append _
  | cons first before =>
    simp only [List.cons_append, join_cons, List.flatMap_append, List.flatMap_cons]
    exact (((hf.prepend _).append _).prepend _).prepend _

end Encloses

/-! ## 2. The pieces of the code -/

theorem test_of_several (n : RuntimeNames) (negated : Bool) {operands : List Text}
    (h : 2 ≤ operands.length) :
    test n negated operands
      = if negated then "not " ++ call n.equalTest operands else call n.equalTest operands := by
  cases operands with
  | nil => cases h
  | cons first rest =>
    cases rest with
    | nil => exact absurd h (by simp)
    | cons second rest => rfl

section

variable {f : Text → Text} (hf : Encloses f) (n : RuntimeNames)

include hf

theorem encloses_call (function : Text) (before after : List Text) :
    Encloses fun code => call function (before ++ f code :: after) :=
  ((hf.join _ before after).prepend _).append _

theorem encloses_sequence (before after : List Text) :
    Encloses fun code => sequence (before ++ f code :: after) := by
  simp only [sequence, List.map_append, List.map_cons]
  exact ((((hf.append _).nest.join _ _ _).prepend _).append _)

/-- The other operands decide whether there is one or several. -/
theorem encloses_test (negated : Bool) (before after : List Text) :
    Encloses fun code => test n negated (before ++ f code :: after) := by
  by_cases halone : before = [] ∧ after = []
  · obtain ⟨rfl, rfl⟩ := halone
    have hcall := encloses_call hf n.emptyTest [] []
    cases negated with
    | true => exact hcall
    | false => exact hcall.prepend "not "
  · have hcall := encloses_call hf n.equalTest before after
    have hothers : 0 < before.length + after.length := by
      rw [Nat.pos_iff_ne_zero, Ne, Nat.add_eq_zero_iff, List.length_eq_zero_iff, List.length_eq_zero_iff]
      exact halone
    have hseveral (code : Text) : 2 ≤ (before ++ f code :: after).length := by
      rw [List.length_append, List.length_cons]
      omega
    simp only [test_of_several n negated (hseveral _)]
    cases negated with
    | true => exact hcall.prepend "not "
    | false => exact hcall

end

section

variable {f : Text → Text} (n : RuntimeNames)

/-- A clause of a chain encloses the code in its condition or in its branch. -/
theorem encloses_chain (test branch : Text → Text) (before after : List (Text × Text))
    (hclause : Encloses fun code => branch code ++ " if (" ++ test code ++ ") else") :
    Encloses fun code => chain (before ++ (test code, branch code) :: after) := by
  simp only [chain, List.map_append, List.map_cons, List.append_assoc _ (_ :: _), List.cons_append]
  exact ((hclause.nest.join _ _ _).prepend _).append _

/-- A loop over a collection that makes some steps. -/
def stepLoop (iterable : Text) (steps : List Text) : Text :=
  "(lambda " ++ items ++ ", " ++ result ++ "=\"\": [\n"
    ++ nest ("None\nfor " ++ position ++ " in range(len(" ++ items ++ "))\n"
      ++ ("if (\n" ++ nest (Text.unlines steps) ++ "\n) and False"))
    ++ "\n] or " ++ result ++ ")(" ++ call n.elementList [iterable] ++ ")"

theorem overElements_eq (line : Int) (iterable body : Text) (element? position? : Option Text) :
    overElements n line iterable body element? position?
      = stepLoop n iterable (bindStep n line position? position
        ++ bindStep n line element? (items ++ "[" ++ position ++ "]")
        ++ ["(" ++ result ++ " := " ++ body ++ "),"]) := rfl

theorem encloses_stepLoop (hf : Encloses f) (iterable : Text) (before after : List Text) :
    Encloses fun code => stepLoop n iterable (before ++ f code :: after) := by
  have hsteps : Encloses fun code => Text.unlines (before ++ f code :: after) := hf.join _ before after
  have hturn := ((hsteps.nest.prepend "if (\n").append "\n) and False").prepend
    ("None\nfor " ++ position ++ " in range(len(" ++ items ++ "))\n")
  exact (((((hturn.nest.prepend _).append _).append _).append _).append _).append _

theorem encloses_iterable (line : Int) (body : Text) (element? position? : Option Text) :
    Encloses fun code => overElements n line code body element? position? :=
  ((encloses_call .alone n.elementList [] []).prepend _).append _

theorem encloses_body (line : Int) (iterable : Text) (element? position? : Option Text) :
    Encloses fun code => overElements n line iterable code element? position? :=
  encloses_stepLoop n ((Encloses.alone.prepend _).append _) iterable _ []

/-- The binding of a variable encloses the code of its name. -/
theorem encloses_bindStep (line : Int) (value : Text) :
    Encloses fun code => call n.assignment [Decimal.ofInt line, code, value] ++ "," :=
  (encloses_call .alone n.assignment [Decimal.ofInt line] [value]).append _

theorem encloses_element (line : Int) (iterable body : Text) (position? : Option Text) :
    Encloses fun code => overElements n line iterable body (some code) position? := by
  simp only [overElements_eq, bindStep, List.append_assoc, List.singleton_append]
  exact encloses_stepLoop n (encloses_bindStep n line _) iterable _ _

theorem encloses_position (line : Int) (iterable body : Text) (element? : Option Text) :
    Encloses fun code => overElements n line iterable body element? (some code) := by
  simp only [overElements_eq, bindStep, List.append_assoc, List.singleton_append]
  exact encloses_stepLoop n (encloses_bindStep n line _) iterable [] _

theorem encloses_whileTest (body : Text) : Encloses fun code => whileHolds code body := by
  have hloop := ((((Encloses.alone.prepend "None\nfor _ in iter(lambda: bool(").append
    "), False)\nif (").append result).append " := ").append body
  exact ((((hloop.append _).nest.prepend _).append _).append _).append _

theorem encloses_whileBody (test : Text) : Encloses fun code => whileHolds test code :=
  (((((Encloses.alone.prepend _).append _).nest.prepend _).append _).append _).append _

end

end Code

/-! ## 3. Contexts -/

namespace Expr

/-- A node with a hole in the place of one of the expressions right below. -/
inductive Frame where
  /-- The name of a command. -/
  | commandName (line : Int) (arguments : List Expr)
  /-- An argument of a command. -/
  | commandArgument (line : Int) (name : Expr) (before after : List Expr)
  /-- An item of a block. -/
  | blockItem (before after : List Expr)
  /-- An operand of a test. -/
  | operand (negated : Bool) (before after : List Expr)
  /-- The condition of a clause. -/
  | clauseTest (before : List (Expr × Expr)) (branch : Expr) (after : List (Expr × Expr))
  /-- The branch of a clause. -/
  | clauseBranch (before : List (Expr × Expr)) (test : Expr) (after : List (Expr × Expr))
  /-- The collection of a loop. -/
  | eachIterable (line : Int) (body : Expr) (element position : Option Expr)
  /-- The body of a loop over a collection. -/
  | eachBody (line : Int) (iterable : Expr) (element position : Option Expr)
  /-- The variable of the element. -/
  | eachElement (line : Int) (iterable body : Expr) (position : Option Expr)
  /-- The variable of the position. -/
  | eachPosition (line : Int) (iterable body : Expr) (element : Option Expr)
  /-- The condition of a loop. -/
  | whileTest (body : Expr)
  /-- The body of a loop with a condition. -/
  | whileBody (test : Expr)

namespace Frame

/-- The node with an expression in its hole. -/
def fill : Frame → Expr → Expr
  | commandName line arguments, e => command line e arguments
  | commandArgument line name before after, e => command line name (before ++ e :: after)
  | blockItem [] after, e => block e after
  | blockItem (first :: before) after, e => block first (before ++ e :: after)
  | operand negated before after, e => condition negated (before ++ e :: after)
  | clauseTest before branch after, e => choice (before ++ (e, branch) :: after)
  | clauseBranch before test after, e => choice (before ++ (test, e) :: after)
  | eachIterable line body element position, e => forEach line e body element position
  | eachBody line iterable element position, e => forEach line iterable e element position
  | eachElement line iterable body position, e => forEach line iterable body (some e) position
  | eachPosition line iterable body element, e => forEach line iterable body element (some e)
  | whileTest body, e => whileLoop e body
  | whileBody test, e => whileLoop test e

/-- **There is a frame for every expression right below a node**, and for nothing else. -/
theorem mem_children_iff {a e : Expr} : a ∈ e.children ↔ ∃ frame : Frame, frame.fill a = e := by
  constructor
  · intro h
    cases e with
    | string value => cases h
    | command line name arguments =>
      rcases List.mem_cons.mp h with rfl | h
      · exact ⟨.commandName line arguments, rfl⟩
      · obtain ⟨before, after, rfl⟩ := List.append_of_mem h
        exact ⟨.commandArgument line name before after, rfl⟩
    | block first rest =>
      rcases List.mem_cons.mp h with rfl | h
      · exact ⟨.blockItem [] rest, rfl⟩
      · obtain ⟨before, after, rfl⟩ := List.append_of_mem h
        exact ⟨.blockItem (first :: before) after, rfl⟩
    | condition negated operands =>
      obtain ⟨before, after, rfl⟩ := List.append_of_mem h
      exact ⟨.operand negated before after, rfl⟩
    | choice clauses =>
      obtain ⟨clause, hclause, ha⟩ := List.mem_flatMap.mp h
      obtain ⟨before, after, rfl⟩ := List.append_of_mem hclause
      obtain ⟨test, branch⟩ := clause
      rcases List.mem_cons.mp ha with rfl | ha
      · exact ⟨.clauseTest before branch after, rfl⟩
      · obtain rfl := List.mem_singleton.mp ha
        exact ⟨.clauseBranch before test after, rfl⟩
    | forEach line iterable body element position =>
      simp only [children, List.mem_cons, List.mem_append, Option.mem_toList] at h
      rcases h with rfl | rfl | h | h
      · exact ⟨.eachIterable line body element position, rfl⟩
      · exact ⟨.eachBody line iterable element position, rfl⟩
      · obtain rfl : element = some a := h
        exact ⟨.eachElement line iterable body position, rfl⟩
      · obtain rfl : position = some a := h
        exact ⟨.eachPosition line iterable body element, rfl⟩
    | whileLoop test body =>
      rcases List.mem_cons.mp h with rfl | h
      · exact ⟨.whileTest body, rfl⟩
      · obtain rfl := List.mem_singleton.mp h
        exact ⟨.whileBody test, rfl⟩
  · intro h
    obtain ⟨frame, rfl⟩ := h
    cases frame with
    | blockItem before after => cases before <;> simp [fill, children]
    | _ => simp [fill, children]

/-- **A node encloses the code of the expression in its hole.** -/
theorem encloses_code (frame : Frame) (n : RuntimeNames) :
    ∃ f, Code.Encloses f ∧ ∀ e, (frame.fill e).code n = f (e.code n) := by
  have hcodes (before after : List Expr) (e : Expr) :
      codes n (before ++ e :: after) = codes n before ++ e.code n :: codes n after := by
    simp only [codes_eq_map, List.map_append, List.map_cons]
  have hclauses (before after : List (Expr × Expr)) (c : Expr × Expr) :
      clauseCodes n (before ++ c :: after)
        = clauseCodes n before ++ (c.1.code n, c.2.code n) :: clauseCodes n after := by
    simp only [clauseCodes_eq_map, List.map_append, List.map_cons]
  cases frame with
  | commandName line arguments =>
    exact ⟨_, ((((Code.Encloses.alone.prepend (n.commandTable ++ "[")).append "]").append "(").append
      _).append _, fun e => rfl⟩
  | commandArgument line name before after =>
    refine ⟨_, Code.encloses_call .alone (n.commandTable ++ "[" ++ name.code n ++ "]")
      (Decimal.ofInt line :: codes n before) (codes n after), fun e => ?_⟩
    rw [fill, code, hcodes, List.cons_append]
  | blockItem before after =>
    refine ⟨_, Code.encloses_sequence .alone (codes n before) (codes n after), fun e => ?_⟩
    cases before with
    | nil => rfl
    | cons first before => rw [fill, code, hcodes, codes, List.cons_append]
  | operand negated before after =>
    refine ⟨_, Code.encloses_test .alone n negated (codes n before) (codes n after), fun e => ?_⟩
    rw [fill, code, hcodes]
  | clauseTest before branch after =>
    have hclause : Code.Encloses fun code => branch.code n ++ " if (" ++ code ++ ") else" :=
      (Code.Encloses.alone.prepend _).append _
    refine ⟨_, Code.encloses_chain (fun code => code) (fun _ => branch.code n) (clauseCodes n before)
      (clauseCodes n after) hclause, fun e => ?_⟩
    rw [fill, code, hclauses]
  | clauseBranch before test after =>
    have hclause : Code.Encloses fun code => code ++ " if (" ++ test.code n ++ ") else" :=
      ((Code.Encloses.alone.append _).append _).append _
    refine ⟨_, Code.encloses_chain (fun _ => test.code n) (fun code => code) (clauseCodes n before)
      (clauseCodes n after) hclause, fun e => ?_⟩
    rw [fill, code, hclauses]
  | eachIterable line body element position =>
    exact ⟨_, Code.encloses_iterable n line (body.code n) (optionCode n element)
      (optionCode n position), fun e => rfl⟩
  | eachBody line iterable element position =>
    exact ⟨_, Code.encloses_body n line (iterable.code n) (optionCode n element)
      (optionCode n position), fun e => rfl⟩
  | eachElement line iterable body position =>
    exact ⟨_, Code.encloses_element n line (iterable.code n) (body.code n) (optionCode n position),
      fun e => rfl⟩
  | eachPosition line iterable body element =>
    exact ⟨_, Code.encloses_position n line (iterable.code n) (body.code n) (optionCode n element),
      fun e => rfl⟩
  | whileTest body => exact ⟨_, Code.encloses_whileTest (body.code n), fun e => rfl⟩
  | whileBody test => exact ⟨_, Code.encloses_whileBody (test.code n), fun e => rfl⟩

end Frame

/-- A way down through nodes to a hole, the outermost node in front. -/
abbrev Context := List Frame

namespace Context

/-- The tree with an expression in the hole. -/
def fill : Context → Expr → Expr
  | [], e => e
  | frame :: inner, e => frame.fill (fill inner e)

/-- **There is a context for everything that stands in a tree**, and for nothing else. -/
theorem within_iff_exists_fill {a e : Expr} : Within a e ↔ ∃ C : Context, fill C a = e := by
  constructor
  · intro h
    induction h with
    | refl => exact ⟨[], rfl⟩
    | child hmem _ ih =>
      obtain ⟨inner, rfl⟩ := ih
      obtain ⟨frame, rfl⟩ := Frame.mem_children_iff.mp hmem
      exact ⟨frame :: inner, rfl⟩
  · intro h
    obtain ⟨C, rfl⟩ := h
    induction C with
    | nil => exact .refl a
    | cons frame inner ih => exact .child (Frame.mem_children_iff.mpr ⟨frame, rfl⟩) ih

/-- **A tree encloses the code of what stands in it.** -/
theorem encloses_code (C : Context) (n : RuntimeNames) :
    ∃ f, Code.Encloses f ∧ ∀ e, (fill C e).code n = f (e.code n) := by
  induction C with
  | nil => exact ⟨_, .alone, fun e => rfl⟩
  | cons frame inner ih =>
    obtain ⟨f, hf, hinner⟩ := ih
    obtain ⟨g, hg, hframe⟩ := frame.encloses_code n
    refine ⟨_, hf.comp hg, fun e => ?_⟩
    rw [fill, hframe, hinner]

end Context

/-! ## 4. Lines -/

/-- The line that a node itself shows in its code, if it shows one. -/
def ownLines : Expr → List Int
  | command line _ _ => [line]
  | forEach line _ _ element position => if element.isSome || position.isSome then [line] else []
  | _ => []

theorem listLines_eq_flatMap (es : List Expr) : listLines es = es.flatMap shownLines := by
  induction es with
  | nil => rfl
  | cons e es ih => rw [listLines, ih, List.flatMap_cons]

theorem clauseLines_eq_flatMap (cs : List (Expr × Expr)) :
    clauseLines cs = cs.flatMap fun c => c.1.shownLines ++ c.2.shownLines := by
  induction cs with
  | nil => rfl
  | cons c cs ih => rw [clauseLines, ih, List.flatMap_cons]

theorem shownLines_eq (e : Expr) : e.shownLines = e.ownLines ++ e.children.flatMap shownLines := by
  cases e with
  | forEach line iterable body element position =>
    cases element <;> cases position <;> simp [shownLines, ownLines, children, optionLines]
  | _ =>
    simp [shownLines, ownLines, children, listLines_eq_flatMap, clauseLines_eq_flatMap,
      List.flatMap_assoc]

theorem shownLines_subset_of_within {a e : Expr} (h : Within a e) : a.shownLines ⊆ e.shownLines := by
  induction h with
  | refl => exact List.Subset.refl _
  | child hmem _ ih =>
    intro line hline
    rw [shownLines_eq]
    exact List.mem_append_right _ (List.mem_flatMap.mpr ⟨_, hmem, ih hline⟩)

namespace Context

/-- **Code is put together from the code of its parts.** What stands in a hole is written between two
    texts and moved in by some levels, two blanks behind each of its line feeds for every level; the texts
    and the number of levels are those of the context, whatever stands in the hole. -/
theorem code?_fill (C : Context) (n : RuntimeNames) :
    ∃ (before behind : Text) (levels : Nat), ∀ e : Expr,
      (fill C e).shownLines.all Decimal.fits = true →
      ∃ code, e.code? n = .ok code ∧ (fill C e).code? n
        = .ok (before ++ code.marginBehind (List.replicate (2 * levels) (.scalar ' ')) ++ behind) := by
  obtain ⟨f, ⟨before, behind, levels, hf⟩, hcode⟩ := encloses_code C n
  refine ⟨before, behind, levels, fun e hfits => ⟨e.code n, ?_, ?_⟩⟩
  · have hwithin : Within e (fill C e) := within_iff_exists_fill.mpr ⟨C, rfl⟩
    refine if_pos (List.all_eq_true.mpr fun line hline => ?_)
    exact List.all_eq_true.mp hfits line (shownLines_subset_of_within hwithin hline)
  · rw [code?, if_pos hfits, hcode, hf]
    rfl

/-- A literal and a block of two lines in the same place, three levels deep. -/
theorem code?_fill_nested :
    let C : Context := [.whileBody (.condition true []), .blockItem [.string "a"] [.string "b"],
      .eachElement 3 (.string "names") (.string "x") none]
    let block : Expr := .block (.command 5 (.string "f") []) [.string "g"]
    (∀ e ∈ [.string "i", block], (fill C e).shownLines.all Decimal.fits = true) ∧
      ∃ (before behind : Text) (levels : Nat), ∀ e ∈ [.string "i", block],
        ∃ code, e.code? {} = .ok code ∧ (fill C e).code? {}
          = .ok (before ++ code.marginBehind (List.replicate (2 * levels) (.scalar ' ')) ++ behind) := by
  intro C block
  have hfits : ∀ e ∈ [.string "i", block], (fill C e).shownLines.all Decimal.fits = true := by
    intro e he
    rcases List.mem_cons.mp he with rfl | he
    · decide +kernel
    · obtain rfl := List.mem_singleton.mp he
      decide +kernel
  obtain ⟨before, behind, levels, h⟩ := code?_fill C {}
  exact ⟨hfits, before, behind, levels, fun e he => h e (hfits e he)⟩

end Context

end Expr

end TemplateTree
