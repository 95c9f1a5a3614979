import TemplateTree.Proofs.Code.Layout
import TemplateTree.Module

/-!
# What a module holds of its expression

A module shows its expression hung at a margin, between an opening and a closing. Taking the margin
away again gives the code of the tree exactly if no literal of the tree holds one of the three
boundaries that literals do not escape (`Template.dedent?_hang_code_iff`). One of them inside a literal
is replaced by a line feed and the margin, which ends the literal in the middle.
-/

namespace TemplateTree

/-- **A tree compiles to its code**, if its line numbers can be written, its brackets are not too
    deep and no loop stands in the condition of a loop. -/
theorem Expr.compile_eq_ok_iff {n : RuntimeNames} {e : Expr} {code : Text} :
    e.compile n = .ok code ↔ e.shownLines.all Decimal.fits = true ∧
      Check.bracketDepth false 0 (Check.wrapped (e.code n)) ≤ Check.maxDepth ∧
      e.loopInCondition = false ∧ e.code n = code := by
  unfold compile code?
  by_cases hfits : e.shownLines.all Decimal.fits = true
  · by_cases hdepth : Check.bracketDepth false 0 (Check.wrapped (e.code n)) > Check.maxDepth
    · simp [hfits, hdepth, Nat.not_le.mpr hdepth, bind, Except.bind, throw, throwThe,
        MonadExceptOf.throw]
    · by_cases hloop : e.loopInCondition = true
      · simp [hfits, hdepth, hloop, bind, Except.bind, throw, throwThe, MonadExceptOf.throw]
      · simp [hfits, hdepth, hloop, Nat.not_lt.mp hdepth, bind, Except.bind, pure, Except.pure]
  · simp [hfits, bind, Except.bind]

namespace Template

open Text

/-! ## 1. The text around the expression -/

/-- The value of a label that may be absent. -/
def labelValue : Option Text → Value
  | none => .null
  | some label => .ofText label

/-- The text of the line that names a source; no label and an empty one are not named. -/
def labelLine : Option Text → Text
  | none => []
  | some [] => []
  | some label => "Source: " ++ label ++ "\n"

theorem sourceLine_labelValue (source : Option Text) :
    sourceLine (labelValue source) = .ok (labelLine source) := by
  cases source with
  | none => rfl
  | some label =>
    cases label with
    | nil => rfl
    | cons c label => rfl

/-- A template of code is rendered as its opening, the hung code and its closing. -/
theorem render_ofCode {s : Settings} {entrypoint : Text} (hs : s.entrypoint = .ofText entrypoint)
    (code : Text) (source : Option Text) :
    (ofCode s code (labelValue source)).render
      = .ok (opening "Generated by tplc. Do not edit." (labelLine source) entrypoint s.names.runtime
        ++ code.hang margin ++ closing) := by
  unfold render ofCode
  rw [sourceLine_labelValue, hs]
  rfl

theorem compile_eq_ok {s : Settings} {e : Expr} {code : Text} (h : e.compile s.names = .ok code)
    (source : Value) : compile s e source = .ok (ofCode s code source) := by
  rw [compile, h]
  rfl

theorem margin_unbroken : Unbroken margin := by decide

/-! ## 2. The code in the module -/

/-- **Hung code keeps its lines exactly if no literal shows a boundary.** -/
theorem dedent?_hang_code_iff {n : RuntimeNames} (hn : n.Valid) (e : Expr) :
    ((e.code n).hang margin).dedent? margin = some (e.code n)
      ↔ ∀ t ∈ e.texts, ∀ c ∈ t, Literal.isRawBoundary c = false := by
  rw [dedent?_eq_some_iff (by decide), hang_eq_indent_iff margin_unbroken (Expr.filled_code hn e),
    ← strays_eq_nil_iff, Expr.strays_code hn]
  simp [Expr.rawBoundaries]

/-- **A module holds the code of its tree, hung at the margin between its opening and its closing**;
    the lines of the code are intact exactly if no literal of the tree holds a next line, a line
    separator or a paragraph separator. -/
theorem dedent?_render_iff {v : Value} {s : Settings} (hs : Settings.validate v = .ok s) {e : Expr}
    {source : Option Text} {t : Template} (ht : compile s e (labelValue source) = .ok t) :
    ∃ code entrypoint body, e.compile s.names = .ok code ∧ s.entrypoint = .ofText entrypoint ∧
      t.render = .ok (opening "Generated by tplc. Do not edit." (labelLine source) entrypoint
        s.names.runtime ++ body ++ closing) ∧
      (body.dedent? margin = some code
        ↔ ∀ text ∈ e.texts, ∀ c ∈ text, Literal.isRawBoundary c = false) := by
  obtain ⟨hnames, -, entrypoint, hentry⟩ := Settings.valid_of_validate hs
  cases hcode : e.compile s.names with
  | error f =>
    rw [compile, hcode] at ht
    cases ht
  | ok code =>
    rw [compile_eq_ok hcode] at ht
    obtain rfl : ofCode s code (labelValue source) = t := Except.ok.inj ht
    obtain ⟨-, -, -, rfl⟩ := Expr.compile_eq_ok_iff.mp hcode
    exact ⟨_, entrypoint, _, rfl, hentry, render_ofCode hentry _ source,
      dedent?_hang_code_iff hnames e⟩

/-- The lines of a block with a choice are intact, with a line feed in one of its literals and a
    source that is named. -/
theorem dedent?_render_block :
    Settings.validate (.mapping []) = .ok {} ∧
      ∃ t, compile {} (.block (.string "a\né") [.choice [(.condition true [], .string "\r")]])
          (labelValue (some "t.yaml")) = .ok t ∧
        ∃ code entrypoint body,
          Expr.compile {} (.block (.string "a\né") [.choice [(.condition true [], .string "\r")]])
            = .ok code ∧
          ({} : Settings).entrypoint = .ofText entrypoint ∧
          t.render = .ok (opening "Generated by tplc. Do not edit." (labelLine (some "t.yaml"))
            entrypoint ({} : Settings).names.runtime ++ body ++ closing) ∧
          body.dedent? margin = some code := by
  have hs : Settings.validate (.mapping []) = .ok {} := rfl
  have hcompile : Expr.compile {}
      (.block (.string "a\né") [.choice [(.condition true [], .string "\r")]]) = .ok _ :=
    Expr.compile_eq_ok_iff.mpr ⟨rfl, by decide +kernel, rfl, rfl⟩
  have ht := compile_eq_ok (s := {}) hcompile (labelValue (some "t.yaml"))
  obtain ⟨code, entrypoint, body, hcode, hentry, hrender, hiff⟩ := dedent?_render_iff hs ht
  exact ⟨hs, _, ht, code, entrypoint, body, hcode, hentry, hrender, hiff.mpr (by decide)⟩

/-- A line separator inside a literal becomes a line feed and the margin. -/
theorem render_line_separator :
    ∃ t code body, Settings.validate (.mapping []) = .ok {} ∧
      compile {} (.string "a\u2028b") .null = .ok t ∧
      Expr.compile {} (.string "a\u2028b") = .ok code ∧
      t.render = .ok (opening "Generated by tplc. Do not edit." [] "render" "runtime" ++ body
        ++ closing) ∧
      body = "        \"a\n        b\"" ∧ body.dedent? margin ≠ some code :=
  ⟨_, _, _, rfl, rfl, rfl, rfl, rfl, by decide⟩

end Template

end TemplateTree
