import TemplateTree.Proofs.Rendering
import TemplateTree.Proofs.Target.Quotation

/-!
# The docstring of a module

A module starts with a literal between triple quotes, which holds the header and names the source. The
label of the source is pasted into it as it is. So the literal closes at the quotes that the module puts
behind the label, and is read as header and label, exactly if the label holds neither three quotes in a
row nor the start of an escape, the line end behind the label counted in (`Template.Harmless`,
`Template.literal?_render_iff`). What stands behind the literal is the same for every label
(`Template.behindDocstring`).
-/

namespace TemplateTree

namespace Target

open Quotation

/-! ## 1. Triple quotes -/

/-- Three quotes in front of a line end are in front of what stands before it. -/
theorem prefix_of_prefix_line {s rest : Text} (h : Quotes.triple.text <+: s ++ newline :: rest) :
    Quotes.triple.text <+: s := by
  have hne : quote ≠ newline := by decide
  match s with
  | [] => simp [Quotes.text, hne] at h
  | [a] => simp [Quotes.text, hne] at h
  | [a, b] => simp [Quotes.text, hne] at h
  | a :: b :: c :: s => simpa [Quotes.text] using h

/-- Three quotes behind a text without quotes are in what stands behind it. -/
theorem infix_of_infix_append {s t : Text} (hs : quote ∉ s) (h : Quotes.triple.text <:+: s ++ t) :
    Quotes.triple.text <:+: t := by
  induction s with
  | nil => exact h
  | cons c s ih =>
    obtain ⟨hc, hs⟩ : quote ≠ c ∧ quote ∉ s := by simpa using hs
    rcases List.infix_cons_iff.mp h with h | h
    · exact absurd (List.cons_prefix_cons.mp h).1 hc
    · exact ih hs h

/-- **A line without closing quotes and escapes is the body of a literal.** -/
theorem body?_of_harmless {b : Bool} {s : Text} (hsource : ∀ c ∈ s, isSource c = true)
    (hquotes : ¬ Quotes.triple.text <:+: s)
    (hchain : List.IsChain NoEscape ((if b then [backslash] else []) ++ (s ++ [newline])))
    (rest : Text) :
    Quotes.triple.body? b (s ++ newline :: (Quotes.triple.text ++ rest))
      = some (s ++ [newline], rest) := by
  induction s generalizing b with
  | nil =>
    cases b with
    | true =>
      have hstart : start? newline = none := (List.isChain_cons_cons.mp hchain).1 rfl
      cases hstart
    | false =>
      have hpart : ¬ Quotes.triple.text <+: newline :: (Quotes.triple.text ++ rest) := fun h =>
        absurd (prefix_of_prefix_line (s := []) h) (by decide)
      rw [List.nil_append, Quotes.body?_of_part rfl hpart (by simp),
        beq_false_of_ne (by decide), Quotes.body?_of_close]
      rfl
  | cons c s ih =>
    obtain ⟨hc, hsource⟩ := List.forall_mem_cons.mp hsource
    have hinner : ¬ Quotes.triple.text <:+: s := fun h =>
      hquotes (List.infix_cons_iff.mpr (Or.inr h))
    cases b with
    | true =>
      have hrest : List.IsChain NoEscape (s ++ [newline]) :=
        (List.isChain_cons.mp (List.isChain_cons_cons.mp hchain).2).2
      rw [List.cons_append, Quotes.body?_of_escaped hc,
        ih (b := false) hsource hinner hrest]
      rfl
    | false =>
      have hpart : ¬ Quotes.triple.text <+: c :: (s ++ newline :: (Quotes.triple.text ++ rest)) :=
        fun h => hquotes (prefix_of_prefix_line (s := c :: s) h).isInfix
      have hrest : List.IsChain NoEscape
          ((if c == backslash then [backslash] else []) ++ (s ++ [newline])) := by
        by_cases hb : c = backslash
        · simpa [hb] using hchain
        · simpa [hb] using (List.isChain_cons.mp hchain).2
      rw [List.cons_append, Quotes.body?_of_part hc hpart (by simp), ih hsource hinner hrest]
      rfl

/-- A body without escapes holds no three quotes in a row. -/
theorem not_infix_of_body? {b : Bool} {t body rest : Text}
    (h : Quotes.triple.body? b t = some (body, rest))
    (hchain : List.IsChain NoEscape ((if b then [backslash] else []) ++ body)) :
    ¬ Quotes.triple.text <:+: body := by
  have heq := Quotes.eq_of_body? h
  induction body generalizing b t with
  | nil => decide
  | cons c body ih =>
    subst heq
    intro hinside
    rw [List.cons_append, Quotes.body?] at h
    by_cases hc : isSource c = false
    · rw [if_pos hc] at h
      cases h
    rw [if_neg hc] at h
    cases b with
    | true =>
      obtain ⟨hstart, htail⟩ := List.isChain_cons_cons.mp hchain
      obtain ⟨r, hr, heq⟩ := Option.map_eq_some_iff.mp h
      obtain ⟨hbody, rfl⟩ := Prod.mk.inj heq
      obtain rfl := (List.cons.inj hbody).2
      rcases List.infix_cons_iff.mp hinside with hstarts | hinside
      · obtain ⟨rfl, -⟩ := List.cons_prefix_cons.mp hstarts
        cases hstart rfl
      · exact ih (b := false) hr (List.isChain_cons.mp htail).2 rfl hinside
    | false =>
      rw [if_neg (by simp)] at h
      split at h
      · cases congrArg Prod.fst (Option.some.inj h)
      · rename_i hpart
        rw [if_neg (by simp)] at h
        obtain ⟨r, hr, heq⟩ := Option.map_eq_some_iff.mp h
        obtain ⟨hbody, rfl⟩ := Prod.mk.inj heq
        obtain rfl := (List.cons.inj hbody).2
        rcases List.infix_cons_iff.mp hinside with hstarts | hinside
        · exact hpart (hstarts.trans (List.prefix_append _ _))
        · refine ih hr ?_ rfl hinside
          by_cases hb : c = backslash
          · simpa [hb] using hchain
          · simpa [hb] using (List.isChain_cons.mp hchain).2

/-- A text without a backslash starts no escape in what stands behind it. -/
theorem isChain_append_iff {s : Text} (hs : backslash ∉ s) (t : Text) :
    List.IsChain NoEscape (s ++ t) ↔ List.IsChain NoEscape t := by
  induction s with
  | nil => exact Iff.rfl
  | cons c s ih =>
    obtain ⟨hc, hs⟩ : backslash ≠ c ∧ backslash ∉ s := by simpa using hs
    rw [List.cons_append, List.isChain_cons, ih hs]
    exact and_iff_right fun d _ => noEscape_of_ne (Ne.symm hc) d

end Target

namespace Template

open Target Quotation

/-! ## 2. Modules -/

/-- The header of a module and the start of the line that names its source. -/
def beforeLabel : Text := "Generated by tplc. Do not edit.\nSource: "

/-- The text of a module behind its docstring. -/
def behindDocstring (entrypoint runtime code : Text) : Text :=
  "\n\n\ndef " ++ entrypoint ++ "(" ++ runtime ++ "):\n    return (\n" ++ code.hang margin ++ closing

/-- Whether a label holds neither three quotes in a row nor the start of an escape. -/
def Harmless (label : Text) : Prop :=
  ¬ Quotes.triple.text <:+: label ∧ List.IsChain NoEscape (label ++ [newline])

instance (label : Text) : Decidable (Harmless label) :=
  inferInstanceAs (Decidable (_ ∧ _))

/-- A module with a label is its docstring and what stands behind it. -/
theorem opening_label {label : Text} (hne : label ≠ []) (entrypoint runtime code : Text) :
    opening "Generated by tplc. Do not edit." (labelLine (some label)) entrypoint runtime
        ++ code.hang margin ++ closing
      = Quotes.triple.text ++ ((beforeLabel ++ label) ++ newline :: (Quotes.triple.text
        ++ behindDocstring entrypoint runtime code)) := by
  have hquotes : Text.ofString "\"\"\"" = Quotes.triple.text := rfl
  have hline : Text.ofString "\n" = [newline] := rfl
  have hclose : Text.ofString "\"\"\"\n\n\ndef " = Quotes.triple.text ++ Text.ofString "\n\n\ndef " := rfl
  have hfront : beforeLabel = Text.ofString "Generated by tplc. Do not edit." ++ [newline]
      ++ Text.ofString "Source: " := rfl
  have hlabel : labelLine (some label) = Text.ofString "Source: " ++ label ++ [newline] := by
    cases label with
    | nil => exact absurd rfl hne
    | cons c label => rfl
  rw [opening, hlabel, hquotes, hline, hclose, hfront, behindDocstring]
  simp only [List.append_assoc, List.cons_append, List.nil_append]

section

variable {label behind : Text}

theorem literal?_of_harmless (named : Text → Option CodePoint)
    (hsource : ∀ c ∈ label, isSource c = true) (h : Harmless label) :
    literal? named (Quotes.triple.text ++ ((beforeLabel ++ label) ++ newline :: (Quotes.triple.text
      ++ behind))) = some (beforeLabel ++ label ++ [newline], behind) := by
  have hbefore : ∀ c ∈ beforeLabel ++ label, isSource c = true := by
    have hfixed : ∀ c ∈ beforeLabel, isSource c = true := by decide
    exact List.forall_mem_append.mpr ⟨hfixed, hsource⟩
  have hchain : List.IsChain NoEscape (beforeLabel ++ label ++ [newline]) := by
    rw [List.append_assoc]
    exact (isChain_append_iff (by decide) _).mpr h.2
  have hquotes : ¬ Quotes.triple.text <:+: beforeLabel ++ label := fun hinside =>
    h.1 (infix_of_infix_append (by decide) hinside)
  have hbody := body?_of_harmless (b := false) hbefore hquotes hchain behind
  have hend : backslash ∉ (beforeLabel ++ label ++ [newline]).getLast? := by
    rw [List.getLast?_concat]
    decide
  have htext : ((beforeLabel ++ label ++ [newline]).map Item.raw).flatMap Item.text
      = beforeLabel ++ label ++ [newline] := by
    rw [List.flatMap_map]
    exact List.flatMap_singleton' _
  rw [literal?, if_pos (List.prefix_append _ _), if_pos (List.prefix_append _ _), List.drop_left, hbody]
  simp only [Option.bind_eq_bind, Option.bind_some, items?_eq_map_raw hend hchain, Option.pure_def,
    htext]

theorem harmless_of_literal? {named : Text → Option CodePoint}
    (h : literal? named (Quotes.triple.text ++ ((beforeLabel ++ label) ++ newline ::
      (Quotes.triple.text ++ behind))) = some (beforeLabel ++ label ++ [newline], behind)) :
    Harmless label := by
  rw [literal?, if_pos (List.prefix_append _ _), if_pos (List.prefix_append _ _), List.drop_left] at h
  simp only [Option.bind_eq_bind, Option.bind_eq_some_iff, Option.pure_def] at h
  obtain ⟨⟨body, rest⟩, hbody, items, hitems, heq⟩ := h
  obtain ⟨htext, rfl⟩ := Prod.mk.inj (Option.some.inj heq)
  -- What stands behind has one length only, so the literal closes where it should.
  have hparts : beforeLabel ++ label ++ [newline] = body := by
    have hall := Quotes.eq_of_body? hbody
    rw [List.append_cons] at hall
    exact List.append_cancel_right hall
  subst hparts
  have hchain := isChain_of_items? hitems htext
  have hquotes := not_infix_of_body? (b := false) hbody hchain
  refine ⟨fun hinside => hquotes (hinside.trans ?_), ?_⟩
  · exact ⟨beforeLabel, [newline], rfl⟩
  · rw [List.append_assoc] at hchain
    exact hchain.right_of_append

end

/-- **The docstring of a module is read as its header and the label of its source**, and closes at its own
    quotes, exactly if the label is harmless; the function behind the docstring is the same for every
    label. -/
theorem literal?_render_iff (named : Text → Option CodePoint) {v : Value} {s : Settings}
    (hs : Settings.validate v = .ok s) {e : Expr} {code : Text} (hcode : e.compile s.names = .ok code) :
    ∃ behind, (∃ entrypoint, s.entrypoint = .ofText entrypoint ∧
        behind = behindDocstring entrypoint s.names.runtime code) ∧
      ∀ label, label ≠ [] → (∀ c ∈ label, isSource c = true) →
        ∃ t module, compile s e (.ofText label) = .ok t ∧ t.render = .ok module ∧
          (literal? named module
              = some ("Generated by tplc. Do not edit." ++ "\n" ++ "Source: " ++ label ++ "\n", behind)
            ↔ Harmless label) := by
  obtain ⟨-, -, entrypoint, hentry⟩ := Settings.valid_of_validate hs
  refine ⟨behindDocstring entrypoint s.names.runtime code, ⟨entrypoint, hentry, rfl⟩, ?_⟩
  intro label hne hsource
  have hrender := render_ofCode hentry code (some label)
  rw [opening_label hne] at hrender
  exact ⟨_, _, compile_eq_ok hcode (.ofText label), hrender, harmless_of_literal?,
    literal?_of_harmless named hsource⟩

/-- A label with a backslash that starts no escape, two quotes in a row and a line end is harmless. -/
theorem literal?_render_backslash :
    Settings.validate (.mapping []) = .ok {} ∧ Expr.compile {} (.string "x") = .ok "\"x\"" ∧
      ∃ t module, compile {} (.string "x") (.ofText "a\\d\"\"\nb\"") = .ok t ∧
        t.render = .ok module ∧
        literal? (fun _ => none) module
          = some (Text.ofString "Generated by tplc. Do not edit.\nSource: a\\d\"\"\nb\"\n",
              Text.ofString "\n\n\ndef render(runtime):\n    return (\n        \"x\"\n    )\n") := by
  have hs : Settings.validate (.mapping []) = .ok {} := rfl
  have hcode : Expr.compile {} (.string "x") = .ok "\"x\"" := by rfl
  obtain ⟨behind, ⟨entrypoint, hentry, rfl⟩, h⟩ := literal?_render_iff (fun _ => none) hs hcode
  have hname : Text.ofString "render" = entrypoint := by
    injection hentry with hscalar
    injection hscalar
  subst hname
  obtain ⟨t, module, ht, hmodule, hiff⟩ := h "a\\d\"\"\nb\"" (by decide) (by decide)
  have hread := hiff.mpr (by decide +kernel)
  have htext : Text.ofString "Generated by tplc. Do not edit." ++ Text.ofString "\n"
      ++ Text.ofString "Source: " ++ Text.ofString "a\\d\"\"\nb\"" ++ Text.ofString "\n"
      = Text.ofString "Generated by tplc. Do not edit.\nSource: a\\d\"\"\nb\"\n" := by decide +kernel
  have hbehind : behindDocstring "render" ({} : Settings).names.runtime "\"x\""
      = Text.ofString "\n\n\ndef render(runtime):\n    return (\n        \"x\"\n    )\n" := by
    decide +kernel
  rw [htext, hbehind] at hread
  exact ⟨hs, hcode, t, module, ht, hmodule, hread⟩

/-- Three quotes in a label close the docstring in the middle of it. -/
theorem literal?_render_quotes :
    Settings.validate (.mapping []) = .ok {} ∧
      ∃ t module, compile {} (.string "x") (.ofText "a\"\"\"b") = .ok t ∧
        t.render = .ok module ∧
        literal? (fun _ => none) module
          = some (Text.ofString "Generated by tplc. Do not edit.\nSource: a",
              Text.ofString "b\n\"\"\"\n\n\ndef render(runtime):\n    return (\n        \"x\"\n    )\n") ∧
        literal? (fun _ => none) module
          ≠ some (Text.ofString "Generated by tplc. Do not edit.\nSource: a\"\"\"b\n",
              Text.ofString "\n\n\ndef render(runtime):\n    return (\n        \"x\"\n    )\n") :=
  ⟨rfl, _, _, rfl, rfl, by decide +kernel, by decide +kernel⟩

end Template

end TemplateTree
