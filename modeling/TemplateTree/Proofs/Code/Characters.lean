import TemplateTree.Proofs.Code.StringLiteral
import TemplateTree.Proofs.Rendering

/-!
# The characters of generated code

Generated code shows no control character but line feeds and no surrogate (`Expr.visible_code`): names
are identifiers, and literals escape the rest. Hung at the margin of a module it stays so
(`Text.visible_hang`). Of the text of a module, only the label of its source can hold anything else.
-/

namespace TemplateTree

/-! ## 1. Visible texts -/

namespace Text

/-- Whether a code point is a line feed, or neither a control character of ASCII nor a surrogate. -/
def isVisible (c : CodePoint) : Bool :=
  c == newline || (0x20 ≤ c.val && c.char?.isSome)

/-- Every code point of a text is visible. -/
def Visible (t : Text) : Prop := ∀ c ∈ t, isVisible c = true

instance (t : Text) : Decidable (Visible t) :=
  inferInstanceAs (Decidable (∀ c ∈ t, isVisible c = true))

theorem Visible.append {s t : Text} (hs : Visible s) (ht : Visible t) : Visible (s ++ t) :=
  List.forall_mem_append.mpr ⟨hs, ht⟩

theorem visible_join {separator : Text} (hs : Visible separator) {ts : List Text}
    (h : ∀ t ∈ ts, Visible t) : Visible (join separator ts) := by
  unfold join
  induction ts with
  | nil => exact List.forall_mem_nil _
  | cons t ts ih =>
    obtain ⟨ht, hts⟩ := List.forall_mem_cons.mp h
    cases ts with
    | nil => simpa using ht
    | cons u us =>
      rw [List.intercalate_cons_cons]
      exact (ht.append hs).append (ih hts)

theorem visible_unlines {ts : List Text} (h : ∀ t ∈ ts, Visible t) : Visible (unlines ts) :=
  visible_join (by decide) h

theorem visible_indent {margin t : Text} (hm : Visible margin) (ht : Visible t) :
    Visible (indent t margin) := by
  intro c hc
  by_cases hmargin : c ∈ margin
  · exact hm c hmargin
  · exact ht c ((mem_indent_iff hmargin t).mp hc)

/-- The pieces of a text that is cut at its boundaries stand in the text. -/
theorem mem_of_mem_cutLines {t l : Text} {c : CodePoint} (hl : l ∈ cutLines t) (hc : c ∈ l) :
    c ∈ t := by
  fun_induction cutLines t generalizing l with
  | case1 => cases hl
  | case2 t ih =>
    rcases List.mem_cons.mp hl with rfl | hl
    · cases hc
    · exact List.mem_cons_of_mem _ (List.mem_cons_of_mem _ (ih hl hc))
  | case3 d t _ _ ih =>
    rcases List.mem_cons.mp hl with rfl | hl
    · cases hc
    · exact List.mem_cons_of_mem d (ih hl hc)
  | case4 d t _ _ _ _ =>
    obtain rfl : l = [d] := by simpa using hl
    exact List.mem_cons.mpr (.inl (by simpa using hc))
  | case5 d t _ _ first rest hrest ih =>
    rw [hrest] at ih
    rcases List.mem_cons.mp hl with rfl | hl
    · rcases List.mem_cons.mp hc with rfl | hc
      · exact List.mem_cons_self
      · exact List.mem_cons_of_mem d (ih List.mem_cons_self hc)
    · exact List.mem_cons_of_mem d (ih (List.mem_cons_of_mem first hl) hc)

theorem visible_hang {margin t : Text} (hm : Visible margin) (ht : Visible t) :
    Visible (hang t margin) := by
  have hended : Visible (t ++ [newline]) := ht.append (by decide)
  have hpiece : ∀ l ∈ cutLines (t ++ [newline]), Visible l := fun l hl c hc =>
    hended c (mem_of_mem_cutLines hl hc)
  unfold hang
  split
  · exact hm
  · rename_i first rest hcut
    rw [hcut] at hpiece
    obtain ⟨hfirst, hrest⟩ := List.forall_mem_cons.mp hpiece
    refine visible_unlines (List.forall_mem_cons.mpr ⟨hm.append hfirst, ?_⟩)
    intro line hline
    obtain ⟨l, hl, rfl⟩ := List.mem_map.mp hline
    split
    · exact List.forall_mem_nil _
    · exact hm.append (hrest l hl)

/-! ## 2. Names and numbers -/

/-- The code points of identifiers lie above the control characters and beside the surrogates. -/
theorem ranges_visible :
    ∀ r ∈ Identifier.startRanges ++ Identifier.continueRanges,
      0x20 ≤ r.1 ∧ (r.2 < 0xD800 ∨ 0xE000 ≤ r.1) := by
  decide +kernel

theorem isVisible_of_isContinue {c : CodePoint} (h : Identifier.isContinue c = true) :
    isVisible c = true := by
  unfold Identifier.isContinue Identifier.isStart CodePoint.inRanges at h
  rw [← List.any_append] at h
  obtain ⟨r, hr, hin⟩ := List.any_eq_true.mp h
  obtain ⟨hlow, hhigh⟩ : r.1 ≤ c.val ∧ c.val ≤ r.2 := by simpa using hin
  obtain ⟨hcontrol, hsurrogate⟩ := ranges_visible r hr
  have hscalar : c.char?.isSome = true := by
    cases c with
    | scalar c => rfl
    | surrogate n =>
      have hval : (CodePoint.surrogate n).val = 0xD800 + n.val := rfl
      omega
  have hvalue : 0x20 ≤ c.val := by omega
  simp [isVisible, hvalue, hscalar]

theorem visible_of_isName {t : Text} (h : Identifier.isName t = true) : Visible t := by
  unfold Identifier.isName Identifier.isIdentifier at h
  cases t with
  | nil => cases h
  | cons c t =>
    simp only [Bool.and_eq_true, List.all_eq_true] at h
    refine List.forall_mem_cons.mpr ⟨isVisible_of_isContinue ?_, fun d hd =>
      isVisible_of_isContinue (h.1.2 d hd)⟩
    rw [Identifier.isContinue, h.1.1, Bool.true_or]

theorem visible_ofInt (n : Int) : Visible (Decimal.ofInt n) := by
  have hnat : Visible (Decimal.ofNat n.natAbs) := by
    intro c hc
    obtain ⟨d, hd, rfl⟩ := List.mem_map.mp hc
    have hdigit := Nat.isDigit_of_mem_toDigits (by decide) (by decide) hd
    have hvalue : 48 ≤ d.toNat ∧ d.toNat ≤ 57 := by
      simpa [Char.isDigit, UInt32.le_iff_toNat_le] using hdigit
    have hlow : 0x20 ≤ (CodePoint.scalar d).val := Nat.le_trans (by decide) hvalue.1
    simp [isVisible, hlow, CodePoint.char?]
  unfold Decimal.ofInt
  split
  · exact Visible.append (by decide) hnat
  · exact hnat

end Text

open Text

theorem Literal.visible_encode (t : Text) : Visible (encode t) := by
  have hquote : Visible [Target.quote] := by decide
  have hbody : Visible (ofChars (body t)) := by
    intro c hc
    obtain ⟨hvalue, hscalar⟩ := shown_body t c hc
    simp [isVisible, hvalue, hscalar]
  rw [encode_eq]
  exact (hquote.append hbody).append hquote

/-! ## 3. The pieces of the code -/

namespace Code

theorem visible_member {n : RuntimeNames} (hn : n.Valid) {name : Text}
    (hname : Identifier.isName name = true) : Visible (n.member name) :=
  ((visible_of_isName hn.runtime).append (by decide)).append (visible_of_isName hname)

theorem visible_assignment {n : RuntimeNames} (hn : n.Valid) : Visible n.assignment :=
  ((visible_member hn hn.commands).append (by decide)).append (visible_of_isName hn.assign)

theorem visible_nest {t : Text} (h : Visible t) : Visible (nest t) :=
  visible_indent (by decide) h

theorem visible_call {function : Text} {arguments : List Text} (hf : Visible function)
    (ha : ∀ a ∈ arguments, Visible a) : Visible (call function arguments) := by
  have hjoin : Visible (join ", " arguments) := visible_join (by decide) ha
  have hopen : Visible (function ++ "(") := hf.append (by decide)
  exact (hopen.append hjoin).append (by decide)

theorem visible_sequence {items : List Text} (h : ∀ i ∈ items, Visible i) :
    Visible (sequence items) := by
  have hlines : Visible (unlines (items.map fun i => nest (i ++ ","))) := by
    refine visible_unlines fun t ht => ?_
    obtain ⟨i, hi, rfl⟩ := List.mem_map.mp ht
    exact visible_nest ((h i hi).append (by decide))
  exact (Visible.append (by decide) hlines).append (by decide)

theorem visible_test {n : RuntimeNames} (hn : n.Valid) (negated : Bool) {operands : List Text}
    (h : ∀ o ∈ operands, Visible o) : Visible (test n negated operands) := by
  have hnot {t : Text} (ht : Visible t) : Visible ("not " ++ t) :=
    Visible.append (by decide) ht
  unfold test
  split
  · cases negated <;> decide
  · have hcall := visible_call (visible_member hn hn.isEmpty) h
    cases negated with
    | true => exact hcall
    | false => exact hnot hcall
  · have hcall := visible_call (visible_member hn hn.areAllEqual) h
    cases negated with
    | true => exact hnot hcall
    | false => exact hcall

theorem visible_chain {clauses : List (Text × Text)}
    (h : ∀ c ∈ clauses, Visible c.1 ∧ Visible c.2) : Visible (chain clauses) := by
  have hlines : Visible (unlines (clauses.map (fun c => nest (c.2 ++ " if (" ++ c.1 ++ ") else"))
      ++ [nest "None"])) := by
    refine visible_unlines (List.forall_mem_append.mpr ⟨fun t ht => ?_, by decide⟩)
    obtain ⟨c, hc, rfl⟩ := List.mem_map.mp ht
    obtain ⟨hcondition, hbranch⟩ := h c hc
    have hif : Visible (c.2 ++ " if (") := hbranch.append (by decide)
    exact visible_nest ((hif.append hcondition).append (by decide))
  exact (Visible.append (by decide) hlines).append (by decide)

theorem visible_bindStep {n : RuntimeNames} (hn : n.Valid) (line : Int) {bound? : Option Text}
    (hbound : ∀ b ∈ bound?, Visible b) {value : Text} (hv : Visible value) :
    ∀ t ∈ bindStep n line bound? value, Visible t := by
  cases bound? with
  | none => exact List.forall_mem_nil _
  | some name =>
    have harguments : ∀ a ∈ [Decimal.ofInt line, name, value], Visible a := by
      simpa using ⟨visible_ofInt line, hbound name rfl, hv⟩
    have hcall := visible_call (visible_assignment hn) harguments
    exact List.forall_mem_singleton.mpr (hcall.append (by decide))

theorem visible_overElements {n : RuntimeNames} (hn : n.Valid) (line : Int) {iterable body : Text}
    (hiterable : Visible iterable) (hbody : Visible body) {element? position? : Option Text}
    (helement : ∀ e ∈ element?, Visible e) (hposition : ∀ p ∈ position?, Visible p) :
    Visible (overElements n line iterable body element? position?) := by
  have hlast : Visible ("(" ++ result ++ " := " ++ body ++ "),") := by
    have hopen : Visible ("(" ++ result ++ " := ") := by decide
    exact (hopen.append hbody).append (by decide)
  have hsteps : Visible (nest (unlines (bindStep n line position? position
      ++ bindStep n line element? (items ++ "[" ++ position ++ "]")
      ++ ["(" ++ result ++ " := " ++ body ++ "),"]))) := by
    refine visible_nest (visible_unlines (List.forall_mem_append.mpr
      ⟨List.forall_mem_append.mpr ⟨?_, ?_⟩, List.forall_mem_singleton.mpr hlast⟩))
    · exact visible_bindStep hn line hposition (by decide)
    · exact visible_bindStep hn line helement (by decide)
  have hiteration : Visible ("None\nfor " ++ position ++ " in range(len(" ++ items ++ "))\n"
      ++ ("if (\n" ++ nest (unlines (bindStep n line position? position
        ++ bindStep n line element? (items ++ "[" ++ position ++ "]")
        ++ ["(" ++ result ++ " := " ++ body ++ "),"])) ++ "\n) and False")) := by
    have hfor : Visible ("None\nfor " ++ position ++ " in range(len(" ++ items ++ "))\n") := by decide
    have hif : Visible "if (\n" := by decide
    exact hfor.append ((hif.append hsteps).append (by decide))
  have hlambda : Visible ("(lambda " ++ items ++ ", " ++ result ++ "=\"\": [\n") := by decide
  have hcall := visible_call (visible_member hn hn.elements) (List.forall_mem_singleton.mpr hiterable)
  have hloop := (((hlambda.append (visible_nest hiteration)).append (t := "\n] or ") (by decide)).append
    (t := result) (by decide)).append (t := ")(") (by decide)
  exact (hloop.append hcall).append (by decide)

theorem visible_whileHolds {condition body : Text} (hc : Visible condition) (hb : Visible body) :
    Visible (whileHolds condition body) := by
  have hfor : Visible "None\nfor _ in iter(lambda: bool(" := by decide
  have hlambda : Visible ("(lambda " ++ result ++ "=\"\": [\n") := by decide
  have htest := (((hfor.append hc).append (t := "), False)\nif (") (by decide)).append (t := result)
    (by decide)).append (t := " := ") (by decide)
  have hloop := visible_nest ((htest.append hb).append (t := ") and False") (by decide))
  exact (((hlambda.append hloop).append (by decide)).append (by decide)).append (by decide)

end Code

/-! ## 4. The code -/

namespace Expr

variable {n : RuntimeNames}

/-- **Generated code is visible.** -/
theorem visible_code (hn : n.Valid) (e : Expr) : Visible (e.code n) := by
  induction e with
  | string value => exact Literal.visible_encode value
  | command line name arguments hname harguments =>
    have htable := Code.visible_member hn hn.commands
    have hfunction : Visible (n.commandTable ++ "[" ++ code n name ++ "]") :=
      ((htable.append (by decide)).append hname).append (by decide)
    refine Code.visible_call hfunction (List.forall_mem_cons.mpr ⟨visible_ofInt line, ?_⟩)
    rw [codes_eq_map]
    exact List.forall_mem_map.mpr harguments
  | block first rest hfirst hrest =>
    refine Code.visible_sequence (List.forall_mem_cons.mpr ⟨hfirst, ?_⟩)
    rw [codes_eq_map]
    exact List.forall_mem_map.mpr hrest
  | condition negated operands hoperands =>
    refine Code.visible_test hn negated ?_
    rw [codes_eq_map]
    exact List.forall_mem_map.mpr hoperands
  | choice clauses hclauses =>
    refine Code.visible_chain ?_
    rw [clauseCodes_eq_map]
    exact List.forall_mem_map.mpr hclauses
  | forEach line iterable body element position hiterable hbody helement hposition =>
    have hoption {e? : Option Expr} (h : ∀ e ∈ e?, Visible (e.code n)) :
        ∀ t ∈ optionCode n e?, Visible t := by
      cases e? with
      | none => simp [optionCode]
      | some e => simpa [optionCode] using h
    exact Code.visible_overElements hn line hiterable hbody (hoption helement) (hoption hposition)
  | whileLoop test body htest hbody => exact Code.visible_whileHolds htest hbody

end Expr

end TemplateTree
