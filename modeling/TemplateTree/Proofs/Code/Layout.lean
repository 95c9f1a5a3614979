import TemplateTree.Proofs.Expr.Induction
import TemplateTree.Proofs.Settings.Names
import TemplateTree.Proofs.Text.Hanging
import TemplateTree.Expr.Code

/-!
# The lines of generated code

Generated code breaks its lines with line feeds, none of which stands in a literal, and no line is
empty (`Expr.filled_code`). Of the other line boundaries of Unicode, the literals of a tree show three
as they are (`Literal.isRawBoundary`) and escape the rest; nothing else in the code holds one. So the
boundaries of the code that are no line feeds can be listed (`Expr.strays_code`).
-/

namespace TemplateTree

/-! ## 1. Texts without a boundary -/

namespace Text

/-- No code point of a text ends a line. -/
def Unbroken (t : Text) : Prop := ∀ c ∈ t, isBoundary c = false

instance (t : Text) : Decidable (Unbroken t) :=
  inferInstanceAs (Decidable (∀ c ∈ t, isBoundary c = false))

theorem Unbroken.append {s t : Text} (hs : Unbroken s) (ht : Unbroken t) : Unbroken (s ++ t) := by
  intro c hc
  rcases List.mem_append.mp hc with hc | hc
  · exact hs c hc
  · exact ht c hc

theorem Unbroken.filled {t : Text} (h : Unbroken t) (hne : t ≠ []) (fresh : Bool) :
    filled fresh t = true := by
  have hnl : newline ∉ t := by
    intro hmem
    have hb := h newline hmem
    rw [isBoundary_newline] at hb
    cases hb
  exact filled_of_not_mem hne hnl fresh

theorem val_of_isBoundary {c : CodePoint} (h : isBoundary c = true) :
    c.val ∈ [0xa, 0xb, 0xc, 0xd, 0x1c, 0x1d, 0x1e, 0x85, 0x2028, 0x2029] := by
  cases c with
  | surrogate n => cases h
  | scalar c =>
    simp only [isBoundary, Bool.or_eq_true, Bool.and_eq_true, decide_eq_true_eq, beq_iff_eq,
      Char.le_def, UInt32.le_iff_toNat_le] at h
    rcases h with (((h | h) | rfl) | rfl) | rfl
    · have : 10 ≤ c.toNat ∧ c.toNat ≤ 13 := h
      simp only [CodePoint.val, List.mem_cons]
      omega
    · have : 28 ≤ c.toNat ∧ c.toNat ≤ 30 := h
      simp only [CodePoint.val, List.mem_cons]
      omega
    all_goals decide

/-- No code point of an identifier has the number of a boundary. -/
theorem boundaries_outside_ranges :
    ∀ v ∈ [0xa, 0xb, 0xc, 0xd, 0x1c, 0x1d, 0x1e, 0x85, 0x2028, 0x2029],
      ∀ r ∈ Identifier.startRanges ++ Identifier.continueRanges, ¬ (r.1 ≤ v ∧ v ≤ r.2) := by
  decide +kernel

theorem isBoundary_of_isContinue {c : CodePoint} (h : Identifier.isContinue c = true) :
    isBoundary c = false := by
  rw [Bool.eq_false_iff]
  intro hb
  have hrange : ∃ r ∈ Identifier.startRanges ++ Identifier.continueRanges,
      r.1 ≤ c.val ∧ c.val ≤ r.2 := by
    unfold Identifier.isContinue Identifier.isStart CodePoint.inRanges at h
    rw [← List.any_append] at h
    obtain ⟨r, hr, hin⟩ := List.any_eq_true.mp h
    exact ⟨r, hr, by simpa using hin⟩
  obtain ⟨r, hr, hin⟩ := hrange
  exact boundaries_outside_ranges c.val (val_of_isBoundary hb) r hr hin

theorem unbroken_of_isName {t : Text} (h : Identifier.isName t = true) : Unbroken t ∧ t ≠ [] := by
  unfold Identifier.isName Identifier.isIdentifier at h
  cases t with
  | nil => cases h
  | cons c t =>
    simp only [Bool.and_eq_true, List.all_eq_true] at h
    refine ⟨fun d hd => isBoundary_of_isContinue ?_, by simp⟩
    rcases List.mem_cons.mp hd with rfl | hd
    · rw [Identifier.isContinue, h.1.1, Bool.true_or]
    · exact h.1.2 d hd

theorem isBoundary_of_isDigit {c : Char} (h : c.isDigit = true) : isBoundary (.scalar c) = false := by
  rw [Bool.eq_false_iff]
  intro hb
  have hv := val_of_isBoundary hb
  have hd : 48 ≤ c.toNat ∧ c.toNat ≤ 57 := by
    simpa [Char.isDigit, UInt32.le_iff_toNat_le] using h
  simp only [CodePoint.val, List.mem_cons, List.not_mem_nil, or_false] at hv
  omega

theorem unbroken_ofInt (n : Int) : Unbroken (Decimal.ofInt n) ∧ Decimal.ofInt n ≠ [] := by
  have hnat : Unbroken (Decimal.ofNat n.natAbs) := by
    intro c hc
    obtain ⟨d, hd, rfl⟩ := List.mem_map.mp hc
    exact isBoundary_of_isDigit (Nat.isDigit_of_mem_toDigits (by decide) (by decide) hd)
  have hne : Decimal.ofNat n.natAbs ≠ [] := by
    simp [Decimal.ofNat, Text.ofChars, Nat.toDigits_ne_nil]
  have hsign : Unbroken (Text.ofString "-") := by decide
  unfold Decimal.ofInt
  split
  · exact ⟨hsign.append hnat, by simp [hne]⟩
  · exact ⟨hnat, hne⟩

/-! ## 2. Boundaries that are no line feeds -/

/-- The boundaries in a text that are no line feeds, in their order. -/
def strays (t : Text) : Text := t.filter fun c => c != newline && isBoundary c

theorem strays_append (s t : Text) : strays (s ++ t) = strays s ++ strays t :=
  List.filter_append s t

theorem strays_cons (c : CodePoint) (t : Text) : strays (c :: t) = strays [c] ++ strays t :=
  strays_append [c] t

theorem mem_strays_iff {t : Text} {c : CodePoint} :
    c ∈ strays t ↔ c ∈ t ∧ c ≠ newline ∧ isBoundary c = true := by
  simp [strays, List.mem_filter]

theorem strays_eq_nil_iff {t : Text} :
    strays t = [] ↔ ∀ c ∈ t, isBoundary c = true → c = newline := by
  rw [List.eq_nil_iff_forall_not_mem]
  constructor
  · intro h c hc hb
    by_cases hnl : c = newline
    · exact hnl
    · exact absurd (mem_strays_iff.mpr ⟨hc, hnl, hb⟩) (h c)
  · intro h c hc
    obtain ⟨hmem, hnl, hb⟩ := mem_strays_iff.mp hc
    exact hnl (h c hmem hb)

theorem Unbroken.strays_eq {t : Text} (h : Unbroken t) : strays t = [] := by
  unfold strays
  rw [List.filter_eq_nil_iff]
  intro c hc
  simp [h c hc]

theorem strays_join {separator : Text} (hs : strays separator = []) (ts : List Text) :
    strays (join separator ts) = ts.flatMap strays := by
  unfold join
  induction ts with
  | nil => rfl
  | cons t ts ih =>
    cases ts with
    | nil => simp
    | cons u us =>
      rw [List.intercalate_cons_cons, strays_append, strays_append, hs, ih, List.append_nil]
      rfl

theorem strays_unlines (ts : List Text) : strays (unlines ts) = ts.flatMap strays :=
  strays_join rfl ts

theorem strays_marginBehind {margin : Text} (hm : strays margin = []) (t : Text) :
    strays (marginBehind t margin) = strays t := by
  induction t with
  | nil => rfl
  | cons c t ih =>
    by_cases hc : c = newline
    · rw [hc, marginBehind_newline, strays_cons, strays_append, hm, ih, strays_cons newline t]
      rfl
    · rw [marginBehind_cons t margin hc, strays_cons, ih, strays_cons c t]

theorem strays_indent {margin : Text} (hm : strays margin = []) (t : Text) :
    strays (indent t margin) = strays t := by
  rw [indent_eq, strays_append, hm, strays_marginBehind hm, List.nil_append]

end Text

/-! ## 3. Literals -/

namespace Literal

open Text

/-- Whether a code point is a boundary that a literal shows as it is: next line, line separator or
    paragraph separator. -/
def isRawBoundary : CodePoint → Bool
  | .scalar c => c == '\x85' || c == '\u2028' || c == '\u2029'
  | .surrogate _ => false

theorem isRawBoundary_eq {c : Char} (hc : 0x20 ≤ c.toNat) :
    isRawBoundary (.scalar c) = isBoundary (.scalar c) := by
  have hval : c.val.toNat = c.toNat := rfl
  have hfeeds : ('\n' ≤ c && c ≤ '\r') = false := by
    rw [Bool.and_eq_false_iff, decide_eq_false_iff_not, decide_eq_false_iff_not, Char.le_def,
      Char.le_def, UInt32.le_iff_toNat_le, UInt32.le_iff_toNat_le, hval]
    exact Or.inr (show ¬ c.toNat ≤ 13 by omega)
  have hseparators : ('\x1c' ≤ c && c ≤ '\x1e') = false := by
    rw [Bool.and_eq_false_iff, decide_eq_false_iff_not, decide_eq_false_iff_not, Char.le_def,
      Char.le_def, UInt32.le_iff_toNat_le, UInt32.le_iff_toNat_le, hval]
    exact Or.inr (show ¬ c.toNat ≤ 30 by omega)
  rw [isBoundary, hfeeds, hseparators]
  rfl

theorem isRawBoundary_of_lt {c : Char} (hc : c.toNat < 0x20) :
    isRawBoundary (.scalar c) = false := by
  rw [Bool.eq_false_iff]
  intro h
  simp only [isRawBoundary, Bool.or_eq_true, beq_iff_eq] at h
  rcases h with (rfl | rfl) | rfl <;> exact absurd hc (by decide)

/-- A number is written without a boundary. -/
theorem unbroken_byNumber (n : Nat) : Unbroken (ofChars (['\\', 'u'] ++ hex4 n)) := by
  have hdigit : ∀ d < 16, isBoundary (.scalar (Nat.digitChar d)) = false := by decide
  have hhex : ∀ m, isBoundary (.scalar (hexDigit m)) = false := fun m =>
    hdigit (m % 16) (Nat.mod_lt m (by decide))
  intro c hc
  obtain ⟨d, hd, rfl⟩ := List.mem_map.mp hc
  simp only [hex4, hex2, List.cons_append, List.nil_append, List.mem_cons, List.not_mem_nil,
    or_false] at hd
  rcases hd with rfl | rfl | rfl | rfl | rfl | rfl
  · rfl
  · rfl
  all_goals exact hhex _

theorem filter_escape (c : CodePoint) :
    (ofChars (escape c)).filter isBoundary = [c].filter isRawBoundary := by
  have hnumber : ∀ n, (ofChars (['\\', 'u'] ++ hex4 n)).filter isBoundary = [] := by
    intro n
    rw [List.filter_eq_nil_iff]
    intro d hd
    rw [unbroken_byNumber n d hd]
    simp
  unfold escape
  split
  case h_8 c _ _ _ _ _ _ _ =>
    split
    · rename_i hc
      rw [hnumber, List.filter_cons_of_neg (by rw [isRawBoundary_of_lt hc]; simp), List.filter_nil]
    · rename_i hc
      have heq := isRawBoundary_eq (c := c) (by omega)
      simp [ofChars, List.filter_cons, heq]
  case h_9 n =>
    rw [hnumber]
    rfl
  all_goals rfl

/-- **The boundaries in a literal are those of its text that it does not escape.** -/
theorem filter_encode (t : Text) : (encode t).filter isBoundary = t.filter isRawBoundary := by
  have hbody : (ofChars (body t)).filter isBoundary = t.filter isRawBoundary := by
    induction t with
    | nil => rfl
    | cons c t ih =>
      have hcons : ofChars (body (c :: t)) = ofChars (escape c) ++ ofChars (body t) := by
        simp [body, ofChars]
      rw [hcons, List.filter_append, filter_escape, ih, ← List.filter_append, List.singleton_append]
  have hquotes : encode t = .scalar '"' :: (ofChars (body t) ++ [.scalar '"']) := by
    simp [encode, ofChars]
  rw [hquotes, List.filter_cons_of_neg (by decide), List.filter_append, hbody,
    List.filter_cons_of_neg (by decide), List.filter_nil, List.append_nil]

theorem strays_encode (t : Text) : strays (encode t) = t.filter isRawBoundary := by
  have hraw : ∀ c, isRawBoundary c = true → (c != newline) = true := by
    rintro c h
    rw [bne_iff_ne]
    rintro rfl
    exact absurd h (by decide)
  have hsplit : strays (encode t) = ((encode t).filter isBoundary).filter (· != newline) := by
    rw [List.filter_filter]
    rfl
  rw [hsplit, filter_encode, List.filter_eq_self]
  intro c hc
  exact hraw c (List.mem_filter.mp hc).2

theorem filled_encode (t : Text) (fresh : Bool) : filled fresh (encode t) = true := by
  refine filled_of_not_mem (by simp [encode, ofChars]) (fun hmem => ?_) fresh
  have h : newline ∈ t.filter isRawBoundary := by
    rw [← filter_encode]
    exact List.mem_filter.mpr ⟨hmem, isBoundary_newline⟩
  exact absurd (List.mem_filter.mp h).2 (by decide)

end Literal

/-! ## 4. The pieces of the code -/

namespace Code

open Text

theorem unbroken_member {n : RuntimeNames} (hn : n.Valid) {name : Text}
    (hname : Identifier.isName name = true) : Unbroken (n.member name) ∧ n.member name ≠ [] := by
  have hruntime := (unbroken_of_isName hn.runtime).1
  have hdot : Unbroken (ofString ".") := by decide
  refine ⟨(hruntime.append hdot).append (unbroken_of_isName hname).1, ?_⟩
  simp [RuntimeNames.member, (unbroken_of_isName hname).2]

theorem unbroken_assignment {n : RuntimeNames} (hn : n.Valid) :
    Unbroken n.assignment ∧ n.assignment ≠ [] := by
  have htable := unbroken_member hn hn.commands
  have hdot : Unbroken (ofString ".") := by decide
  refine ⟨(htable.1.append hdot).append (unbroken_of_isName hn.assign).1, ?_⟩
  simp [RuntimeNames.assignment, RuntimeNames.commandTable, htable.2]

/-- A text without a boundary but line feeds, such as the fixed pieces of the code. -/
theorem strays_fixed {t : Text} (h : t.all (fun c => c == newline || !isBoundary c) = true) :
    strays t = [] := by
  unfold strays
  rw [List.filter_eq_nil_iff]
  intro c hc
  have hc := List.all_eq_true.mp h c hc
  by_cases hnl : c = newline
  · simp [hnl]
  · simpa [hnl] using hc

theorem strays_nest (t : Text) : strays (nest t) = strays t :=
  strays_indent rfl t

theorem strays_call (function : Text) (arguments : List Text) :
    strays (call function arguments) = strays function ++ arguments.flatMap strays := by
  rw [call]
  simp (disch := decide) only [strays_append, strays_fixed, strays_join, List.append_nil]

theorem strays_sequence (items : List Text) : strays (sequence items) = items.flatMap strays := by
  rw [sequence]
  simp (disch := decide) only [strays_append, strays_fixed, strays_unlines, strays_nest,
    List.flatMap_map, List.append_nil, List.nil_append]

theorem strays_test {n : RuntimeNames} (hn : n.Valid) (negated : Bool) (operands : List Text) :
    strays (test n negated operands) = operands.flatMap strays := by
  have hempty := (unbroken_member hn hn.isEmpty).1.strays_eq
  have hequal := (unbroken_member hn hn.areAllEqual).1.strays_eq
  have hnot : strays ("not " : Text) = [] := rfl
  unfold test
  split
  · cases negated <;> rfl
  · cases negated <;>
      simp [strays_append, strays_call, RuntimeNames.emptyTest, hempty, hnot]
  · cases negated <;>
      simp [strays_append, strays_call, RuntimeNames.equalTest, hequal, hnot]

theorem strays_chain (clauses : List (Text × Text)) :
    strays (chain clauses) = clauses.flatMap fun c => strays c.2 ++ strays c.1 := by
  rw [chain]
  simp (disch := decide) only [strays_append, strays_fixed, strays_unlines, strays_nest,
    List.flatMap_append, List.flatMap_map, List.flatMap_cons, List.flatMap_nil,
    List.append_nil, List.nil_append]

theorem strays_bindStep {n : RuntimeNames} (hn : n.Valid) (line : Int) (bound? : Option Text)
    (value : Text) (hv : strays value = []) :
    (bindStep n line bound? value).flatMap strays = bound?.toList.flatMap strays := by
  have hassign := (unbroken_assignment hn).1.strays_eq
  have hline := (unbroken_ofInt line).1.strays_eq
  have hcomma : strays ("," : Text) = [] := rfl
  cases bound? with
  | none => rfl
  | some name => simp [bindStep, strays_append, strays_call, hassign, hline, hv, hcomma]

theorem strays_overElements {n : RuntimeNames} (hn : n.Valid) (line : Int) (iterable body : Text)
    (element? position? : Option Text) :
    strays (overElements n line iterable body element? position?)
      = position?.toList.flatMap strays ++ element?.toList.flatMap strays ++ strays body
        ++ strays iterable := by
  have helements := (unbroken_member hn hn.elements).1.strays_eq
  have hposition := strays_bindStep hn line position? position rfl
  have helement := strays_bindStep hn line element? (items ++ "[" ++ position ++ "]") rfl
  rw [overElements]
  simp (disch := decide) only [strays_append, strays_fixed, strays_unlines, strays_nest, strays_call,
    RuntimeNames.elementList, helements, List.flatMap_append, hposition, helement,
    List.flatMap_cons, List.flatMap_nil, List.append_nil, List.nil_append]

theorem strays_whileHolds (condition body : Text) :
    strays (whileHolds condition body) = strays condition ++ strays body := by
  rw [whileHolds]
  simp (disch := decide) only [strays_append, strays_fixed, strays_nest, List.append_nil,
    List.nil_append]

end Code

/-! ## 5. The boundaries of the code -/

namespace Expr

open Text

mutual

/-- The texts of the literals of an expression, in the order in which its code shows them. -/
def texts : Expr → List Text
  | string value => [value]
  | command _ name arguments => texts name ++ listTexts arguments
  | block first rest => texts first ++ listTexts rest
  | condition _ operands => listTexts operands
  | choice clauses => clauseTexts clauses
  | forEach _ iterable body element position =>
    optionTexts position ++ optionTexts element ++ texts body ++ texts iterable
  | whileLoop test body => texts test ++ texts body

/-- The texts of the literals of some expressions. -/
def listTexts : List Expr → List Text
  | [] => []
  | e :: es => texts e ++ listTexts es

/-- The texts of the literals of clauses; a branch is shown in front of its condition. -/
def clauseTexts : List (Expr × Expr) → List Text
  | [] => []
  | (c, b) :: rest => texts b ++ texts c ++ clauseTexts rest

/-- The texts of the literals of an expression that may be absent. -/
def optionTexts : Option Expr → List Text
  | none => []
  | some e => texts e

end

/-- The boundaries that literals of some texts show, one after another. -/
def rawBoundaries (ts : List Text) : Text := ts.flatMap (List.filter Literal.isRawBoundary)

theorem rawBoundaries_append (ss ts : List Text) :
    rawBoundaries (ss ++ ts) = rawBoundaries ss ++ rawBoundaries ts :=
  List.flatMap_append

section

variable {n : RuntimeNames}

theorem strays_codes {es : List Expr} (h : ∀ e ∈ es, strays (e.code n) = rawBoundaries e.texts) :
    (codes n es).flatMap strays = rawBoundaries (listTexts es) := by
  induction es with
  | nil => rfl
  | cons e es ih =>
    rw [codes, List.flatMap_cons, h e (by simp), ih fun x hx => h x (List.mem_cons_of_mem e hx),
      listTexts, rawBoundaries_append]

theorem strays_clauseCodes {cs : List (Expr × Expr)}
    (h : ∀ c ∈ cs, strays (c.1.code n) = rawBoundaries c.1.texts ∧
      strays (c.2.code n) = rawBoundaries c.2.texts) :
    ((clauseCodes n cs).flatMap fun c => strays c.2 ++ strays c.1)
      = rawBoundaries (clauseTexts cs) := by
  induction cs with
  | nil => rfl
  | cons c cs ih =>
    obtain ⟨hc, hb⟩ := h c (by simp)
    rw [clauseCodes, List.flatMap_cons, hc, hb, ih fun x hx => h x (List.mem_cons_of_mem c hx),
      clauseTexts, rawBoundaries_append, rawBoundaries_append]

theorem strays_optionCode {e? : Option Expr}
    (h : ∀ e ∈ e?, strays (e.code n) = rawBoundaries e.texts) :
    (optionCode n e?).toList.flatMap strays = rawBoundaries (optionTexts e?) := by
  cases e? with
  | none => rfl
  | some e => simpa [optionCode, optionTexts] using h e rfl

/-- **The boundaries in the code that are no line feeds are those that its literals do not escape**,
    one after another. -/
theorem strays_code (hn : n.Valid) (e : Expr) : strays (e.code n) = rawBoundaries e.texts := by
  induction e with
  | string value => simp [code, texts, rawBoundaries, Literal.strays_encode]
  | command line name arguments hname harguments =>
    have htable := (Code.unbroken_member hn hn.commands).1.strays_eq
    have hline := (unbroken_ofInt line).1.strays_eq
    have hopen : strays ("[" : Text) = [] := rfl
    have hclose : strays ("]" : Text) = [] := rfl
    rw [code, Code.strays_call, RuntimeNames.commandTable, strays_append, strays_append,
      strays_append, htable, hopen, hclose, hname, List.flatMap_cons, hline,
      strays_codes harguments, texts, rawBoundaries_append]
    simp
  | block first rest hfirst hrest =>
    rw [code, Code.strays_sequence, List.flatMap_cons, hfirst, strays_codes hrest, texts,
      rawBoundaries_append]
  | condition negated operands hoperands =>
    rw [code, Code.strays_test hn, strays_codes hoperands, texts]
  | choice clauses hclauses =>
    rw [code, Code.strays_chain, strays_clauseCodes hclauses, texts]
  | forEach line iterable body element position hiterable hbody helement hposition =>
    rw [code, Code.strays_overElements hn, strays_optionCode helement, strays_optionCode hposition,
      hbody, hiterable, texts, rawBoundaries_append, rawBoundaries_append, rawBoundaries_append]
  | whileLoop test body htest hbody =>
    rw [code, Code.strays_whileHolds, htest, hbody, texts, rawBoundaries_append]

end

end Expr

/-! ## 6. No empty lines -/

namespace Code

open Text

theorem filled_nest {t : Text} (h : filled true t = true) : filled true (nest t) = true :=
  filled_indent (by decide) h

/-- A filled text goes on with what is filled behind something. -/
theorem filled_then {fresh : Bool} {s t : Text} (hs : filled fresh s = true)
    (ht : filled false t = true) : filled fresh (s ++ t) = true := by
  rw [filled_append hs, ht]

/-- Separated texts go on a line that has begun. -/
theorem filled_join {separator : Text} (hs : filled false separator = true) {ts : List Text}
    (h : ∀ t ∈ ts, filled true t = true) : filled false (join separator ts) = true := by
  unfold join
  induction ts with
  | nil => rfl
  | cons t ts ih =>
    have ht : filled false t = true := filled_of_fresh (h t (by simp))
    cases ts with
    | nil => simpa using ht
    | cons u us =>
      rw [List.intercalate_cons_cons]
      exact filled_then (filled_then ht hs) (ih fun v hv => h v (List.mem_cons_of_mem t hv))

theorem filled_call {function : Text} {arguments : List Text} (hf : filled true function = true)
    (ha : ∀ a ∈ arguments, filled true a = true) :
    filled true (call function arguments) = true := by
  have hopen : filled true (function ++ "(") = true := filled_then hf rfl
  have hjoin : filled false (join ", " arguments) = true := filled_join rfl ha
  exact filled_then (filled_then hopen hjoin) rfl

theorem filled_sequence {items : List Text} (hne : items ≠ [])
    (h : ∀ i ∈ items, filled true i = true) : filled true (sequence items) = true := by
  have hlines : filled true (unlines (items.map fun i => nest (i ++ ","))) = true := by
    refine filled_unlines (by simpa using hne) fun t ht => ?_
    obtain ⟨i, hi, rfl⟩ := List.mem_map.mp ht
    exact filled_nest (filled_then (h i hi) rfl)
  have hhead : ∀ t, filled true (("(lambda: (\n" : Text) ++ t) = filled true t := fun _ => rfl
  exact filled_then ((hhead _).trans hlines) rfl

theorem filled_test {n : RuntimeNames} (hn : n.Valid) (negated : Bool) {operands : List Text}
    (h : ∀ o ∈ operands, filled true o = true) : filled true (test n negated operands) = true := by
  have hnot : ∀ t, filled true (("not " : Text) ++ t) = filled false t := fun _ => rfl
  have hmember : ∀ name, Identifier.isName name = true →
      filled true (call (n.member name) operands) = true := by
    intro name hname
    obtain ⟨hunbroken, hne⟩ := unbroken_member hn hname
    exact filled_call (hunbroken.filled hne true) h
  have hempty := hmember n.isEmpty hn.isEmpty
  have hequal := hmember n.areAllEqual hn.areAllEqual
  unfold test
  split
  · cases negated <;> rfl
  · cases negated
    · exact (hnot _).trans (filled_of_fresh hempty)
    · exact hempty
  · cases negated
    · exact hequal
    · exact (hnot _).trans (filled_of_fresh hequal)

theorem filled_chain {clauses : List (Text × Text)}
    (h : ∀ c ∈ clauses, filled true c.1 = true ∧ filled true c.2 = true) :
    filled true (chain clauses) = true := by
  have hlines : filled true (unlines (clauses.map (fun c => nest (c.2 ++ " if (" ++ c.1 ++ ") else"))
      ++ [nest "None"])) = true := by
    refine filled_unlines (by simp) fun t ht => ?_
    rcases List.mem_append.mp ht with ht | ht
    · obtain ⟨c, hc, rfl⟩ := List.mem_map.mp ht
      obtain ⟨hcondition, hbranch⟩ := h c hc
      have hopen : filled true (c.2 ++ " if (") = true := filled_then hbranch rfl
      exact filled_nest (filled_then (filled_then hopen (filled_of_fresh hcondition)) rfl)
    · obtain rfl : t = nest "None" := by simpa using ht
      rfl
  have hhead : ∀ t, filled true (("(lambda: (\n" : Text) ++ t) = filled true t := fun _ => rfl
  exact filled_then ((hhead _).trans hlines) rfl

theorem filled_bindStep {n : RuntimeNames} (hn : n.Valid) (line : Int) {bound? : Option Text}
    (h : ∀ b ∈ bound?, filled true b = true) {value : Text} (hv : filled true value = true) :
    ∀ s ∈ bindStep n line bound? value, filled true s = true := by
  obtain ⟨hassign, hne⟩ := unbroken_assignment hn
  obtain ⟨hline, hsome⟩ := unbroken_ofInt line
  intro s hs
  cases bound? with
  | none => cases hs
  | some name =>
    obtain rfl : s = call n.assignment [Decimal.ofInt line, name, value] ++ "," := by
      simpa [bindStep] using hs
    refine filled_then (filled_call (hassign.filled hne true) fun a ha => ?_) rfl
    simp only [List.mem_cons, List.not_mem_nil, or_false] at ha
    rcases ha with rfl | rfl | rfl
    · exact hline.filled hsome true
    · exact h a rfl
    · exact hv

theorem filled_overElements {n : RuntimeNames} (hn : n.Valid) (line : Int) {iterable body : Text}
    {element? position? : Option Text} (hiterable : filled true iterable = true)
    (hbody : filled true body = true) (helement : ∀ e ∈ element?, filled true e = true)
    (hposition : ∀ p ∈ position?, filled true p = true) :
    filled true (overElements n line iterable body element? position?) = true := by
  have hsteps : ∀ s ∈ bindStep n line position? position
      ++ bindStep n line element? (items ++ "[" ++ position ++ "]")
      ++ ["(" ++ result ++ " := " ++ body ++ "),"], filled true s = true := by
    intro s hs
    rcases List.mem_append.mp hs with hs | hs
    · rcases List.mem_append.mp hs with hs | hs
      · exact filled_bindStep hn line hposition rfl s hs
      · exact filled_bindStep hn line helement rfl s hs
    · obtain rfl : s = "(" ++ result ++ " := " ++ body ++ ")," := by simpa using hs
      have hname : filled true ("(" ++ result ++ " := " : Text) = true := rfl
      exact filled_then (filled_then hname (filled_of_fresh hbody)) rfl
  have hnested := filled_nest (filled_unlines (by simp) hsteps)
  have hfilter : ∀ t, filled true (("if (\n" : Text) ++ t) = filled true t := fun _ => rfl
  have hiteration := filled_then (t := "\n) and False") ((hfilter _).trans hnested) rfl
  have hfor : ∀ t, filled true (("None\nfor " ++ position ++ " in range(len(" ++ items ++ "))\n" : Text)
      ++ t) = filled true t := fun _ => rfl
  have hloop := filled_nest ((hfor _).trans hiteration)
  have hhead : ∀ t, filled true (("(lambda " ++ items ++ ", " ++ result ++ "=\"\": [\n" : Text) ++ t)
      = filled true t := fun _ => rfl
  have hlambda := filled_then (t := "\n] or ") ((hhead _).trans hloop) rfl
  have hcalled := filled_then (t := ")(") (filled_then (t := result) hlambda rfl) rfl
  obtain ⟨helements, hne⟩ := unbroken_member hn hn.elements
  have hcall : filled true (call n.elementList [iterable]) = true :=
    filled_call (helements.filled hne true) (by simpa using hiterable)
  exact filled_then (filled_then hcalled (filled_of_fresh hcall)) rfl

theorem filled_whileHolds {condition body : Text} (hcondition : filled true condition = true)
    (hbody : filled true body = true) : filled true (whileHolds condition body) = true := by
  have hpoll : ∀ t, filled true (("None\nfor _ in iter(lambda: bool(" : Text) ++ t)
      = filled false t := fun _ => rfl
  have hfor := (hpoll condition).trans (filled_of_fresh hcondition)
  have hif := filled_then (t := "), False)\nif (") hfor rfl
  have hname := filled_then (t := " := ") (filled_then (t := result) hif rfl) rfl
  have hloop := filled_nest (filled_then (t := ") and False")
    (filled_then hname (filled_of_fresh hbody)) rfl)
  have hhead : ∀ t, filled true (("(lambda " ++ result ++ "=\"\": [\n" : Text) ++ t)
      = filled true t := fun _ => rfl
  have hlambda := filled_then (t := "\n] or ") ((hhead _).trans hloop) rfl
  exact filled_then (filled_then (t := result) hlambda rfl) rfl

end Code

/-- **No line of generated code is empty.** -/
theorem Expr.filled_code {n : RuntimeNames} (hn : n.Valid) (e : Expr) :
    (e.code n).filled true = true := by
  induction e with
  | string value => exact Literal.filled_encode value true
  | command line name arguments hname harguments =>
    obtain ⟨htable, hne⟩ := Code.unbroken_member hn hn.commands
    have hopen : (n.commandTable ++ "[").filled true = true :=
      Code.filled_then (htable.filled hne true) rfl
    have hlookup := Code.filled_then (t := "]")
      (Code.filled_then hopen (Text.filled_of_fresh hname)) rfl
    obtain ⟨hline, hsome⟩ := Text.unbroken_ofInt line
    rw [code, codes_eq_map]
    refine Code.filled_call hlookup fun a ha => ?_
    rcases List.mem_cons.mp ha with rfl | ha
    · exact hline.filled hsome true
    · obtain ⟨e, he, rfl⟩ := List.mem_map.mp ha
      exact harguments e he
  | block first rest hfirst hrest =>
    rw [code, codes_eq_map]
    refine Code.filled_sequence (by simp) fun i hi => ?_
    rcases List.mem_cons.mp hi with rfl | hi
    · exact hfirst
    · obtain ⟨e, he, rfl⟩ := List.mem_map.mp hi
      exact hrest e he
  | condition negated operands hoperands =>
    rw [code, codes_eq_map]
    refine Code.filled_test hn negated fun o ho => ?_
    obtain ⟨e, he, rfl⟩ := List.mem_map.mp ho
    exact hoperands e he
  | choice clauses hclauses =>
    rw [code, clauseCodes_eq_map]
    refine Code.filled_chain fun c hc => ?_
    obtain ⟨e, he, rfl⟩ := List.mem_map.mp hc
    exact hclauses e he
  | forEach line iterable body element position hiterable hbody helement hposition =>
    rw [code, optionCode_eq_map, optionCode_eq_map]
    refine Code.filled_overElements hn line hiterable hbody (fun t ht => ?_) fun t ht => ?_
    · obtain ⟨e, he, rfl⟩ := Option.map_eq_some_iff.mp ht
      exact helement e he
    · obtain ⟨e, he, rfl⟩ := Option.map_eq_some_iff.mp ht
      exact hposition e he
  | whileLoop test body htest hbody => exact Code.filled_whileHolds htest hbody

end TemplateTree
