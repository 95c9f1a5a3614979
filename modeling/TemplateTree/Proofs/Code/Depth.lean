import TemplateTree.Proofs.Code.Reading
import TemplateTree.Proofs.Expr.Parts

/-!
# How deep the brackets of generated code nest

Whether code is parsed is decided by its text: brackets are counted code point by code point, and what
stands in a literal does not count (`Check.bracketDepth`). For generated code the count follows the
tree: every kind of node puts its parts into a fixed number of brackets (`Expr.depth`), and the
deepest nesting of the code is that number (`Expr.nests_code`).

* `Check.Reaches`: a text that starts and ends outside of literals goes from one depth to another, and
  reaches a third one on the way;
* `Check.Nests`: a text whose brackets are closed again.

From this follows what becomes of a tree that is compiled (`Expr.compile_outcome`).
-/

namespace TemplateTree

namespace Check

/-! ## 1. One code point -/

/-- Whether a code point counts: a bracket, or the quote of a literal. -/
def isMark (c : CodePoint) : Bool :=
  c == .scalar '"' || c == .scalar '(' || c == .scalar ')' || c == .scalar '[' || c == .scalar ']'

theorem bracketDepth_of_not_mark {c : CodePoint} (hc : isMark c = false) (depth : Nat) (t : Text) :
    bracketDepth false depth (c :: t) = bracketDepth false depth t := by
  simp only [isMark, Bool.or_eq_false_iff, beq_eq_false_iff_ne] at hc
  conv => lhs; unfold bracketDepth
  rw [if_neg Bool.false_ne_true]
  split <;> simp_all

theorem bracketDepth_endQuote (depth : Nat) (t : Text) :
    bracketDepth true depth (.scalar '"' :: t) = bracketDepth false depth t := by
  cases t <;> rfl

theorem bracketDepth_quoted {c : CodePoint} (hq : c ≠ .scalar '"') (hb : c ≠ .scalar '\\')
    (depth : Nat) (t : Text) : bracketDepth true depth (c :: t) = bracketDepth true depth t := by
  conv => lhs; unfold bracketDepth
  rw [if_pos rfl]
  split <;> simp_all

theorem bracketDepth_cons_congr {s t : Text}
    (h : ∀ quoted depth, bracketDepth quoted depth s = bracketDepth quoted depth t) (c : CodePoint)
    (depth : Nat) : bracketDepth false depth (c :: s) = bracketDepth false depth (c :: t) := by
  conv => lhs; unfold bracketDepth
  conv => rhs; unfold bracketDepth
  simp only [h, Bool.false_eq_true, if_false]

theorem le_bracketDepth (quoted : Bool) (depth : Nat) (t : Text) :
    depth ≤ bracketDepth quoted depth t := by
  fun_induction bracketDepth quoted depth t <;> omega

/-! ## 2. Indentation -/

theorem bracketDepth_blanks {margin : Text} (hm : ∀ c ∈ margin, c = .scalar ' ') (quoted : Bool)
    (depth : Nat) (t : Text) :
    bracketDepth quoted depth (margin ++ t) = bracketDepth quoted depth t := by
  induction margin with
  | nil => rfl
  | cons c margin ih =>
    obtain rfl : c = .scalar ' ' := hm c (by simp)
    have hblank : bracketDepth quoted depth (.scalar ' ' :: (margin ++ t))
        = bracketDepth quoted depth (margin ++ t) := by
      cases quoted
      · exact bracketDepth_of_not_mark rfl depth _
      · exact bracketDepth_quoted (by decide) (by decide) depth _
    rw [List.cons_append, hblank]
    exact ih fun d hd => hm d (List.mem_cons_of_mem _ hd)

/-- Blanks behind line feeds change no depth, in literals or outside of them. The second part is the
    case behind a backslash, which the induction needs as well. -/
theorem bracketDepth_marginBehind {margin : Text} (hm : ∀ c ∈ margin, c = .scalar ' ')
    (t rest : Text) :
    (∀ quoted depth, bracketDepth quoted depth (t.marginBehind margin ++ rest)
      = bracketDepth quoted depth (t ++ rest)) ∧
    ∀ depth, bracketDepth true depth (.scalar '\\' :: (t.marginBehind margin ++ rest))
      = bracketDepth true depth (.scalar '\\' :: (t ++ rest)) := by
  induction t with
  | nil => exact ⟨fun _ _ => rfl, fun _ => rfl⟩
  | cons c t ih =>
    obtain ⟨hplain, hescaped⟩ := ih
    by_cases hnl : c = newline
    · subst hnl
      have hline : ∀ quoted depth,
          bracketDepth quoted depth (margin ++ Text.marginBehind t margin ++ rest)
          = bracketDepth quoted depth (t ++ rest) := by
        intro quoted depth
        rw [List.append_assoc, bracketDepth_blanks hm, hplain]
      refine ⟨fun quoted depth => ?_, hline true⟩
      cases quoted with
      | false => exact bracketDepth_cons_congr hline newline depth
      | true =>
        have hskip : ∀ u, bracketDepth true depth (newline :: u) = bracketDepth true depth u :=
          bracketDepth_quoted (by decide) (by decide) depth
        exact (hskip _).trans ((hline true depth).trans (hskip _).symm)
    · rw [Text.marginBehind_cons _ _ hnl, List.cons_append, List.cons_append]
      refine ⟨fun quoted depth => ?_, hplain true⟩
      cases quoted with
      | false => exact bracketDepth_cons_congr hplain c depth
      | true =>
        by_cases hb : c = .scalar '\\'
        · subst hb
          exact hescaped depth
        · by_cases hq : c = .scalar '"'
          · rw [hq, bracketDepth_endQuote, bracketDepth_endQuote, hplain]
          · rw [bracketDepth_quoted hq hb, bracketDepth_quoted hq hb, hplain]

/-! ## 3. Texts one after another -/

/-- A text goes from `i` brackets above some depth to `j` above it, and to `d` above it where it is
    deepest. It starts and ends outside of literals. -/
def Reaches (i : Nat) (t : Text) (j d : Nat) : Prop :=
  ∀ depth rest, bracketDepth false (depth + i) (t ++ rest)
    = max (depth + d) (bracketDepth false (depth + j) rest)

/-- A text closes the brackets that it opens, of which `d` lie in each other. -/
def Nests (t : Text) (d : Nat) : Prop := Reaches 0 t 0 d

section

variable {i j k a b d : Nat} {s t : Text}

theorem Reaches.append (hs : Reaches i s j a) (ht : Reaches j t k b) :
    Reaches i (s ++ t) k (max a b) := by
  intro depth rest
  rw [List.append_assoc, hs, ht]
  omega

/-- Inside further brackets everything lies as much deeper. -/
theorem Nests.inside (h : Nests t d) (k : Nat) : Reaches k t k (k + d) := by
  intro depth rest
  have hk := h (depth + k) rest
  rw [Nat.add_zero] at hk
  rw [hk]
  omega

theorem Nests.congr (h : Nests t a) (hab : a = b) : Nests t b := hab ▸ h

theorem Nests.append (hs : Nests s a) (ht : Nests t b) : Nests (s ++ t) (max a b) :=
  Reaches.append hs ht

theorem Nests.bracketDepth_eq (h : Nests t d) : bracketDepth false 0 t = d := by
  have h0 := h 0 []
  rw [List.append_nil] at h0
  rw [h0]
  show max (0 + d) 0 = d
  omega

/-- A text without marks reaches nothing. -/
theorem nests_of_not_mark (h : ∀ c ∈ t, isMark c = false) : Nests t 0 := by
  intro depth rest
  have hle := le_bracketDepth false depth rest
  induction t with
  | nil =>
    rw [List.nil_append, Nat.add_zero]
    omega
  | cons c t ih =>
    rw [List.cons_append, bracketDepth_of_not_mark (h c (by simp))]
    exact ih fun e he => h e (List.mem_cons_of_mem _ he)

theorem Nests.indent (h : Nests t d) : Nests (Code.nest t) d := by
  intro depth rest
  rw [Code.nest, Text.indent_eq, List.append_assoc, bracketDepth_blanks Target.step_blank,
    (bracketDepth_marginBehind Target.step_blank t rest).1]
  exact h depth rest

end

/-- The depth to which a text goes from `i` on, and the deepest one on the way, which is `d` in front
    of it. There is none if the text closes a bracket that was not open, or if one of its literals has
    an escape or no end. -/
def course : (quoted : Bool) → (i d : Nat) → Text → Option (Nat × Nat)
  | false, i, d, [] => some (i, max i d)
  | true, _, _, [] => none
  | true, i, d, c :: t => if c = .scalar '\\' then none else course (c != .scalar '"') i d t
  | false, i, d, c :: t =>
    if c = .scalar '(' ∨ c = .scalar '[' then course false (i + 1) (max i d) t
    else if c = .scalar ')' ∨ c = .scalar ']' then
      if i = 0 then none else course false (i - 1) (max i d) t
    else course (c == .scalar '"') i d t

theorem bracketDepth_of_course {quoted : Bool} {i d j e : Nat} {t : Text}
    (h : course quoted i d t = some (j, e)) (depth : Nat) (rest : Text) :
    max (depth + d) (bracketDepth quoted (depth + i) (t ++ rest))
      = max (depth + e) (bracketDepth false (depth + j) rest) := by
  fun_induction course quoted i d t with
  | case1 i d =>
    obtain ⟨rfl, rfl⟩ : i = j ∧ max i d = e := by simpa using h
    have := le_bracketDepth false (depth + i) rest
    rw [List.nil_append]
    omega
  | case2 => cases h
  | case3 => cases h
  | case4 i d c t hb ih =>
    rw [List.cons_append, ← ih h]
    by_cases hq : c = .scalar '"'
    · subst hq
      rw [bracketDepth_endQuote]
      rfl
    · have hc : (c != .scalar '"') = true := by simpa using hq
      rw [bracketDepth_quoted hq hb, hc]
  | case5 i d c t hopen ih =>
    have hstep : bracketDepth false (depth + i) (c :: (t ++ rest))
        = max (depth + i) (bracketDepth false (depth + (i + 1)) (t ++ rest)) := by
      rcases hopen with rfl | rfl <;> rfl
    rw [List.cons_append, hstep, ← ih h]
    omega
  | case6 => cases h
  | case7 i d c t _ hclose hi ih =>
    have hsub : depth + (i - 1) = depth + i - 1 := by omega
    have hstep : bracketDepth false (depth + i) (c :: (t ++ rest))
        = max (depth + i) (bracketDepth false (depth + (i - 1)) (t ++ rest)) := by
      rw [hsub]
      rcases hclose with rfl | rfl <;> rfl
    rw [List.cons_append, hstep, ← ih h]
    omega
  | case8 i d c t hopen hclose ih =>
    rw [List.cons_append, ← ih h]
    by_cases hq : c = .scalar '"'
    · subst hq
      rfl
    · have hc : (c == .scalar '"') = false := by simpa using hq
      have hmark : isMark c = false := by
        simp_all [isMark]
      rw [bracketDepth_of_not_mark hmark, hc]

theorem Reaches.of_course {i j d : Nat} {t : Text} (h : course false i 0 t = some (j, d)) :
    Reaches i t j d := by
  intro depth rest
  have hle := le_bracketDepth false (depth + i) (t ++ rest)
  rw [← bracketDepth_of_course h]
  omega

/-! ## 4. Words and literals -/

theorem isMark_of_isWordPart {c : CodePoint} (h : Target.isWordPart c = true) : isMark c = false := by
  rw [Bool.eq_false_iff]
  intro hc
  simp only [isMark, Bool.or_eq_true, beq_iff_eq] at hc
  rcases hc with (((rfl | rfl) | rfl) | rfl) | rfl <;> exact absurd h (by decide)

theorem nests_name {t : Text} (h : Identifier.isName t = true) : Nests t 0 := by
  refine nests_of_not_mark fun c hc => isMark_of_isWordPart (Target.isWordPart_of_isContinue ?_)
  unfold Identifier.isName Identifier.isIdentifier at h
  cases t with
  | nil => cases hc
  | cons d t =>
    simp only [Bool.and_eq_true, List.all_eq_true] at h
    rcases List.mem_cons.mp hc with rfl | hc
    · rw [Identifier.isContinue, h.1.1, Bool.true_or]
    · exact h.1.2 c hc

theorem nests_ofInt (n : Int) : Nests (Decimal.ofInt n) 0 := by
  have hdigits : Nests (Decimal.ofNat n.natAbs) 0 := by
    refine nests_of_not_mark fun c hc => isMark_of_isWordPart ?_
    obtain ⟨d, hd, rfl⟩ := List.mem_map.mp hc
    have hdigit := Nat.isDigit_of_mem_toDigits (b := 10) (by decide) (by decide) hd
    simp [Target.isWordPart, Char.isAlphanum, hdigit]
  have hsign : Nests (Text.ofString "-") 0 := .of_course rfl
  unfold Decimal.ofInt
  split
  · exact hsign.append hdigits
  · exact hdigits

/-- A number is written without a quote or a backslash. -/
theorem bracketDepth_hex4 (n depth : Nat) (rest : Text) :
    bracketDepth true depth (Text.ofChars (Literal.hex4 n) ++ rest) = bracketDepth true depth rest := by
  have hdigit : ∀ m u, bracketDepth true depth (.scalar (Literal.hexDigit m) :: u)
      = bracketDepth true depth u := by
    have hchar : ∀ d < 16, CodePoint.scalar (Nat.digitChar d) ≠ .scalar '"' ∧
        CodePoint.scalar (Nat.digitChar d) ≠ .scalar '\\' := by decide
    intro m u
    obtain ⟨hq, hb⟩ := hchar (m % 16) (Nat.mod_lt m (by decide))
    exact bracketDepth_quoted hq hb depth u
  simp only [Literal.hex4, Literal.hex2, Text.ofChars, List.map_cons, List.map_nil, List.cons_append,
    List.nil_append, hdigit]

theorem bracketDepth_escape (c : CodePoint) (depth : Nat) (rest : Text) :
    bracketDepth true depth (Text.ofChars (Literal.escape c) ++ rest)
      = bracketDepth true depth rest := by
  have hnumber : ∀ n, bracketDepth true depth
      (Text.ofChars (['\\', 'u'] ++ Literal.hex4 n) ++ rest) = bracketDepth true depth rest :=
    fun n => bracketDepth_hex4 n depth rest
  unfold Literal.escape
  split
  case h_8 c hquote hback _ _ _ _ _ =>
    split
    · exact hnumber c.toNat
    · exact bracketDepth_quoted (by simpa using hquote) (by simpa using hback) depth rest
  case h_9 n => exact hnumber (0xD800 + n.val)
  all_goals rfl

theorem nests_encode (t : Text) : Nests (Literal.encode t) 0 := by
  intro depth rest
  have hle := le_bracketDepth false depth rest
  have hbody : bracketDepth true depth (Text.ofChars (Literal.body t) ++ .scalar '"' :: rest)
      = bracketDepth false depth rest := by
    induction t with
    | nil => exact bracketDepth_endQuote depth rest
    | cons c t ih =>
      have hcons : Text.ofChars (Literal.body (c :: t))
          = Text.ofChars (Literal.escape c) ++ Text.ofChars (Literal.body t) := by
        simp [Literal.body, Text.ofChars]
      rw [hcons, List.append_assoc, bracketDepth_escape, ih]
  have hquotes : Literal.encode t ++ rest
      = .scalar '"' :: (Text.ofChars (Literal.body t) ++ .scalar '"' :: rest) := by
    simp [Literal.encode, Text.ofChars]
  rw [hquotes]
  refine Eq.trans hbody ?_
  simp only [Nat.add_zero]
  omega

/-! ## 5. The pieces of the code -/

/-- The deepest of some nestings. -/
def deepest (ds : List Nat) : Nat := ds.foldr max 0

theorem nests_join {separator : Text} (hs : Nests separator 0) {parts : List (Text × Nat)}
    (h : ∀ p ∈ parts, Nests p.1 p.2) :
    Nests (Text.join separator (parts.map Prod.fst)) (deepest (parts.map Prod.snd)) := by
  unfold Text.join
  induction parts with
  | nil => exact .of_course rfl
  | cons p parts ih =>
    have hp := h p (by simp)
    have hrest := ih fun q hq => h q (List.mem_cons_of_mem p hq)
    cases parts with
    | nil => exact Nests.congr (by simpa using hp) (by simp [deepest])
    | cons q parts =>
      rw [List.map_cons, List.map_cons, List.intercalate_cons_cons]
      exact ((hp.append hs).append hrest).congr (by simp [deepest])

theorem nests_unlines {parts : List (Text × Nat)} (h : ∀ p ∈ parts, Nests p.1 p.2) :
    Nests (Text.unlines (parts.map Prod.fst)) (deepest (parts.map Prod.snd)) :=
  nests_join (.of_course rfl) h

theorem nests_member {n : RuntimeNames} (hn : n.Valid) {name : Text}
    (hname : Identifier.isName name = true) : Nests (n.member name) 0 := by
  have hdot : Nests (Text.ofString ".") 0 := .of_course rfl
  exact ((nests_name hn.runtime).append hdot).append (nests_name hname)

theorem nests_call {function : Text} {a : Nat} (hf : Nests function a) {parts : List (Text × Nat)}
    (h : ∀ p ∈ parts, Nests p.1 p.2) :
    Nests (Code.call function (parts.map Prod.fst)) (max a (1 + deepest (parts.map Prod.snd))) := by
  have hopen : Reaches 0 (Text.ofString "(") 1 1 := .of_course rfl
  have hclose : Reaches 1 (Text.ofString ")") 0 1 := .of_course rfl
  have hseparator : Nests (Text.ofString ", ") 0 := .of_course rfl
  have hjoin := (nests_join hseparator h).inside 1
  exact Nests.congr (((Reaches.append hf hopen).append hjoin).append hclose) (by omega)

theorem nests_sequence {parts : List (Text × Nat)} (h : ∀ p ∈ parts, Nests p.1 p.2) :
    Nests (Code.sequence (parts.map Prod.fst)) (2 + deepest (parts.map Prod.snd)) := by
  have hopen : Reaches 0 (Text.ofString "(lambda: (\n") 2 2 := .of_course rfl
  have hclose : Reaches 2 (Text.ofString "\n)[-1])()") 0 2 := .of_course rfl
  have hlines : Nests (Text.unlines (parts.map fun p => Code.nest (p.1 ++ ",")))
      (deepest (parts.map Prod.snd)) := by
    have hparts : ∀ q ∈ parts.map fun p => (Code.nest (p.1 ++ ","), p.2), Nests q.1 q.2 := by
      intro q hq
      obtain ⟨p, hp, rfl⟩ := List.mem_map.mp hq
      have hcomma : Nests (Text.ofString ",") 0 := .of_course rfl
      exact (((h p hp).append hcomma).congr (by omega)).indent
    simpa [Function.comp_def] using nests_unlines hparts
  unfold Code.sequence
  rw [List.map_map]
  exact Nests.congr ((hopen.append (hlines.inside 2)).append hclose) (by omega)

theorem nests_test {n : RuntimeNames} (hn : n.Valid) (negated : Bool) {parts : List (Text × Nat)}
    (h : ∀ p ∈ parts, Nests p.1 p.2) :
    Nests (Code.test n negated (parts.map Prod.fst))
      (if parts.isEmpty then 0 else 1 + deepest (parts.map Prod.snd)) := by
  have hnot : Nests (Text.ofString "not ") 0 := .of_course rfl
  match parts, h with
  | [], _ => cases negated <;> exact .of_course rfl
  | [p], h =>
    have hcall := (nests_call (nests_member hn hn.isEmpty) h).congr (Nat.zero_max _)
    cases negated
    · exact (hnot.append hcall).congr (Nat.zero_max _)
    · exact hcall
  | p :: q :: parts, h =>
    have hcall := (nests_call (nests_member hn hn.areAllEqual) h).congr (Nat.zero_max _)
    cases negated
    · exact hcall
    · exact (hnot.append hcall).congr (Nat.zero_max _)

/-- A clause is a pair of condition and branch, each with its nesting. -/
theorem nests_chain {clauses : List ((Text × Nat) × (Text × Nat))}
    (h : ∀ c ∈ clauses, Nests c.1.1 c.1.2 ∧ Nests c.2.1 c.2.2) :
    Nests (Code.chain (clauses.map fun c => (c.1.1, c.2.1)))
      (2 + deepest (clauses.map fun c => max c.2.2 (1 + c.1.2))) := by
  have hopen : Reaches 0 (Text.ofString "(lambda: (\n") 2 2 := .of_course rfl
  have hclose : Reaches 2 (Text.ofString "\n))()") 0 2 := .of_course rfl
  have hlines : Nests (Text.unlines ((clauses.map fun c => (c.1.1, c.2.1)).map
      (fun c => Code.nest (c.2 ++ " if (" ++ c.1 ++ ") else")) ++ [Code.nest "None"]))
      (deepest (clauses.map fun c => max c.2.2 (1 + c.1.2))) := by
    have hparts : ∀ q ∈ clauses.map (fun c => (Code.nest (c.2.1 ++ " if (" ++ c.1.1 ++ ") else"),
        max c.2.2 (1 + c.1.2))) ++ [(Code.nest "None", 0)], Nests q.1 q.2 := by
      intro q hq
      rcases List.mem_append.mp hq with hq | hq
      · obtain ⟨c, hc, rfl⟩ := List.mem_map.mp hq
        obtain ⟨hcondition, hbranch⟩ := h c hc
        have hif : Reaches 0 (Text.ofString " if (") 1 1 := .of_course rfl
        have helse : Reaches 1 (Text.ofString ") else") 0 1 := .of_course rfl
        exact Nests.indent (Nests.congr
          (((Reaches.append hbranch hif).append (hcondition.inside 1)).append helse) (by omega))
      · obtain rfl : q = (Code.nest "None", 0) := by simpa using hq
        exact Nests.indent (.of_course rfl)
    have hunlines := nests_unlines hparts
    simpa [Function.comp_def, deepest] using hunlines
  exact Nests.congr ((hopen.append (hlines.inside 2)).append hclose) (by omega)

/-- A step that binds a variable, if there is one, with its nesting. -/
theorem nests_bindStep {n : RuntimeNames} (hn : n.Valid) (line : Int) {bound? : Option (Text × Nat)}
    (h : ∀ b ∈ bound?, Nests b.1 b.2) {value : Text} {d : Nat} (hv : Nests value d) :
    ∃ parts : List (Text × Nat), Code.bindStep n line (bound?.map Prod.fst) value = parts.map Prod.fst ∧
      (∀ p ∈ parts, Nests p.1 p.2) ∧
      deepest (parts.map Prod.snd) = (bound?.map fun b => 1 + max b.2 d).getD 0 := by
  cases bound? with
  | none => exact ⟨[], rfl, by simp, rfl⟩
  | some b =>
    have hassign : Nests n.assignment 0 := by
      have hdot : Nests (Text.ofString ".") 0 := .of_course rfl
      exact ((nests_member hn hn.commands).append hdot).append (nests_name hn.assign)
    have harguments : ∀ p ∈ [(Decimal.ofInt line, 0), b, (value, d)], Nests p.1 p.2 := by
      simpa using ⟨nests_ofInt line, h b rfl, hv⟩
    have hcomma : Nests (Text.ofString ",") 0 := .of_course rfl
    have hcall := (nests_call hassign harguments).append hcomma
    refine ⟨[(Code.call n.assignment [Decimal.ofInt line, b.1, value] ++ ",", 1 + max b.2 d)], rfl, ?_,
      by simp [deepest]⟩
    simpa [deepest] using hcall

theorem deepest_append (ds es : List Nat) : deepest (ds ++ es) = max (deepest ds) (deepest es) := by
  induction ds with
  | nil => simp [deepest]
  | cons d ds ih =>
    show max d (deepest (ds ++ es)) = max (max d (deepest ds)) (deepest es)
    omega

/-- The depth of a part that may be absent. -/
def partDepth (part? : Option (Text × Nat)) : Nat := (part?.map Prod.snd).getD 0

/-- The steps of a turn of a loop over a collection, one per line. -/
theorem nests_steps {n : RuntimeNames} (hn : n.Valid) (line : Int) {body : Text} {b : Nat}
    {element? position? : Option (Text × Nat)} (hb : Nests body b)
    (he : ∀ e ∈ element?, Nests e.1 e.2) (hp : ∀ p ∈ position?, Nests p.1 p.2) :
    Nests (Text.unlines (Code.bindStep n line (position?.map Prod.fst) Code.position
        ++ Code.bindStep n line (element?.map Prod.fst) (Code.items ++ "[" ++ Code.position ++ "]")
        ++ ["(" ++ Code.result ++ " := " ++ body ++ "),"]))
      (max (if element?.isSome then 2 else 1)
        (1 + max (partDepth position?) (max (partDepth element?) b))) := by
  have hposition : Nests Code.position 0 := .of_course rfl
  have hplace : Nests (Code.items ++ "[" ++ Code.position ++ "]") 1 := .of_course rfl
  obtain ⟨ps, hps, hpositions, hpdepth⟩ := nests_bindStep hn line hp hposition
  obtain ⟨es, hes, helements, hedepth⟩ := nests_bindStep hn line he hplace
  have hresult : Nests ("(" ++ Code.result ++ " := " ++ body ++ "),") (1 + b) := by
    have hopen : Reaches 0 ("(" ++ Code.result ++ " := " : Text) 1 1 := .of_course rfl
    have hclose : Reaches 1 (Text.ofString "),") 0 1 := .of_course rfl
    exact Nests.congr ((hopen.append (hb.inside 1)).append hclose) (by omega)
  have hall : ∀ q ∈ ps ++ es ++ [("(" ++ Code.result ++ " := " ++ body ++ "),", 1 + b)],
      Nests q.1 q.2 := by
    intro q hq
    rcases List.mem_append.mp hq with hq | hq
    · rcases List.mem_append.mp hq with hq | hq
      · exact hpositions q hq
      · exact helements q hq
    · rw [List.mem_singleton.mp hq]
      exact hresult
  have hsteps := nests_unlines hall
  rw [List.map_append, List.map_append, ← hps, ← hes, List.map_append, List.map_append,
    deepest_append, deepest_append, hpdepth, hedepth] at hsteps
  refine Nests.congr hsteps ?_
  cases element? <;> cases position? <;> simp [deepest, partDepth] <;> omega

theorem nests_overElements {n : RuntimeNames} (hn : n.Valid) (line : Int) {iterable body : Text}
    {i b : Nat} {element? position? : Option (Text × Nat)} (hi : Nests iterable i)
    (hb : Nests body b) (he : ∀ e ∈ element?, Nests e.1 e.2) (hp : ∀ p ∈ position?, Nests p.1 p.2) :
    Nests (Code.overElements n line iterable body (element?.map Prod.fst) (position?.map Prod.fst))
      (max (if element?.isSome then 5 else 4)
        (max (2 + i) (4 + max (partDepth position?) (max (partDepth element?) b)))) := by
  have hif : Reaches 0 (Text.ofString "if (\n") 1 1 := .of_course rfl
  have hfalse : Reaches 1 (Text.ofString "\n) and False") 0 1 := .of_course rfl
  have hiteration := (hif.append ((nests_steps hn line hb he hp).indent.inside 1)).append hfalse
  have hrange : Nests ("None\nfor " ++ Code.position ++ " in range(len(" ++ Code.items ++ "))\n") 2 :=
    .of_course rfl
  have hloop := (hrange.append hiteration).indent
  have hopen : Reaches 0 ("(lambda " ++ Code.items ++ ", " ++ Code.result ++ "=\"\": [\n" : Text) 2 2 :=
    .of_course rfl
  have hor : Reaches 2 (Text.ofString "\n] or ") 1 2 := .of_course rfl
  have hresult : Reaches 1 Code.result 1 1 := .of_course rfl
  have hcalled : Reaches 1 (Text.ofString ")(") 1 1 := .of_course rfl
  have hparts : ∀ p ∈ [(iterable, i)], Nests p.1 p.2 := by simpa using hi
  have hcall := nests_call (nests_member hn hn.elements) hparts
  have hlast : Reaches 1 (Text.ofString ")") 0 1 := .of_course rfl
  refine Nests.congr ((((((hopen.append (hloop.inside 2)).append hor).append hresult).append
    hcalled).append (hcall.inside 1)).append hlast) ?_
  generalize max (partDepth position?) (max (partDepth element?) b) = d
  show max (max (max (max (max (max 2 (2 + _)) 2) 1) 1) (1 + max 0 (1 + max i 0))) 1 = _
  split <;> omega

theorem nests_whileHolds {condition body : Text} {c b : Nat} (hc : Nests condition c)
    (hb : Nests body b) :
    Nests (Code.whileHolds condition body) (max 4 (max (4 + c) (3 + b))) := by
  have hpoll : Reaches 0 (Text.ofString "None\nfor _ in iter(lambda: bool(") 2 2 := .of_course rfl
  have hif : Reaches 2 (Text.ofString "), False)\nif (") 1 2 := .of_course rfl
  have hr : Reaches 1 Code.result 1 1 := .of_course rfl
  have hbinds : Reaches 1 (Text.ofString " := ") 1 1 := .of_course rfl
  have hfalse : Reaches 1 (Text.ofString ") and False") 0 1 := .of_course rfl
  have hloop := Nests.indent (((((hpoll.append (hc.inside 2)).append hif).append hr).append
    hbinds).append (hb.inside 1) |>.append hfalse)
  have hopen : Reaches 0 ("(lambda " ++ Code.result ++ "=\"\": [\n" : Text) 2 2 := .of_course rfl
  have hor : Reaches 2 (Text.ofString "\n] or ") 1 2 := .of_course rfl
  have hlast : Reaches 1 (Text.ofString ")()") 0 1 := .of_course rfl
  exact Nests.congr ((((hopen.append (hloop.inside 2)).append hor).append hr).append hlast) (by omega)

end Check

/-! ## 6. The depth of a tree -/

namespace Expr

open Check

mutual

/-- The number of brackets in each other that the code of an expression has where it is deepest. -/
def depth : Expr → Nat
  | string _ => 0
  | command _ name arguments => 1 + max (depth name) (depths arguments)
  | block first rest => 2 + max (depth first) (depths rest)
  | condition _ operands => if operands.isEmpty then 0 else 1 + depths operands
  | choice clauses => clauseDepths clauses
  | forEach _ iterable body element position =>
    max (if element.isSome then 5 else 4) (max (2 + depth iterable)
      (4 + max (optionDepth position) (max (optionDepth element) (depth body))))
  | whileLoop test body => max 4 (max (4 + depth test) (3 + depth body))

/-- The greatest depth of some expressions. -/
def depths : List Expr → Nat
  | [] => 0
  | e :: es => max (depth e) (depths es)

/-- The depth of the choice of some clauses: a branch stands in two brackets, a condition in three. -/
def clauseDepths : List (Expr × Expr) → Nat
  | [] => 2
  | (c, b) :: rest => max (max (2 + depth b) (3 + depth c)) (clauseDepths rest)

/-- The depth of an expression that may be absent. -/
def optionDepth : Option Expr → Nat
  | none => 0
  | some e => depth e

end

section

variable (n : RuntimeNames)

/-- The code of each of some expressions beside its depth. -/
def measured (es : List Expr) : List (Text × Nat) := es.map fun e => (e.code n, e.depth)

theorem map_fst_measured (es : List Expr) : (measured n es).map Prod.fst = codes n es := by
  simp [measured, codes_eq_map]

theorem deepest_measured (es : List Expr) : deepest ((measured n es).map Prod.snd) = depths es := by
  induction es with
  | nil => rfl
  | cons e es ih =>
    rw [depths, ← ih]
    rfl

theorem partDepth_measured (o : Option Expr) :
    partDepth (o.map fun e => (e.code n, e.depth)) = optionDepth o := by
  cases o <;> rfl

theorem deepest_clauses (cs : List (Expr × Expr)) :
    2 + deepest (cs.map fun c => max (depth c.2) (1 + depth c.1)) = clauseDepths cs := by
  induction cs with
  | nil => rfl
  | cons c cs ih =>
    rw [clauseDepths, ← ih]
    show 2 + max (max (depth c.2) (1 + depth c.1)) (deepest _) = _
    omega

variable {n}

theorem nests_measured {es : List Expr} (h : ∀ e ∈ es, Nests (e.code n) e.depth) :
    ∀ p ∈ measured n es, Nests p.1 p.2 := by
  intro p hp
  obtain ⟨e, he, rfl⟩ := List.mem_map.mp hp
  exact h e he

/-- **The brackets of generated code nest as deep as the tree says.** -/
theorem nests_code (hn : n.Valid) (e : Expr) : Nests (e.code n) e.depth := by
  induction e with
  | string value => exact nests_encode value
  | command line name arguments hname harguments =>
    have hopen : Reaches 0 (Text.ofString "[") 1 1 := .of_course rfl
    have hclose : Reaches 1 (Text.ofString "]") 0 1 := .of_course rfl
    have hlookup := ((Reaches.append (nests_member hn hn.commands) hopen).append
      (hname.inside 1)).append hclose
    have hparts : ∀ p ∈ (Decimal.ofInt line, 0) :: measured n arguments, Nests p.1 p.2 := by
      intro p hp
      rcases List.mem_cons.mp hp with rfl | hp
      · exact nests_ofInt line
      · exact nests_measured harguments p hp
    have hcall := nests_call hlookup hparts
    rw [List.map_cons, map_fst_measured] at hcall
    refine Nests.congr hcall ?_
    have harguments := deepest_measured n arguments
    rw [depth, ← harguments]
    show max _ (1 + max 0 (deepest _)) = _
    omega
  | block first rest hfirst hrest =>
    have hitems : ∀ e ∈ first :: rest, Nests (e.code n) e.depth := by
      simpa using ⟨hfirst, hrest⟩
    have hsequence := nests_sequence (nests_measured hitems)
    rw [map_fst_measured, deepest_measured] at hsequence
    exact hsequence
  | condition negated operands hoperands =>
    have htest := nests_test hn negated (nests_measured hoperands)
    rw [map_fst_measured, deepest_measured] at htest
    refine Nests.congr htest ?_
    cases operands <;> rfl
  | choice clauses hclauses =>
    have hall : ∀ c ∈ clauses.map fun c => ((c.1.code n, c.1.depth), (c.2.code n, c.2.depth)),
        Nests c.1.1 c.1.2 ∧ Nests c.2.1 c.2.2 := by
      intro c hc
      obtain ⟨d, hd, rfl⟩ := List.mem_map.mp hc
      exact hclauses d hd
    have hchain := nests_chain hall
    rw [List.map_map, List.map_map] at hchain
    rw [code, clauseCodes_eq_map, depth, ← deepest_clauses]
    exact hchain
  | forEach line iterable body element position hiterable hbody helement hposition =>
    have hoption : ∀ {o : Option Expr}, (∀ e ∈ o, Nests (e.code n) e.depth) →
        ∀ p ∈ o.map fun e => (e.code n, e.depth), Nests p.1 p.2 := by
      intro o h p hp
      obtain ⟨e, he, rfl⟩ := Option.map_eq_some_iff.mp hp
      exact h e he
    have hloop := nests_overElements hn line hiterable hbody (hoption helement) (hoption hposition)
    rw [Option.map_map, Option.map_map, partDepth_measured, partDepth_measured, Option.isSome_map]
      at hloop
    rw [code, optionCode_eq_map, optionCode_eq_map]
    exact hloop
  | whileLoop test body htest hbody => exact nests_whileHolds htest hbody

end

/-! ## 7. The outcome of compiling -/

theorem bracketDepth_wrapped {n : RuntimeNames} (hn : n.Valid) (e : Expr) :
    bracketDepth false 0 (wrapped (e.code n)) = 1 + e.depth := by
  have hopen : Reaches 0 (Text.ofString "(\n") 1 1 := .of_course rfl
  have hclose : Reaches 1 (Text.ofString "\n)") 0 1 := .of_course rfl
  have h : Nests (wrapped (e.code n)) (1 + e.depth) :=
    Nests.congr ((hopen.append ((nests_code hn e).inside 1)).append hclose) (by omega)
  exact h.bracketDepth_eq

/-- What compiling gives where every line number can be written. -/
theorem compile_of_fits {n : RuntimeNames} {e : Expr} (h : ∀ l ∈ e.shownLines, Decimal.fits l = true) :
    e.compile n =
      if maxDepth < bracketDepth false 0 (wrapped (e.code n)) then
        .error (.refusal unknownLine .tooManyBrackets)
      else if e.loopInCondition then .error (.refusal unknownLine .loopInCondition)
      else .ok (e.code n) := by
  unfold compile code?
  rw [if_pos (List.all_eq_true.mpr h)]
  rfl

/-- Compiling a tree is refused with a message, at the line of a tree that was given none. -/
def Refused (n : RuntimeNames) (e : Expr) (message : Text) : Prop :=
  ∃ error : CompileError, e.compile n = .error (.refused error) ∧ error.line = -1 ∧
    error.cause.message = message

theorem refused_iff {n : RuntimeNames} {e : Expr} {cause : Cause}
    (h : e.compile n = .error (.refusal unknownLine cause)) (message : Text) :
    e.Refused n message ↔ cause.message = message := by
  unfold Refused
  rw [h]
  constructor
  · intro hrefused
    obtain ⟨error, herror, -, hmessage⟩ := hrefused
    obtain rfl : ⟨cause, unknownLine⟩ = error := Failure.refused.inj (Except.error.inj herror)
    exact hmessage
  · intro hmessage
    exact ⟨⟨cause, unknownLine⟩, rfl, rfl, hmessage⟩

theorem not_refused {n : RuntimeNames} {e : Expr} {code : Text} (h : e.compile n = .ok code)
    (message : Text) : ¬ e.Refused n message := by
  intro hrefused
  obtain ⟨error, herror, -⟩ := hrefused
  rw [h] at herror
  cases herror

/-- **What becomes of a tree that is compiled.** The brackets of its code with the pair around it nest
    one deeper than the tree says, and the code is read as an expression that binds a name in the source
    of a comprehension exactly if a loop stands in the condition of a loop. Code with more than two
    hundred brackets in each other is refused first, then code with such a binding; everything else
    compiles to the code of the tree. -/
theorem compile_outcome {v : Value} {s : Settings} (hs : Settings.validate v = .ok s) {e : Expr}
    (hlines : ∀ l ∈ e.shownLines, Decimal.fits l = true) :
    bracketDepth false 0 (wrapped (e.code s.names)) = 1 + e.depth ∧
    (∃ t, (Target.lexemes? (e.code s.names)).bind Target.ofLexemes? = some t ∧
      (t.bindsInSource = true ↔ e.LoopInTest)) ∧
    (e.Refused s.names "generated code cannot be parsed: too many nested parentheses"
      ↔ 1 + e.depth > 200) ∧
    (e.Refused s.names ("generated code cannot be parsed: assignment expression cannot be used in a "
        ++ "comprehension iterable expression")
      ↔ ¬ 1 + e.depth > 200 ∧ e.LoopInTest) ∧
    ∀ code, e.compile s.names = .ok code
      ↔ ¬ 1 + e.depth > 200 ∧ ¬ e.LoopInTest ∧ code = e.code s.names := by
  have hn := (Settings.valid_of_validate hs).1
  have hdepth := bracketDepth_wrapped hn e
  have hcompile := compile_of_fits (n := s.names) hlines
  rw [hdepth] at hcompile
  refine ⟨hdepth, ⟨e.term s.names, ofLexemes?_code hn e, ?_⟩, ?_⟩
  · rw [bindsInSource_term, loopInCondition_iff]
  by_cases hdeep : 1 + e.depth > 200
  · rw [if_pos (show maxDepth < 1 + e.depth from hdeep)] at hcompile
    refine ⟨?_, ?_, fun code => ?_⟩
    · rw [refused_iff hcompile]
      exact iff_of_true rfl hdeep
    · rw [refused_iff hcompile]
      exact iff_of_false (by decide +kernel) fun h => h.1 hdeep
    · rw [hcompile]
      exact iff_of_false (by simp) fun h => h.1 hdeep
  · rw [if_neg (show ¬ maxDepth < 1 + e.depth from hdeep)] at hcompile
    by_cases hloop : e.LoopInTest
    · rw [if_pos ((loopInCondition_iff e).mpr hloop)] at hcompile
      refine ⟨?_, ?_, fun code => ?_⟩
      · rw [refused_iff hcompile]
        exact iff_of_false (by decide +kernel) hdeep
      · rw [refused_iff hcompile]
        exact iff_of_true rfl ⟨hdeep, hloop⟩
      · rw [hcompile]
        exact iff_of_false (by simp) fun h => h.2.1 hloop
    · rw [if_neg fun h => hloop ((loopInCondition_iff e).mp h)] at hcompile
      refine ⟨?_, ?_, fun code => ?_⟩
      · exact iff_of_false (not_refused hcompile _) hdeep
      · exact iff_of_false (not_refused hcompile _) fun h => hloop h.2
      · rw [hcompile, Except.ok.injEq]
        exact ⟨fun h => ⟨hdeep, hloop, h.symm⟩, fun h => h.2.2.symm⟩

/-- A loop in the condition of a loop is refused for that, as its brackets, of which those in the
    literals do not count, nest eleven deep. -/
theorem compile_outcome_polled :
    Settings.validate (.mapping []) = .ok {} ∧
      bracketDepth false 0 (wrapped (code {} (.whileLoop (.condition false [.forEach 7
        (.string "((\"[") (.string "]") (some (.string "x")) none]) (.string "y")))) = 11 ∧
      Refused {} (.whileLoop (.condition false [.forEach 7
        (.string "((\"[") (.string "]") (some (.string "x")) none]) (.string "y"))
        ("generated code cannot be parsed: assignment expression cannot be used in a "
          ++ "comprehension iterable expression") := by
  have hs : Settings.validate (.mapping []) = .ok {} := rfl
  obtain ⟨hdepth, -, -, hloop, -⟩ := compile_outcome hs (e := .whileLoop (.condition false [.forEach 7
    (.string "((\"[") (.string "]") (some (.string "x")) none]) (.string "y")) (by decide +kernel)
  refine ⟨hs, hdepth, hloop.mpr ⟨by decide, ?_⟩⟩
  exact (loopInCondition_iff _).mp rfl

end Expr

end TemplateTree
