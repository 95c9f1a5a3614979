import TemplateTree.Expr.Code
import TemplateTree.Proofs.Target.Quotation

/-!
# The literal of a text

A text is written as one literal with single quotes (`Literal.encode`), which the generated language
reads as the text again, whatever code points it has (`Expr.literal?_code_string`). Every code point is
one item of the literal (`Literal.item`): itself, or an escape where it is a quote, a backslash, a
control character or a surrogate.
-/

namespace TemplateTree

namespace Literal

open Target Quotation

/-! ## 1. Items -/

/-- The item that the written form of a code point is. -/
def item : CodePoint → Item
  | .scalar c =>
    if 0x20 ≤ c.toNat ∧ c ≠ '"' ∧ c ≠ '\\' then .raw (.scalar c) else .escape (.scalar c)
  | .surrogate n => .escape (.surrogate n)

theorem item_scalar (c : Char) :
    item (.scalar c) = .raw (.scalar c) ∨ item (.scalar c) = .escape (.scalar c) := by
  unfold item
  by_cases hc : 0x20 ≤ c.toNat ∧ c ≠ '"' ∧ c ≠ '\\'
  · exact Or.inl (if_pos hc)
  · exact Or.inr (if_neg hc)

theorem text_item (c : CodePoint) : (item c).text = [c] := by
  cases c with
  | scalar c => rcases item_scalar c with h | h <;> rw [h] <;> rfl
  | surrogate n => rfl

theorem ne_of_item_eq_raw {c d : CodePoint} (h : item c = .raw d) : d ≠ quote ∧ d ≠ backslash := by
  cases c with
  | surrogate n => cases h
  | scalar c =>
    rw [item] at h
    by_cases hc : 0x20 ≤ c.toNat ∧ c ≠ '"' ∧ c ≠ '\\'
    · rw [if_pos hc] at h
      obtain rfl := Item.raw.inj h
      exact ⟨fun hq => hc.2.1 (CodePoint.scalar.inj hq), fun hb => hc.2.2 (CodePoint.scalar.inj hb)⟩
    · rw [if_neg hc] at h
      cases h

/-- The characters that are escaped by a letter or by themselves, each with that sign. -/
def signs : List (Char × Char) :=
  [('"', '"'), ('\\', '\\'), ('\n', 'n'), ('\r', 'r'), ('\t', 't'), ('\x08', 'b'), ('\x0c', 'f')]

/-- **How a code point is written**: by a sign, by its number, or as it is. -/
theorem escape_cases {P : Text → Item → Prop}
    (sign : ∀ p ∈ signs, P (Text.ofChars ['\\', p.2]) (.escape (.scalar p.1)))
    (number : ∀ n c, n < 0x10000 → CodePoint.ofNat? n = some c →
      P (Text.ofChars (['\\', 'u'] ++ hex4 n)) (.escape c))
    (raw : ∀ c, 0x20 ≤ c.toNat → c ≠ '"' → c ≠ '\\' → P [.scalar c] (.raw (.scalar c)))
    (c : CodePoint) : P (Text.ofChars (escape c)) (item c) := by
  unfold escape
  split
  case h_8 c hquote hback _ _ _ _ _ =>
    split
    · rename_i hlt
      have hitem : item (.scalar c) = .escape (.scalar c) := if_neg fun h => by omega
      rw [hitem]
      exact number _ _ (by omega) (ofNat?_toNat c)
    · rename_i hge
      have hitem : item (.scalar c) = .raw (.scalar c) :=
        if_pos ⟨Nat.le_of_not_lt hge, hquote, hback⟩
      rw [hitem]
      exact raw c (Nat.le_of_not_lt hge) hquote hback
  case h_9 n => exact number _ _ (by omega) (ofNat?_surrogate n)
  all_goals exact sign (_, _) (by decide)

section

variable {named : Text → Option CodePoint}

theorem hexDigit?_digitChar :
    ∀ d < 16, Quotation.hexDigit? (Nat.digitChar d) = some d := by
  decide

theorem hexDigit?_hexDigit (n : Nat) : Quotation.hexDigit? (hexDigit n) = some (n % 16) :=
  hexDigit?_digitChar _ (Nat.mod_lt _ (by decide))

/-- An escape by number is read as the code point with the number. -/
theorem run_byNumber {n : Nat} {c : CodePoint} (hn : n < 0x10000)
    (hc : CodePoint.ofNat? n = some c) :
    runMachine (step named) .plain (Text.ofChars (['\\', 'u'] ++ hex4 n))
      = some (.plain, [.escape c]) := by
  have hv : 16 * (16 * (16 * (n / 256 / 16 % 16) + n / 256 % 16) + n / 16 % 16) + n % 16 = n := by
    omega
  simp [hex4, hex2, Text.ofChars, runMachine, step, enter, backslash, start?, hexStep,
    CodePoint.char?, hexDigit?_hexDigit, hv, numbered?, hc]

/-- **The written form of a code point is one item.** -/
theorem run_escape (c : CodePoint) :
    runMachine (step named) .plain (Text.ofChars (escape c)) = some (.plain, [item c]) := by
  refine escape_cases (P := fun t i => runMachine (step named) .plain t = some (.plain, [i]))
    ?sign (fun n c => run_byNumber) ?raw c
  case sign =>
    intro p hp
    simp only [signs, List.mem_cons, List.not_mem_nil, or_false] at hp
    rcases hp with rfl | rfl | rfl | rfl | rfl | rfl | rfl <;> rfl
  case raw =>
    intro c _ _ hback
    have hne : CodePoint.scalar c ≠ backslash := fun h => hback (CodePoint.scalar.inj h)
    have hraw : step named .plain (.scalar c) = some (.plain, [.raw (.scalar c)]) := by
      simp [step, enter, hne]
    exact runMachine_cons hraw rfl

theorem items?_body (t : Text) :
    items? named (Text.ofChars (body t)) = some (t.map item) := by
  have hbody : Text.ofChars (body t) = t.flatMap fun c => Text.ofChars (escape c) := by
    simp [body, Text.ofChars, List.map_flatMap]
  have hrun : runMachine (step named) .plain (t.flatMap fun c => Text.ofChars (escape c))
      = some (.plain, t.flatMap fun c => [item c]) := runMachine_flatMap fun c _ => run_escape c
  rw [← hbody, ← List.map_eq_flatMap] at hrun
  simp [items?, hrun, finish]

end

/-! ## 2. The end of a literal -/

/-- Whether a code point neither closes a literal nor starts an escape nor ends a line. -/
def isInner (c : CodePoint) : Bool :=
  isSource c && c != quote && c != backslash && c != newline

theorem body?_inner {s : Text} (hs : ∀ c ∈ s, isInner c = true) (rest : Text) :
    Quotes.single.body? false (s ++ rest)
      = (Quotes.single.body? false rest).map fun r => (s ++ r.1, r.2) := by
  induction s with
  | nil => simp
  | cons c s ih =>
    have hc := hs c List.mem_cons_self
    simp only [isInner, Bool.and_eq_true, bne_iff_ne] at hc
    obtain ⟨⟨⟨hsource, hquote⟩, hback⟩, hline⟩ := hc
    have hclose : ¬ Quotes.single.text <+: c :: (s ++ rest) := by
      simpa [Quotes.text] using Ne.symm hquote
    rw [List.cons_append, Quotes.body?_of_part hsource hclose fun _ => hline,
      beq_false_of_ne hback, ih fun d hd => hs d (List.mem_cons_of_mem c hd), Option.map_map]
    rfl

theorem body?_escaped {c : CodePoint} {s : Text} (hc : isSource c = true)
    (hs : ∀ d ∈ s, isInner d = true) (rest : Text) :
    Quotes.single.body? false (backslash :: c :: (s ++ rest))
      = (Quotes.single.body? false rest).map fun r => (backslash :: c :: (s ++ r.1), r.2) := by
  have hclose : ¬ Quotes.single.text <+: backslash :: c :: (s ++ rest) := by
    simp [Quotes.text, quote, backslash]
  rw [Quotes.body?_of_part rfl hclose (by decide), beq_self_eq_true, Quotes.body?_of_escaped hc,
    body?_inner hs, Option.map_map, Option.map_map]
  rfl

theorem isInner_hex4 (n : Nat) : ∀ c ∈ Text.ofChars (hex4 n), isInner c = true := by
  have hdigit : ∀ d < 16, isInner (.scalar (Nat.digitChar d)) = true := by decide
  have hall : ∀ k, isInner (.scalar (hexDigit k)) = true := fun k =>
    hdigit _ (Nat.mod_lt _ (by decide))
  simp [hex4, hex2, Text.ofChars, hall]

/-- **No written form of a code point closes a literal.** -/
theorem body?_escape (c : CodePoint) (rest : Text) :
    Quotes.single.body? false (Text.ofChars (escape c) ++ rest)
      = (Quotes.single.body? false rest).map fun r => (Text.ofChars (escape c) ++ r.1, r.2) := by
  refine escape_cases (P := fun t _ => Quotes.single.body? false (t ++ rest)
    = (Quotes.single.body? false rest).map fun r => (t ++ r.1, r.2)) ?sign ?number ?raw c
  case sign =>
    intro p hp
    have hsource : ∀ q ∈ signs, isSource (.scalar q.2) = true := by decide
    exact body?_escaped (hsource p hp) (by simp) rest
  case number =>
    intro n _ _ _
    exact body?_escaped rfl (isInner_hex4 n) rest
  case raw =>
    intro c hlow hquote hback
    have hcontrol {d : Char} (hd : d.toNat < 0x20) : c ≠ d := by
      intro heq
      rw [heq] at hlow
      omega
    have hnul : c ≠ '\x00' := hcontrol (by decide)
    have hreturn : c ≠ '\r' := hcontrol (by decide)
    have hline : c ≠ '\n' := hcontrol (by decide)
    have hinner : isInner (.scalar c) = true := by
      simp only [isInner, isSource, Bool.and_eq_true, bne_iff_ne]
      exact ⟨⟨⟨⟨hnul, hreturn⟩, fun h => hquote (CodePoint.scalar.inj h)⟩,
        fun h => hback (CodePoint.scalar.inj h)⟩, fun h => hline (CodePoint.scalar.inj h)⟩
    exact body?_inner (by simpa using hinner) rest

theorem body?_body (t rest : Text) :
    Quotes.single.body? false (Text.ofChars (body t) ++ quote :: rest)
      = some (Text.ofChars (body t), rest) := by
  induction t with
  | nil => exact Quotes.body?_of_close (q := .single) rest
  | cons c t ih =>
    have hbody : Text.ofChars (body (c :: t)) = Text.ofChars (escape c) ++ Text.ofChars (body t) := by
      simp [body, Text.ofChars]
    rw [hbody, List.append_assoc, body?_escape, ih, Option.map_some]

/-! ## 3. The code points of a literal -/

theorem shown_escape (c : CodePoint) : ∀ ch ∈ escape c, 0x20 ≤ ch.toNat := by
  have hshown : ∀ d ∈ Text.ofChars (escape c), 0x20 ≤ d.val := by
    refine escape_cases (P := fun t _ => ∀ d ∈ t, 0x20 ≤ d.val) ?sign ?number ?raw c
    case sign => decide
    case number =>
      intro n _ _ _
      have hdigit : ∀ d < 16, 0x20 ≤ (CodePoint.scalar (Nat.digitChar d)).val := by decide
      have hall : ∀ k, 0x20 ≤ (CodePoint.scalar (hexDigit k)).val := fun k =>
        hdigit _ (Nat.mod_lt _ (by decide))
      have hmarks : ∀ d ∈ Text.ofChars ['\\', 'u'], 0x20 ≤ d.val := by decide
      rw [Text.ofChars, List.map_append]
      refine List.forall_mem_append.mpr ⟨hmarks, ?_⟩
      simp [hex4, hex2, hall]
    case raw =>
      intro c hlow _ _
      exact List.forall_mem_singleton.mpr hlow
  exact fun ch hch => hshown (.scalar ch) (List.mem_map_of_mem hch)

/-- **A literal shows neither control characters nor surrogates.** -/
theorem shown_body (t : Text) :
    ∀ c ∈ Text.ofChars (body t), 0x20 ≤ c.val ∧ c.char?.isSome = true := by
  intro c hc
  obtain ⟨ch, hch, rfl⟩ := List.mem_map.mp hc
  obtain ⟨p, -, hp⟩ := List.mem_flatMap.mp hch
  exact ⟨shown_escape p ch hp, rfl⟩

/-- The literal of a text between its quotes. -/
theorem encode_eq (t : Text) : encode t = quote :: Text.ofChars (body t) ++ [quote] := by
  simp [encode, Text.ofChars, quote]

/-- **A literal with single quotes is read as its text.** -/
theorem literal?_encode (named : Text → Option CodePoint) (t : Text) :
    literal? named (encode t) = some (t, []) := by
  have hbody := body?_body t []
  have htriple : ¬ Quotes.triple.text <+: encode t := by
    intro h
    rw [encode_eq, List.cons_append] at h
    -- Two more quotes in front would close the literal too early.
    have htwo : [quote, quote] <+: Text.ofChars (body t) ++ [quote] := by
      simpa [Quotes.text] using h
    obtain ⟨behind, hbehind⟩ := htwo
    rw [← hbehind] at hbody
    have hclose := Quotes.body?_of_close (q := .single) ([quote] ++ behind)
    have heq : some (([] : Text), [quote] ++ behind) = some (Text.ofChars (body t), []) :=
      hclose.symm.trans hbody
    cases congrArg Prod.snd (Option.some.inj heq)
  have hsingle : Quotes.single.text <+: encode t := ⟨Text.ofChars (body t) ++ [quote], by
    rw [encode_eq]
    rfl⟩
  have hdrop : (encode t).drop Quotes.single.text.length = Text.ofChars (body t) ++ [quote] := by
    rw [encode_eq]
    rfl
  have htext : (t.map item).flatMap Item.text = t := by
    rw [List.flatMap_map, List.flatMap_congr fun c _ => text_item c, List.flatMap_singleton']
  simp [literal?, if_neg htriple, if_pos hsingle, hdrop, hbody, items?_body, htext]

end Literal

namespace Expr

open Target Quotation

/-- **The code of a text is one literal with single quotes that is read as the text.** Between its
    quotes it shows no control character and no surrogate, every quote and every backslash in it belongs
    to an escape, and the names of the runtime have no part in it. -/
theorem literal?_code_string (named : Text → Option CodePoint) (n : RuntimeNames) (v : Text) :
    ∃ body items, (string v).code n = quote :: body ++ [quote] ∧
      Quotes.single.body? false (body ++ [quote]) = some (body, []) ∧
      (∀ c ∈ body, 0x20 ≤ c.val ∧ c.char?.isSome = true) ∧
      items? named body = some items ∧ (∀ c, .raw c ∈ items → c ≠ quote ∧ c ≠ backslash) ∧
      literal? named ((string v).code n) = some (v, []) ∧
      ∀ n', (string v).code n' = (string v).code n := by
  refine ⟨Text.ofChars (Literal.body v), v.map Literal.item, Literal.encode_eq v,
    Literal.body?_body v [], Literal.shown_body v, Literal.items?_body v, ?_,
    Literal.literal?_encode named v, fun n' => rfl⟩
  intro c hc
  obtain ⟨d, -, hd⟩ := List.mem_map.mp hc
  exact Literal.ne_of_item_eq_raw hd

end Expr

end TemplateTree
