import TemplateTree.Proofs.Target.Reader

/-!
# The rules of the grammar

What the reader makes of lexemes that are put together from others, one rule for each form of
expression. A rule holds wherever the expression is not continued (`stops`) and for every number of
steps that is large enough; its lexemes are always enough.

* `Primary`: an operand, behind which attributes, indices and calls may follow;
* `Operand`: an operand that may have a `not` or a sign in front;
* `Reads`: an expression of a level; `ReadsNamed`: what may stand between round brackets.
-/

namespace TemplateTree.Target

/-! ## 1. Where an expression starts and ends -/

/-- Whether some lexemes start neither with the binding of a name nor with a closing bracket. -/
def opens : List Lexeme → Bool
  | [] => false
  | .closeRound :: _ => false
  | .name _ :: ls => ls.head? != some .binds
  | _ => true

/-- Whether some lexemes do not go on with an operand that ends in front of them. -/
def stopsOperand : List Lexeme → Bool
  | .dot :: _ | .openSquare :: _ | .openRound :: _ | .binds :: _ => false
  | _ => true

/-- Whether some lexemes do not go on with a disjunction that ends in front of them. -/
def stopsDisjunction : List Lexeme → Bool
  | .andWord :: _ | .orWord :: _ => false
  | ls => stopsOperand ls

/-- Whether some lexemes do not go on with an expression that ends in front of them. -/
def stops : List Lexeme → Bool
  | .ifWord :: _ => false
  | ls => stopsDisjunction ls

theorem stopsDisjunction_of_stops {ls : List Lexeme} (h : stops ls = true) :
    stopsDisjunction ls = true := by
  unfold stops at h
  split at h
  · cases h
  · exact h

theorem stopsOperand_of_stopsDisjunction {ls : List Lexeme} (h : stopsDisjunction ls = true) :
    stopsOperand ls = true := by
  unfold stopsDisjunction at h
  split at h
  · cases h
  · cases h
  · exact h

theorem stopsOperand_of_stops {ls : List Lexeme} (h : stops ls = true) : stopsOperand ls = true :=
  stopsOperand_of_stopsDisjunction (stopsDisjunction_of_stops h)

/-- What a test refuses as a first lexeme is not the first one of lexemes that pass it. -/
theorem head?_ne_of_test {test : List Lexeme → Bool} {l : Lexeme} {ls : List Lexeme}
    (h : test ls = true) (hl : ∀ tail, test (l :: tail) = false) : ls.head? ≠ some l := by
  cases ls with
  | nil => simp
  | cons l' tail =>
    intro heq
    obtain rfl : l' = l := by simpa using heq
    rw [hl] at h
    cases h

theorem opens_append {ls rest : List Lexeme} (h : opens ls = true)
    (hr : rest.head? ≠ some .binds) : opens (ls ++ rest) = true := by
  cases ls with
  | nil => cases h
  | cons l tail =>
    -- Only behind a lone name does it matter what follows.
    cases l with
    | name x =>
      cases tail with
      | nil => simpa [opens] using hr
      | cons l' tail => exact h
    | _ => exact h

/-! ## 2. Expressions wherever they are not continued -/

/-- Some lexemes are read as an expression of a level wherever it is not continued. -/
structure Reads (l : Level) (ls : List Lexeme) (t : Term) : Prop where
  opens : opens ls = true
  parse_eq : ∀ {n : Nat} {rest : List Lexeme}, ls.length < n → stops rest = true →
    parse n l (ls ++ rest) = some (t, rest)

/-- Some lexemes are read between round brackets, where they may bind a name. -/
structure ReadsNamed (ls : List Lexeme) (t : Term) : Prop where
  head : ∃ l tail, ls = l :: tail ∧ l ≠ .closeRound
  named_eq : ∀ {n : Nat} {rest : List Lexeme}, ls.length < n → stops rest = true →
    Grammar.named (parse n) (ls ++ rest) = some (t, rest)

/-- Some lexemes are read as an operand, behind a `not` or a sign or without, wherever it is not
    continued. -/
structure Operand (ls : List Lexeme) (t : Term) : Prop where
  opens : opens ls = true
  head : ls.head? ≠ some .lambdaWord
  inversion_eq : ∀ {n : Nat} {rest : List Lexeme}, ls.length ≤ n → stopsOperand rest = true →
    Grammar.inversion (parse n) n (ls ++ rest) = some (t, rest)

/-- Some lexemes are read as an operand, behind which attributes, indices and calls may follow. Those
    that stand in it have taken fewer steps than there are lexemes. -/
structure Primary (ls : List Lexeme) (t : Term) : Prop where
  opens : opens ls = true
  head : ls.head? ≠ some .lambdaWord ∧ ls.head? ≠ some .notWord ∧ ls.head? ≠ some .minus
  primary_eq : ∃ used < ls.length, ∀ {n : Nat} {rest : List Lexeme}, ls.length ≤ n →
    Grammar.primary (parse n) n (ls ++ rest) = Grammar.trailers (parse n) (n - used) t rest

section

variable {ls ks : List Lexeme} {t u : Term} {n : Nat} {rest : List Lexeme}

theorem ne_nil_of_opens (h : opens ls = true) : ls ≠ [] := by
  rintro rfl
  cases h

theorem head?_append_of_opens (h : opens ls = true) : (ls ++ rest).head? = ls.head? := by
  cases ls with
  | nil => cases h
  | cons l tail => rfl

/-! ### From one level to the next -/

theorem Primary.signed_eq (h : Primary ls t) (hn : ls.length ≤ n)
    (hr : stopsOperand rest = true) :
    Grammar.signed (parse n) n (ls ++ rest) = some (t, rest) := by
  obtain ⟨used, hused, heq⟩ := h.primary_eq
  have hhead : (ls ++ rest).head? ≠ some .minus := by
    rw [head?_append_of_opens h.opens]
    exact h.head.2.2
  unfold Grammar.signed
  split
  · exact absurd (by simp [*]) hhead
  · obtain ⟨m, hm⟩ : ∃ m, n - used = m + 1 := ⟨n - used - 1, by omega⟩
    rw [heq hn, hm]
    unfold Grammar.trailers
    split <;> simp_all [stopsOperand]

theorem Primary.operand (h : Primary ls t) : Operand ls t where
  opens := h.opens
  head := h.head.1
  inversion_eq {n rest} hn hr := by
    have hhead : (ls ++ rest).head? ≠ some .notWord := by
      rw [head?_append_of_opens h.opens]
      exact h.head.2.1
    unfold Grammar.inversion
    split
    · exact absurd (by simp [*]) hhead
    · exact h.signed_eq hn hr

/-- A sign in front of an operand. -/
theorem Primary.negative (h : Primary ls t) : Operand (.minus :: ls) (.negative t) where
  opens := rfl
  head := by simp
  inversion_eq {n rest} hn hr := by
    have hs : Grammar.signed (parse n) n (ls ++ rest) = some (t, rest) :=
      h.signed_eq (Nat.le_of_succ_le hn) hr
    simp [Grammar.inversion, Grammar.signed, hs]

/-- A `not` in front of an operand. -/
theorem Operand.not (h : Operand ls t) : Operand (.notWord :: ls) (.not t) where
  opens := rfl
  head := by simp
  inversion_eq {n rest} hn hr := by
    have hs : Grammar.inversion (parse n) n (ls ++ rest) = some (t, rest) :=
      h.inversion_eq (Nat.le_of_succ_le hn) hr
    simp [Grammar.inversion, hs]

theorem Operand.conjunction_eq (h : Operand ls t) (hn : ls.length ≤ n)
    (hr : stopsOperand rest = true) (hand : rest.head? ≠ some .andWord) :
    Grammar.conjunction (parse n) n (ls ++ rest) = some (t, rest) := by
  simp only [Grammar.conjunction, h.inversion_eq hn hr, Option.bind_eq_bind, Option.bind_some]
  split
  · exact absurd rfl hand
  · rfl

theorem Operand.disjunction_eq (h : Operand ls t) (hn : ls.length ≤ n)
    (hr : stopsDisjunction rest = true) :
    Grammar.disjunction (parse n) n (ls ++ rest) = some (t, rest) := by
  have hand : rest.head? ≠ some .andWord := head?_ne_of_test hr fun _ => rfl
  have hconj := h.conjunction_eq hn (stopsOperand_of_stopsDisjunction hr) hand
  simp only [Grammar.disjunction, hconj, Option.bind_eq_bind, Option.bind_some]
  split
  · cases hr
  · rfl

theorem expression_eq_of_disjunction {inner : Level → Reader Term}
    (h : Grammar.disjunction inner n ls = some (t, rest)) (hl : ls.head? ≠ some .lambdaWord)
    (hr : stops rest = true) : Grammar.expression inner n ls = some (t, rest) := by
  unfold Grammar.expression
  split
  · exact absurd rfl hl
  · simp only [h, Option.bind_eq_bind, Option.bind_some]
    split
    · cases hr
    · rfl

theorem Operand.lambdaWord_ne_head (h : Operand ls t) : (ls ++ rest).head? ≠ some .lambdaWord := by
  rw [head?_append_of_opens h.opens]
  exact h.head

theorem Operand.reads (h : Operand ls t) (l : Level) : Reads l ls t where
  opens := h.opens
  parse_eq {n rest} hn hr := by
    obtain ⟨n, rfl⟩ : ∃ m, n = m + 1 := ⟨n - 1, by omega⟩
    have hn : ls.length ≤ n := by omega
    cases l with
    | expression =>
      exact expression_eq_of_disjunction (h.disjunction_eq hn (stopsDisjunction_of_stops hr))
        h.lambdaWord_ne_head hr
    | disjunction => exact h.disjunction_eq hn (stopsDisjunction_of_stops hr)
    | conjunction =>
      have hd := stopsDisjunction_of_stops hr
      exact h.conjunction_eq hn (stopsOperand_of_stops hr) (head?_ne_of_test hd fun _ => rfl)

/-! ### Lambdas, conditional expressions and operators -/

/-- Some lexemes are read as the parameters of a lambda in front of its colon. -/
def Parameters (ls : List Lexeme) (xs : List Text) (defaults : List Term) : Prop :=
  ∀ {n k : Nat} {rest : List Lexeme}, ls.length < n → ls.length < k →
    Grammar.parameters (parse n) k (ls ++ .colon :: rest) = some ((xs, defaults), rest)

theorem Reads.lambda {xs : List Text} {defaults : List Term} (hp : Parameters ls xs defaults)
    (hb : Reads .expression ks t) :
    Reads .expression (.lambdaWord :: (ls ++ .colon :: ks)) (.lambda xs defaults t) where
  opens := rfl
  parse_eq {n rest} hn hr := by
    obtain ⟨n, rfl⟩ : ∃ m, n = m + 1 := ⟨n - 1, by omega⟩
    simp only [List.length_cons, List.length_append] at hn
    have hbody : parse n .expression (ks ++ rest) = some (t, rest) := hb.parse_eq (by omega) hr
    have hparams : Grammar.parameters (parse n) n (ls ++ .colon :: (ks ++ rest))
        = some ((xs, defaults), ks ++ rest) := hp (by omega) (by omega)
    simp [parse, Grammar.level, Grammar.expression, hparams, hbody]

theorem Reads.conditional {cs : List Lexeme} {c : Term} (hy : Operand ls t) (hc : Operand cs c)
    (hz : Reads .expression ks u) :
    Reads .expression (ls ++ .ifWord :: (cs ++ .elseWord :: ks)) (.conditional c t u) where
  opens := opens_append hy.opens (by simp)
  parse_eq {n rest} hn hr := by
    obtain ⟨n, rfl⟩ : ∃ m, n = m + 1 := ⟨n - 1, by omega⟩
    simp only [List.length_cons, List.length_append] at hn
    have hyes : Grammar.disjunction (parse n) n
        (ls ++ .ifWord :: (cs ++ .elseWord :: (ks ++ rest)))
        = some (t, .ifWord :: (cs ++ .elseWord :: (ks ++ rest))) :=
      hy.disjunction_eq (by omega) rfl
    have htest : parse n .disjunction (cs ++ .elseWord :: (ks ++ rest))
        = some (c, .elseWord :: (ks ++ rest)) := (hc.reads .disjunction).parse_eq (by omega) rfl
    have hno : parse n .expression (ks ++ rest) = some (u, rest) := hz.parse_eq (by omega) hr
    have hhead : (ls ++ .ifWord :: (cs ++ .elseWord :: (ks ++ rest))).head? ≠ some .lambdaWord :=
      hy.lambdaWord_ne_head
    show Grammar.expression (parse n) n _ = _
    rw [List.append_assoc, List.cons_append, List.append_assoc, List.cons_append]
    unfold Grammar.expression
    split
    · exact absurd (by simp [*]) hhead
    · simp [hyes, htest, hno]

theorem Reads.or (hl : Operand ls t) (hr : Operand ks u) :
    Reads .expression (ls ++ .orWord :: ks) (.or t u) where
  opens := opens_append hl.opens (by simp)
  parse_eq {n rest} hn hs := by
    obtain ⟨n, rfl⟩ : ∃ m, n = m + 1 := ⟨n - 1, by omega⟩
    simp only [List.length_cons, List.length_append] at hn
    have hleft : Grammar.conjunction (parse n) n (ls ++ .orWord :: (ks ++ rest))
        = some (t, .orWord :: (ks ++ rest)) := hl.conjunction_eq (by omega) rfl (by simp)
    have hright : parse n .disjunction (ks ++ rest) = some (u, rest) :=
      (hr.reads .disjunction).parse_eq (by omega) hs
    have hdisj : Grammar.disjunction (parse n) n (ls ++ .orWord :: (ks ++ rest))
        = some (.or t u, rest) := by
      simp [Grammar.disjunction, hleft, hright]
    rw [List.append_assoc]
    exact expression_eq_of_disjunction hdisj hl.lambdaWord_ne_head hs

theorem Reads.and (hl : Operand ls t) (hr : Operand ks u) :
    Reads .disjunction (ls ++ .andWord :: ks) (.and t u) where
  opens := opens_append hl.opens (by simp)
  parse_eq {n rest} hn hs := by
    obtain ⟨n, rfl⟩ : ∃ m, n = m + 1 := ⟨n - 1, by omega⟩
    simp only [List.length_cons, List.length_append] at hn
    have hleft : Grammar.inversion (parse n) n (ls ++ .andWord :: (ks ++ rest))
        = some (t, .andWord :: (ks ++ rest)) := hl.inversion_eq (by omega) rfl
    have hright : parse n .conjunction (ks ++ rest) = some (u, rest) :=
      (hr.reads .conjunction).parse_eq (by omega) hs
    have hconj : Grammar.conjunction (parse n) n (ls ++ .andWord :: (ks ++ rest))
        = some (.and t u, rest) := by
      simp [Grammar.conjunction, hleft, hright]
    show Grammar.disjunction (parse n) n _ = _
    rw [List.append_assoc, List.cons_append]
    simp only [Grammar.disjunction, hconj, Option.bind_eq_bind, Option.bind_some]
    split
    · cases hs
    · rfl

/-! ### Brackets -/

theorem Reads.named (h : Reads .expression ls t) : ReadsNamed ls t where
  head := by
    cases ls with
    | nil => exact absurd rfl (ne_nil_of_opens h.opens)
    | cons l tail =>
      refine ⟨l, tail, rfl, fun hl => ?_⟩
      exact head?_ne_of_test h.opens (fun _ => rfl) (congrArg some hl)
  named_eq {n rest} hn hr := by
    have ho := opens_append h.opens (head?_ne_of_test (stopsOperand_of_stops hr) fun _ => rfl)
    unfold Grammar.named
    split
    · rename_i heq
      rw [heq] at ho
      cases ho
    · exact h.parse_eq hn hr

theorem Reads.bind (h : Reads .expression ls t) (x : Text) :
    ReadsNamed (.name x :: .binds :: ls) (.bind x t) where
  head := ⟨_, _, rfl, by simp⟩
  named_eq {n rest} hn hr := by
    simp only [List.length_cons] at hn
    have ht : parse n .expression (ls ++ rest) = some (t, rest) := h.parse_eq (by omega) hr
    simp [Grammar.named, ht]

/-- Lexemes with commas between them. -/
def joined : List (List Lexeme) → List Lexeme
  | [] => []
  | [ks] => ks
  | ks :: kss => ks ++ .comma :: joined kss

/-- Lexemes with a comma behind each of them. -/
def listed (kss : List (List Lexeme)) : List Lexeme := kss.flatMap (· ++ [.comma])

/-- What a reader of items makes of an item that is followed by another one or by nothing. -/
def ReadsItem (item : Reader Term) (ks : List Lexeme) (u : Term) : Prop :=
  (∃ l tail, ks = l :: tail ∧ l ≠ .closeRound) ∧
    ∀ rest, stops rest = true → item (ks ++ rest) = some (u, rest)

theorem items_cons {item : Reader Term} {k : Nat} {us : List Term} {rest' : List Lexeme}
    (h : ReadsItem item ks u) (hi : Grammar.items item k rest = some (us, rest')) :
    Grammar.items item (k + 1) (ks ++ .comma :: rest) = some (u :: us, rest') := by
  obtain ⟨⟨l, tail, rfl, hl⟩, heq⟩ := h
  rw [Grammar.items, heq (.comma :: rest) rfl]
  · simp [hi]
  · exact fun _ h' => hl (List.cons.inj h').1

theorem items_last {item : Reader Term} {k : Nat} (h : ReadsItem item ks u) :
    Grammar.items item (k + 1) (ks ++ .closeRound :: rest) = some ([u], rest) := by
  obtain ⟨⟨l, tail, rfl, hl⟩, heq⟩ := h
  rw [Grammar.items, heq (.closeRound :: rest) rfl]
  · simp
  · exact fun _ h' => hl (List.cons.inj h').1

/-- Items with a comma behind each of them are read one by one. -/
theorem items_listed {item : Reader Term} {parts : List (List Lexeme × Term)} {k : Nat}
    (h : ∀ p ∈ parts, ReadsItem item p.1 p.2) (hk : parts.length < k) :
    Grammar.items item k (listed (parts.map Prod.fst) ++ .closeRound :: rest)
      = some (parts.map Prod.snd, rest) := by
  induction parts generalizing k with
  | nil =>
    obtain ⟨k, rfl⟩ : ∃ m, k = m + 1 := ⟨k - 1, by omega⟩
    rfl
  | cons p parts ih =>
    obtain ⟨k, rfl⟩ : ∃ m, k = m + 1 := ⟨k - 1, by omega⟩
    have hi := ih (fun q hq => h q (by simp [hq])) (k := k) (by simpa using hk)
    simpa [listed] using items_cons (h p (by simp)) hi

/-- Items with commas between them are read one by one. -/
theorem items_joined {item : Reader Term} {parts : List (List Lexeme × Term)} {k : Nat}
    (h : ∀ p ∈ parts, ReadsItem item p.1 p.2) (hk : parts.length < k) :
    Grammar.items item k (joined (parts.map Prod.fst) ++ .closeRound :: rest)
      = some (parts.map Prod.snd, rest) := by
  obtain ⟨k, rfl⟩ : ∃ m, k = m + 1 := ⟨k - 1, by omega⟩
  induction parts generalizing k with
  | nil => rfl
  | cons p parts ih =>
    cases parts with
    | nil => simpa [joined] using items_last (h p (by simp))
    | cons q parts =>
      obtain ⟨k, rfl⟩ : ∃ m, k = m + 1 := ⟨k - 1, by simp at hk; omega⟩
      have hi := ih (fun q' hq => h q' (by simp [hq])) k (by simpa using hk)
      simpa [joined] using items_cons (h p (by simp)) hi

theorem length_le_joined {kss : List (List Lexeme)} (h : ∀ ks ∈ kss, ks ≠ []) :
    kss.length ≤ (joined kss).length := by
  fun_induction joined kss with
  | case1 => simp
  | case2 ks => exact List.length_pos_iff.mpr (h ks (by simp))
  | case3 ks kss _ ih =>
    have hrest := ih fun ks' hks' => h ks' (by simp [hks'])
    simp only [List.length_cons, List.length_append]
    omega

theorem length_le_joined_of_mem {kss : List (List Lexeme)} (h : ks ∈ kss) :
    ks.length ≤ (joined kss).length := by
  fun_induction joined kss with
  | case1 => cases h
  | case2 ks' => simp_all
  | case3 ks' kss _ ih =>
    simp only [List.length_append, List.length_cons]
    rcases List.mem_cons.mp h with rfl | h
    · omega
    · have := ih h
      omega

theorem length_lt_listed_of_mem {kss : List (List Lexeme)} (h : ks ∈ kss) :
    ks.length < (listed kss).length := by
  induction kss with
  | nil => cases h
  | cons ks' kss ih =>
    simp only [listed, List.flatMap_cons, List.length_append, List.length_cons, List.length_nil]
    rcases List.mem_cons.mp h with rfl | h
    · omega
    · have := ih h
      simp only [listed] at this
      omega

theorem length_le_listed (kss : List (List Lexeme)) : kss.length ≤ (listed kss).length := by
  induction kss with
  | nil => simp
  | cons ks kss ih =>
    simp only [listed, List.flatMap_cons, List.length_append, List.length_cons] at ih ⊢
    omega

/-! ### Operands -/

theorem Primary.name (x : Text) : Primary [.name x] (.name x) where
  opens := rfl
  head := by simp
  primary_eq := ⟨0, by simp, fun _ => rfl⟩

theorem Primary.number (m : Nat) : Primary [.number m] (.number m) where
  opens := rfl
  head := by simp
  primary_eq := ⟨0, by simp, fun _ => rfl⟩

theorem Primary.text (v : Text) : Primary [.text v] (.text v) where
  opens := rfl
  head := by simp
  primary_eq := ⟨0, by simp, fun _ => rfl⟩

theorem Primary.none : Primary [.noneWord] .none where
  opens := rfl
  head := by simp
  primary_eq := ⟨0, by simp, fun _ => rfl⟩

theorem Primary.true : Primary [.trueWord] (.bool Bool.true) where
  opens := rfl
  head := by simp
  primary_eq := ⟨0, by simp, fun _ => rfl⟩

theorem Primary.false : Primary [.falseWord] (.bool Bool.false) where
  opens := rfl
  head := by simp
  primary_eq := ⟨0, by simp, fun _ => rfl⟩

theorem Primary.member (h : Primary ls t) (a : Text) :
    Primary (ls ++ [.dot, .name a]) (.member t a) where
  opens := opens_append h.opens (by simp)
  head := by
    rw [head?_append_of_opens h.opens]
    exact h.head
  primary_eq := by
    obtain ⟨used, hused, heq⟩ := h.primary_eq
    refine ⟨used + 1, by simp; omega, fun {n rest} hn => ?_⟩
    simp only [List.length_append, List.length_cons, List.length_nil] at hn
    obtain ⟨m, hm⟩ : ∃ m, n - used = m + 1 := ⟨n - used - 1, by omega⟩
    rw [List.append_assoc, heq (by omega), hm, show n - (used + 1) = m by omega]
    rfl

theorem Primary.index (h : Primary ls t) (hk : Reads .expression ks u) :
    Primary (ls ++ .openSquare :: (ks ++ [.closeSquare])) (.index t u) where
  opens := opens_append h.opens (by simp)
  head := by
    rw [head?_append_of_opens h.opens]
    exact h.head
  primary_eq := by
    obtain ⟨used, hused, heq⟩ := h.primary_eq
    refine ⟨used + 1, by simp; omega, fun {n rest} hn => ?_⟩
    simp only [List.length_append, List.length_cons, List.length_nil] at hn
    obtain ⟨m, hm⟩ : ∃ m, n - used = m + 1 := ⟨n - used - 1, by omega⟩
    have hkey : parse n .expression (ks ++ .closeSquare :: rest)
        = some (u, .closeSquare :: rest) := hk.parse_eq (by omega) rfl
    rw [List.append_assoc, heq (by omega), hm, show n - (used + 1) = m by omega]
    simp [Grammar.trailers, hkey]

theorem Reads.item {l : Level} (h : Reads l ks u) (hn : ks.length < n) :
    ReadsItem (parse n l) ks u := by
  refine ⟨?_, fun rest hr => h.parse_eq hn hr⟩
  cases ks with
  | nil => exact absurd rfl (ne_nil_of_opens h.opens)
  | cons l' tail =>
    refine ⟨l', tail, rfl, fun hl => ?_⟩
    exact head?_ne_of_test h.opens (fun _ => rfl) (congrArg some hl)

theorem Primary.call {parts : List (List Lexeme × Term)} (h : Primary ls t)
    (hp : ∀ p ∈ parts, Reads .expression p.1 p.2) :
    Primary (ls ++ .openRound :: (joined (parts.map Prod.fst) ++ [.closeRound]))
      (.call t (parts.map Prod.snd)) where
  opens := opens_append h.opens (by simp)
  head := by
    rw [head?_append_of_opens h.opens]
    exact h.head
  primary_eq := by
    obtain ⟨used, hused, heq⟩ := h.primary_eq
    refine ⟨used + 1, by simp; omega, fun {n rest} hn => ?_⟩
    simp only [List.length_append, List.length_cons, List.length_nil] at hn
    obtain ⟨m, hm⟩ : ∃ m, n - used = m + 1 := ⟨n - used - 1, by omega⟩
    have hlen : (parts.map Prod.fst).length ≤ (joined (parts.map Prod.fst)).length := by
      refine length_le_joined fun ks hks => ?_
      obtain ⟨p, hmem, rfl⟩ := List.mem_map.mp hks
      exact ne_nil_of_opens (hp p hmem).opens
    have hitems : Grammar.items (parse n .expression) m
        (joined (parts.map Prod.fst) ++ .closeRound :: rest)
        = some (parts.map Prod.snd, rest) := by
      refine items_joined (fun p hmem => (hp p hmem).item ?_) ?_
      · have := length_le_joined_of_mem (List.mem_map_of_mem (f := Prod.fst) hmem)
        omega
      · rw [List.length_map] at hlen
        omega
    rw [List.append_assoc, heq (by omega), hm, show n - (used + 1) = m by omega]
    simp [Grammar.trailers, hitems]

theorem Primary.group (h : ReadsNamed ls t) :
    Primary (.openRound :: (ls ++ [.closeRound])) t where
  opens := rfl
  head := by simp
  primary_eq := by
    refine ⟨0, by simp, fun {n rest} hn => ?_⟩
    simp only [List.length_append, List.length_cons, List.length_nil] at hn
    have hnamed : Grammar.named (parse n) (ls ++ .closeRound :: rest)
        = some (t, .closeRound :: rest) := h.named_eq (by omega) rfl
    obtain ⟨l, tail, rfl, hl⟩ := h.head
    have hgroup : Grammar.group (parse n) n (l :: tail ++ .closeRound :: rest)
        = some (t, rest) := by
      rw [Grammar.group, hnamed]
      · simp
      · exact fun _ h' => hl (List.cons.inj h').1
    rw [List.cons_append] at hgroup
    simp [Grammar.primary, Grammar.atom, hgroup]

theorem ReadsNamed.item (h : ReadsNamed ks u) (hn : ks.length < n) :
    ReadsItem (Grammar.named (parse n)) ks u :=
  ⟨h.head, fun _ hr => h.named_eq hn hr⟩

/-- A tuple with a comma behind each of its items, of which there is at least one. -/
theorem Primary.tuple {parts : List (List Lexeme × Term)} (hne : parts ≠ [])
    (hp : ∀ q ∈ parts, ReadsNamed q.1 q.2) :
    Primary (.openRound :: (listed (parts.map Prod.fst) ++ [.closeRound]))
      (.tuple (parts.map Prod.snd)) where
  opens := rfl
  head := by simp
  primary_eq := by
    obtain ⟨p, parts, rfl⟩ := List.exists_cons_of_ne_nil hne
    refine ⟨0, by simp, fun {n rest} hn => ?_⟩
    simp only [List.length_append, List.length_cons, List.length_nil] at hn
    have hlt : ∀ q ∈ p :: parts, q.1.length < n := by
      intro q hq
      have := length_lt_listed_of_mem (List.mem_map_of_mem (f := Prod.fst) hq)
      omega
    have hlen := length_le_listed (parts.map Prod.fst)
    simp only [listed, List.map_cons, List.flatMap_cons, List.length_append, List.length_cons,
      List.length_nil, List.length_map] at hn hlen
    have hitems : Grammar.items (Grammar.named (parse n)) n
        (listed (parts.map Prod.fst) ++ .closeRound :: rest)
        = some (parts.map Prod.snd, rest) :=
      items_listed (fun q hq => (hp q (by simp [hq])).item (hlt q (by simp [hq]))) (by omega)
    have hnamed : Grammar.named (parse n)
        (p.1 ++ .comma :: (listed (parts.map Prod.fst) ++ .closeRound :: rest))
        = some (p.2, .comma :: (listed (parts.map Prod.fst) ++ .closeRound :: rest)) :=
      (hp p (by simp)).named_eq (hlt p (by simp)) rfl
    obtain ⟨l, tail, hcons, hl⟩ := (hp p (by simp)).head
    have hgroup : Grammar.group (parse n) n
        (p.1 ++ .comma :: (listed (parts.map Prod.fst) ++ .closeRound :: rest))
        = some (.tuple (p.2 :: parts.map Prod.snd), rest) := by
      rw [Grammar.group, hnamed]
      · simp [hitems]
      · exact fun _ h' => hl (List.cons.inj (by rwa [hcons] at h')).1
    simpa [Grammar.primary, Grammar.atom, listed] using
      congrArg (Option.bind · fun r => Grammar.trailers (parse n) n r.1 r.2) hgroup

theorem Primary.comprehension {es ss fs : List Lexeme} {e s f : Term} (he : Operand es e)
    (x : Text) (hs : Operand ss s) (hf : Reads .disjunction fs f) :
    Primary (.openSquare :: (es ++ .forWord :: .name x :: .inWord ::
      (ss ++ .ifWord :: (fs ++ [.closeSquare])))) (.comprehension e x s f) where
  opens := rfl
  head := by simp
  primary_eq := by
    refine ⟨0, by simp, fun {n rest} hn => ?_⟩
    simp only [List.length_append, List.length_cons, List.length_nil] at hn
    obtain ⟨n, rfl⟩ : ∃ m, n = m + 1 := ⟨n - 1, by omega⟩
    have helement : parse (n + 1) .expression (es ++ .forWord :: .name x :: .inWord ::
        (ss ++ .ifWord :: (fs ++ .closeSquare :: rest)))
        = some (e, .forWord :: .name x :: .inWord ::
          (ss ++ .ifWord :: (fs ++ .closeSquare :: rest))) :=
      (he.reads .expression).parse_eq (by omega) rfl
    have hsource : parse (n + 1) .disjunction (ss ++ .ifWord :: (fs ++ .closeSquare :: rest))
        = some (s, .ifWord :: (fs ++ .closeSquare :: rest)) :=
      hs.disjunction_eq (by omega) rfl
    have hfilter : parse (n + 1) .disjunction (fs ++ .closeSquare :: rest)
        = some (f, .closeSquare :: rest) := hf.parse_eq (by omega) rfl
    simp [Grammar.primary, Grammar.atom, Grammar.comprehension, helement, hsource, hfilter]

/-! ### Parameters -/

theorem Parameters.nil : Parameters [] [] [] := by
  intro n k rest hn hk
  obtain ⟨k, rfl⟩ : ∃ m, k = m + 1 := ⟨k - 1, by omega⟩
  rfl

theorem Parameters.default (x v : Text) :
    Parameters [.name x, .equals, .text v] [x] [.text v] := by
  intro n k rest hn hk
  obtain ⟨k, rfl⟩ : ∃ m, k = m + 1 := ⟨k - 1, by omega⟩
  have hv : parse n .expression (.text v :: .colon :: rest)
      = some (.text v, .colon :: rest) :=
    ((Primary.text v).operand.reads .expression).parse_eq (by simp at hn ⊢; omega) rfl
  simp [Grammar.parameters, hv]

theorem Parameters.cons {xs : List Text} {defaults : List Term} (x : Text)
    (h : Parameters ls xs defaults) :
    Parameters (.name x :: .comma :: ls) (x :: xs) defaults := by
  intro n k rest hn hk
  obtain ⟨k, rfl⟩ : ∃ m, k = m + 1 := ⟨k - 1, by omega⟩
  simp only [List.length_cons] at hn hk
  have hrest : Grammar.parameters (parse n) k (ls ++ .colon :: rest)
      = some ((xs, defaults), rest) := h (by omega) (by omega)
  simp [Grammar.parameters, hrest]

/-! ### Calls on the spot -/

/-- A lambda without parameters that is called on the spot. -/
theorem Primary.thunk (h : Reads .expression ls t) :
    Primary (.openRound :: .lambdaWord :: .colon :: (ls ++ [.closeRound, .openRound, .closeRound]))
      (.call (.lambda [] [] t) []) := by
  have hlambda := Primary.group (Reads.lambda Parameters.nil h).named
  have hnone : ∀ p ∈ ([] : List (List Lexeme × Term)), Reads .expression p.1 p.2 := by simp
  simpa [joined] using hlambda.call hnone

/-! ## 3. Whole texts -/

/-- **The lexemes of an operand are read as it.** -/
theorem Operand.ofLexemes?_eq (h : Operand ls t) : ofLexemes? ls = some t := by
  have hparse : parse (ls.length + 1) .expression (ls ++ []) = some (t, []) :=
    (h.reads .expression).parse_eq (by omega) rfl
  rw [List.append_nil] at hparse
  simp [ofLexemes?, hparse]

end

end TemplateTree.Target
