import TemplateTree.Proofs.Document.Grammar

/-!
# What the rules accept

For each rule of the building it is said when it gives a result, and which: out of what results of the
rules that it uses. A view of values is looked at here, so that a part is its own value.
-/

namespace TemplateTree.Document

/-! ## 1. Rows of steps -/

section

variable {ε α β γ : Type}

theorem mapM_eq_ok_iff {f : α → Except ε β} {as : List α} {bs : List β} :
    as.mapM f = .ok bs ↔ List.Forall₂ (fun a b => f a = .ok b) as bs := by
  constructor
  · intro h
    induction as generalizing bs with
    | nil =>
      obtain rfl : [] = bs := Except.ok.inj h
      exact .nil
    | cons a as ih =>
      obtain ⟨b, rest, hb, hrest, rfl⟩ := exists_of_mapM_cons h
      exact .cons hb (ih hrest)
  · intro h
    induction h with
    | nil => rfl
    | cons hab _ ih =>
      rw [List.mapM_cons, hab, ih]
      rfl

theorem option_mapM_eq_ok_iff {f : α → Except ε β} {a? : Option α} {b? : Option β} :
    a?.mapM f = .ok b? ↔ Option.Rel (fun a b => f a = .ok b) a? b? := by
  constructor
  · intro h
    cases a? with
    | none =>
      obtain rfl : none = b? := Except.ok.inj h
      exact .none
    | some a =>
      obtain ⟨b, hb, h⟩ := exists_of_bind (f := fun b => Except.ok (some b)) h
      obtain rfl : some b = b? := Except.ok.inj h
      exact .some hb
  · intro h
    cases h with
    | none => rfl
    | @some a b hab =>
      show (some <$> f a) = _
      rw [hab]
      rfl

end

section

variable {view : View Value} (hview : view.IsTree) {marker : Value} {outer line : Int}
  {entries : Entries Value} {node : Int → Value → Except Failure Expr} {e : Expr}

/-! ## 2. Keys -/

theorem checkKeys_eq_ok_iff {kind : Text} {allowed : List Text} :
    entries.checkKeys kind allowed line = .ok () ↔ HasKeys allowed entries := by
  rw [← filter_isAmong_eq_nil_iff, Entries.checkKeys]
  generalize (entries.map Prod.fst).filter (fun k => !Entries.isAmong allowed k) = unknown
  cases unknown with
  | nil => simp
  | cons k ks => cases h : (k :: ks).mapM Scalar.plain <;> simp [h]

include hview in
theorem listItems_eq_ok_iff {cause : Cause} {v? : Option Value} {items : List Value} :
    listItems view line cause v? = .ok items ↔ v? = some (.list items) := by
  constructor
  · intro h
    cases v? with
    | none => cases h
    | some v =>
      rw [listItems, hview.level_eq] at h
      cases v with
      | list items' => rw [Except.ok.inj h]
      | _ => cases h
  · intro h
    rw [h, listItems_list hview.level]

/-! ## 3. Nodes -/

section

include hview

/-- A scalar gives a literal if it counts as a text. -/
theorem node_scalar_eq_ok_iff {depth : Nat} {s : Scalar} :
    Document.node view marker (depth + 1) outer (.scalar s) = .ok e ↔
      ∃ t, s.tokenText? false = some t ∧ e = .string t := by
  cases htext : s.tokenText? false with
  | some t =>
    rw [node_of_text (hview.level_eq _) htext]
    simp [eq_comm]
  | none =>
    rw [Document.node, hview.level_eq]
    cases s with
    | text | float => cases htext
    | int n =>
      rw [Scalar.tokenText?] at htext
      simp [Value.level, Scalar.numberText?, htext]
    | _ => simp [Value.level, Scalar.numberText?]

/-- A mapping gives a tree if it is of a kind and the rule of that kind does. -/
theorem node_mapping_eq_ok_iff {depth : Nat} :
    Document.node view marker (depth + 1) outer (.mapping entries) = .ok e ↔
      ∃ kind, IsOfKind kind entries ∧ ofKind view marker (Document.node view marker depth)
        ((ownLine entries).getD outer) kind entries = .ok e := by
  constructor
  · intro h
    rw [Document.node, hview.level_eq] at h
    obtain ⟨line, hline, h⟩ := exists_of_bind h
    obtain ⟨hhas, rfl⟩ := (lineInside_eq_ok_iff hview).mp hline
    generalize hkinds : Entries.kinds entries = kinds at h
    cases kinds with
    | nil => cases h
    | cons kind others =>
      cases others with
      | nil =>
        obtain ⟨_, hkeys, h⟩ := exists_of_bind h
        exact ⟨kind, ⟨hhas, kinds_eq_singleton_iff.mp hkinds, checkKeys_eq_ok_iff.mp hkeys⟩, h⟩
      | cons => cases h
  · intro h
    obtain ⟨kind, hof, h⟩ := h
    rw [node_mapping kind (hview.level_eq _) ((lineInside_eq_ok_iff hview).mpr ⟨hof.line, rfl⟩)
      (kinds_eq_singleton_iff.mpr hof.kinds) (checkKeys_eq_ok_iff.mpr hof.keys)]
    exact h

/-- A clause gives a condition and a branch if it is a mapping with these. -/
theorem clause_eq_ok_iff {v : Value} {c : Expr × Expr} :
    clause view marker node outer v = .ok c ↔
      ∃ (entries : Entries Value) (branch : Value), v = .mapping entries ∧ HasLine entries ∧
        HasKeys clauseKeys entries ∧
        condition view marker ((ownLine entries).getD outer) (entries.find? "when") = .ok c.1 ∧
        entries.find? "then" = some branch ∧ node ((ownLine entries).getD outer) branch = .ok c.2 := by
  constructor
  · intro h
    rw [clause, hview.level_eq] at h
    cases v with
    | mapping entries =>
      dsimp only [Value.level] at h
      cases hthen : Entries.find? "then" entries with
      | none =>
        rw [hthen] at h
        cases h
      | some branch =>
        rw [hthen] at h
        obtain ⟨line, hline, h⟩ := exists_of_bind h
        obtain ⟨hhas, rfl⟩ := (lineInside_eq_ok_iff hview).mp hline
        obtain ⟨_, hkeys, h⟩ := exists_of_bind h
        obtain ⟨test, htest, h⟩ := exists_of_bind h
        obtain ⟨b, hb, h⟩ := exists_of_bind h
        obtain rfl := Except.ok.inj h
        exact ⟨entries, branch, rfl, hhas, checkKeys_eq_ok_iff.mp hkeys, htest, hthen, hb⟩
    | _ => cases h
  · intro h
    obtain ⟨entries, branch, hv, hhas, hkeys, htest, hthen, hb⟩ := h
    subst hv
    exact clause_mapping (hview.level_eq _) hthen rfl ((lineInside_eq_ok_iff hview).mpr ⟨hhas, rfl⟩)
      (checkKeys_eq_ok_iff.mpr hkeys) htest hb

theorem ofKind_command_eq_ok_iff :
    ofKind view marker node line .command entries = .ok e ↔
      ∃ items, entries.find? "command" = some (.list items) ∧ view.command line items = .ok e := by
  constructor
  · intro h
    obtain ⟨items, hitems, h⟩ := exists_of_bind h
    exact ⟨items, (listItems_eq_ok_iff hview).mp hitems, h⟩
  · intro h
    obtain ⟨items, hitems, h⟩ := h
    exact ofKind_command ((listItems_eq_ok_iff hview).mpr hitems) h

theorem ofKind_block_eq_ok_iff :
    ofKind view marker node line .block entries = .ok e ↔
      ∃ items first rest, entries.find? "block" = some (.list items) ∧
        List.Forall₂ (fun v e => node line v = .ok e) items (first :: rest) ∧ e = .block first rest := by
  constructor
  · intro h
    obtain ⟨items, hitems, h⟩ := exists_of_bind h
    obtain ⟨es, hes, h⟩ := exists_of_bind h
    cases es with
    | nil => cases h
    | cons first rest =>
      exact ⟨items, first, rest, (listItems_eq_ok_iff hview).mp hitems, mapM_eq_ok_iff.mp hes,
        (Except.ok.inj h).symm⟩
  · intro h
    obtain ⟨items, first, rest, hitems, hrow, he⟩ := h
    rw [he]
    exact ofKind_block ((listItems_eq_ok_iff hview).mpr hitems) (mapM_eq_ok_iff.mpr hrow)

theorem ofKind_choice_eq_ok_iff :
    ofKind view marker node line .choice entries = .ok e ↔
      ∃ items clauses, entries.find? "if" = some (.list items) ∧
        List.Forall₂ (fun v c => clause view marker node line v = .ok c) items clauses ∧
        e = .choice clauses := by
  constructor
  · intro h
    obtain ⟨items, hitems, h⟩ := exists_of_bind h
    obtain ⟨clauses, hclauses, h⟩ := exists_of_bind h
    exact ⟨items, clauses, (listItems_eq_ok_iff hview).mp hitems, mapM_eq_ok_iff.mp hclauses,
      (Except.ok.inj h).symm⟩
  · intro h
    obtain ⟨items, clauses, hitems, hrow, he⟩ := h
    rw [he]
    exact ofKind_choice ((listItems_eq_ok_iff hview).mpr hitems) (mapM_eq_ok_iff.mpr hrow)

end

theorem ofKind_forEach_eq_ok_iff :
    ofKind view marker node line .forEach entries = .ok e ↔
      ∃ iterable body i b element position, entries.find? "for" = some iterable ∧
        entries.find? "do" = some body ∧ node line iterable = .ok i ∧ node line body = .ok b ∧
        Option.Rel (fun v e => node line v = .ok e) (given view (entries.find? "as")) element ∧
        Option.Rel (fun v e => node line v = .ok e) (given view (entries.find? "index")) position ∧
        e = .forEach line i b element position := by
  constructor
  · intro h
    rw [ofKind] at h
    cases hfor : entries.find? "for" with
    | none =>
      rw [hfor] at h
      cases h
    | some iterable =>
      cases hdo : entries.find? "do" with
      | none =>
        rw [hfor, hdo] at h
        cases h
      | some body =>
        rw [hfor, hdo] at h
        obtain ⟨i, hi, h⟩ := exists_of_bind h
        obtain ⟨b, hb, h⟩ := exists_of_bind h
        obtain ⟨element, helement, h⟩ := exists_of_bind h
        obtain ⟨position, hposition, h⟩ := exists_of_bind h
        exact ⟨iterable, body, i, b, element, position, rfl, rfl, hi, hb,
          option_mapM_eq_ok_iff.mp helement, option_mapM_eq_ok_iff.mp hposition,
          (Except.ok.inj h).symm⟩
  · intro h
    obtain ⟨iterable, body, i, b, element, position, hfor, hdo, hi, hb, helement, hposition, he⟩ := h
    rw [he]
    exact ofKind_forEach hfor hdo hi hb (option_mapM_eq_ok_iff.mpr helement)
      (option_mapM_eq_ok_iff.mpr hposition)

theorem ofKind_whileLoop_eq_ok_iff :
    ofKind view marker node line .whileLoop entries = .ok e ↔
      ∃ body test b, entries.find? "do" = some body ∧
        condition view marker line (entries.find? "while") = .ok test ∧ node line body = .ok b ∧
        e = .whileLoop test b := by
  constructor
  · intro h
    rw [ofKind] at h
    cases hdo : entries.find? "do" with
    | none =>
      rw [hdo] at h
      cases h
    | some body =>
      rw [hdo] at h
      obtain ⟨test, htest, h⟩ := exists_of_bind h
      obtain ⟨b, hb, h⟩ := exists_of_bind h
      exact ⟨body, test, b, rfl, htest, hb, (Except.ok.inj h).symm⟩
  · intro h
    obtain ⟨body, test, b, hdo, htest, hb, he⟩ := h
    rw [he]
    exact ofKind_whileLoop hdo htest hb

end

end TemplateTree.Document
