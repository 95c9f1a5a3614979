import TemplateTree.Document.Parse
import TemplateTree.Proofs.Document.Snags
import TemplateTree.Proofs.Yaml.Decode
import TemplateTree.Proofs.Yaml.Node
import TemplateTree.Proofs.Yaml.Stumble

/-!
# What becomes of a text

A text becomes a tree or is refused, unless something in it makes trouble (`Document.Trouble`): an escape that
names no character, a version of the format with too many digits, a value that does not exist, an integer that
is too long to be written, or a collection that contains itself. Each stage of the reading contributes its own
troubles: lexemes (`Yaml.Stumble`), nodes (`Yaml.Nodes.Lacks`), and the document (`View.Snag`).

* `Document.parse_outcome`: a text becomes a tree, is refused, or has the trouble that it fails for; a text
  that is a scalar without a value always fails.
-/

namespace TemplateTree

/-! ## 1. Reading -/

namespace Yaml

/-- The nodes of a text, if it has a document. -/
def nodesOf? (t : Text) : Option Nodes :=
  t.chars?.bind fun cs => (Nodes.ofLexemes (Lexemes.ofStream (.ofChars cs))).toOption.join

/-- The tag and the text of a document that is a scalar. -/
def rootScalar? (t : Text) : Option (Tag × Text) :=
  (nodesOf? t).bind fun ns =>
    match Merge.nodeAt ns.nodes ns.root with
    | .scalar tag text => some (tag, text)
    | _ => none

/-- **Why a text has no value**, apart from being malformed. -/
inductive Trouble (t : Text) : Fault → Prop
  /-- An escape names a number that is no code point. -/
  | character {cs : List Char} {n : Nat} (ht : t.chars? = some cs) (h : HoldsEscape cs n)
      (hn : CodePoint.ofNat? n = none) : Trouble t (if n < 0x80000000 then .badCharacter else .hugeCharacter)
  /-- A number of the version of the format has too many digits. -/
  | version {cs behind : List Char} (ht : t.chars? = some cs) (h : behind <:+ cs)
      (hversion : StartsVersion behind) : Trouble t .badNumber
  /-- A node asks for a value that does not exist. -/
  | value {ns : Nodes} {f : Fault} (ht : nodesOf? t = some ns) (h : Nodes.Lacks ns.nodes f) : Trouble t f

variable {t : Text} {cs : List Char}

theorem fails_ofLexemes (ht : t.chars? = some cs) :
    Fails (fun f => f = .malformed ∨ Trouble t f) (Nodes.ofLexemes (Lexemes.ofStream ⟨cs, none⟩)) := by
  refine (Nodes.fails_ofLexemes _).imp fun f hf => ?_
  rcases hf with hf | hf
  · exact .inl hf
  · obtain ⟨hstumble, hclosed⟩ := Lexemes.stumble_of_fault hf
    cases hstumble with
    | malformed => exact .inl rfl
    | unclosed => exact absurd rfl hclosed
    | character h hn => exact .inr (.character ht h hn)
    | version h hversion => exact .inr (.version ht h hversion)

/-- A text with a character that a data file may not hold is malformed. -/
theorem load_of_not_printable (ht : t.chars? = some cs) (h : ¬cs.all isPrintable = true) :
    load t = .error .malformed := by
  have hstream : Stream.ofChars cs = ⟨[], some .malformed⟩ := if_neg h
  rw [load, ht]
  dsimp only
  rw [hstream]
  rfl

/-- A text that may be read has the value of its nodes. -/
theorem load_of_nodes {ns : Nodes} (ht : t.chars? = some cs) (h : cs.all isPrintable = true)
    (hns : Nodes.ofLexemes (Lexemes.ofStream ⟨cs, none⟩) = .ok (some ns)) : load t = ns.decode := by
  have hstream : Stream.ofChars cs = ⟨cs, none⟩ := if_pos h
  rw [load, ht]
  dsimp only
  rw [hstream, loadStream, if_neg (by simp), hns]
  rfl

/-- **A text has a value, is malformed, or has a trouble.** -/
theorem fails_load (t : Text) : Fails (fun f => f = .malformed ∨ Trouble t f) (load t) := by
  cases ht : t.chars? with
  | none =>
    rw [load, ht]
    exact .error (.inl rfl)
  | some cs =>
    by_cases hprintable : cs.all isPrintable = true
    · have hstream : Stream.ofChars cs = ⟨cs, none⟩ := if_pos hprintable
      rw [load, ht]
      dsimp only
      rw [hstream, loadStream, if_neg (by simp)]
      refine (fails_ofLexemes ht).bind fun nodes? hnodes => ?_
      split
      · exact .ok _
      · rename_i ns
        have hns : nodesOf? t = some ns := by
          rw [nodesOf?, ht, Option.bind_some, hstream, hnodes]
          rfl
        exact (Nodes.fails_decode ns).imp fun f hf => hf.imp_right (.value hns)
    · rw [load_of_not_printable ht hprintable]
      exact .error (.inl rfl)

theorem exists_of_nodesOf? {ns : Nodes} (h : nodesOf? t = some ns) :
    ∃ cs, t.chars? = some cs ∧ cs.all isPrintable = true ∧
      Nodes.ofLexemes (Lexemes.ofStream ⟨cs, none⟩) = .ok (some ns) := by
  obtain ⟨cs, ht, hcs⟩ := Option.bind_eq_some_iff.mp h
  by_cases hprintable : cs.all isPrintable = true
  · refine ⟨cs, ht, hprintable, ?_⟩
    rw [show Stream.ofChars cs = ⟨cs, none⟩ from if_pos hprintable] at hcs
    cases hnodes : Nodes.ofLexemes (Lexemes.ofStream ⟨cs, none⟩) with
    | error f =>
      rw [hnodes] at hcs
      cases hcs
    | ok nodes? =>
      rw [hnodes] at hcs
      exact congrArg Except.ok (Option.join_eq_some_iff.mp hcs |> Option.some.inj)
  · rw [show Stream.ofChars cs = ⟨[], some .malformed⟩ from if_neg hprintable] at hcs
    cases hcs

/-- A document that is a scalar without a value has none. -/
theorem load_eq_error {tag : Tag} {text : Text} {f : Fault} (h : rootScalar? t = some (tag, text))
    (hno : NoValue tag text f) : load t = .error f := by
  obtain ⟨ns, hns, hscalar⟩ := Option.bind_eq_some_iff.mp h
  obtain ⟨cs, ht, hprintable, hnodes⟩ := exists_of_nodesOf? hns
  rw [load_of_nodes ht hprintable hnodes]
  split at hscalar
  · rename_i hroot
    cases hscalar
    exact Nodes.decode_eq_error hroot hno
  · cases hscalar

end Yaml

/-! ## 2. Parsing -/

namespace Document

/-- **Why a text neither becomes a tree nor is refused.** -/
inductive Trouble (t : Text) : Failure → Prop
  /-- It has no value, though it is well formed. -/
  | reading {f : Yaml.Fault} (h : Yaml.Trouble t f) : Trouble t (.badValue f)
  /-- Its value has an integer that is too long, or a part that contains itself. -/
  | building {g : Graph} {f : Failure} (hg : Yaml.load t = .ok g) (h : g.view.Snag g.root f) : Trouble t f

theorem fails_read (t : Text) : Fails (fun f => (∃ e, f = .refused e) ∨ Trouble t f) (read t) := by
  have hload := Yaml.fails_load t
  unfold read
  split
  · exact .ok _
  · exact .error (.inl ⟨_, rfl⟩)
  · rename_i f hmalformed herror
    refine .error (.inr (.reading ?_))
    exact (hload f herror).resolve_left hmalformed

theorem load_of_read {t : Text} {g : Graph} (h : read t = .ok g) : Yaml.load t = .ok g := by
  unfold read at h
  split at h
  · cases h
    assumption
  · cases h
  · cases h

/-- **Parsing a text** gives a tree or a refusal, unless the text has a trouble. -/
theorem fails_parse (s : Settings) (t : Text) :
    Fails (fun f => (∃ e, f = .refused e) ∨ Trouble t f) (parse s t) := by
  refine (fails_read t).bind fun g hg => ?_
  split
  · exact .error (.inl ⟨_, rfl⟩)
  · refine (g.fails_tree s.negationMarker unknownLine).imp fun f hf => ?_
    exact hf.imp_right (.building (load_of_read hg))

theorem parse_of_load {s : Settings} {t : Text} {f : Yaml.Fault} (h : Yaml.load t = .error f)
    (hf : f ≠ .malformed) : parse s t = .error (.badValue f) := by
  have hread : read t = .error (.badValue f) := by
    rw [read, h]
    cases f with
    | malformed => exact absurd rfl hf
    | _ => rfl
  rw [parse, hread]
  rfl

/-- **What becomes of a text.** It becomes a tree, is refused with an error of its own, or fails for a trouble
    that is to be seen in it; and it does fail if the document is a scalar without a value. -/
theorem parse_outcome (s : Settings) (t : Text) :
    ((∃ e, parse s t = .ok e) ∨ (∃ e, parse s t = .error (.refused e)) ∨
        ∃ f, parse s t = .error f ∧ Trouble t f) ∧
      ∀ tag text f, Yaml.rootScalar? t = some (tag, text) → Yaml.NoValue tag text f →
        parse s t = .error (.badValue f) := by
  constructor
  · cases hparse : parse s t with
    | ok e => exact .inl ⟨e, rfl⟩
    | error f =>
      rcases fails_parse s t f hparse with ⟨e, rfl⟩ | htrouble
      · exact .inr (.inl ⟨e, rfl⟩)
      · exact .inr (.inr ⟨f, rfl, htrouble⟩)
  · intro tag text f hroot hno
    exact parse_of_load (Yaml.load_eq_error hroot hno) hno.ne_malformed

/-- A date in the thirteenth month, at which the outcome is a failure. -/
theorem parse_outcome_month :
    Yaml.rootScalar? "2001-13-01" = some (Yaml.Tag.moment, Text.ofString "2001-13-01") ∧
      Yaml.NoValue .moment "2001-13-01" .badDate ∧
      parse {} "2001-13-01" = .error (.badValue .badDate) := by
  have hroot : Yaml.rootScalar? "2001-13-01" = some (Yaml.Tag.moment, Text.ofString "2001-13-01") := by
    decide +kernel
  have hno : Yaml.NoValue .moment "2001-13-01" .badDate :=
    .date (p := ⟨2001, 13, 1, true, none, 0, none⟩) rfl rfl
  exact ⟨hroot, hno, (parse_outcome {} "2001-13-01").2 _ _ _ hroot hno⟩

/-- The failure of a text, if it has one. -/
def failure? (s : Settings) (t : Text) : Option Failure :=
  match parse s t with
  | .ok _ => none
  | .error f => some f

theorem failure?_eq_some_iff {s : Settings} {t : Text} {f : Failure} :
    failure? s t = some f ↔ parse s t = .error f := by
  unfold failure?
  split
  · rename_i h
    rw [h]
    exact iff_of_false (fun h => by cases h) fun h => by cases h
  · rename_i h
    rw [h]
    exact ⟨fun h => congrArg Except.error (Option.some.inj h), fun h => congrArg some (Except.error.inj h)⟩

/-- Texts that neither become a tree nor are refused: a date that the calendar does not have, a tag that its
    scalar has no value of, an escape beyond the last character, a number without digits, a list that contains
    itself. -/
theorem parse_neither :
    parse {} "2001-13-01" = .error (.badValue .badDate) ∧
      parse {} "!!bool maybe" = .error (.badValue .badTruth) ∧
      parse {} "\"\\U00110000\"" = .error (.badValue .badCharacter) ∧
      parse {} "!!int ''" = .error (.badValue .emptyNumber) ∧
      parse {} "&a [*a]" = .error .endlessDocument := by
  refine ⟨?_, ?_, ?_, ?_, ?_⟩
  all_goals
    rw [← failure?_eq_some_iff]
    decide +kernel

end Document

end TemplateTree
