import TemplateTree.Proofs.Failing
import TemplateTree.Yaml.Lexeme

/-!
# What stops the reader of lexemes

The reader of lexemes gives up on a text that is malformed, and for two more reasons that have to do with
numbers that are written in the text (`Yaml.Stumble`): an escape names a number that is no code point, or the
version of the format is given by a number with too many digits.

* The reader moves over the text without ever leaving it (`Cursor.advance_rest`).
* Each lexeme is read or stumbles over something in the text (`Reader.reads_step`), so the lexemes of a text
  break off for such a reason only (`Lexemes.stumble_of_fault`).
-/

namespace TemplateTree.Yaml

/-! ## 1. Reasons -/

/-- A text holds an escape by a number. -/
def HoldsEscape (cs : List Char) (n : Nat) : Prop :=
  ∃ mark count behind, '\\' :: mark :: behind <:+ cs ∧ escapeDigits? mark = some count ∧
    (hexNumber? count 0 (behind.take count)).map Prod.fst = some n

/-- A text starts with a directive for the version of the format in which a number has too many digits;
    `major` is the number in front of it, with its point. -/
def StartsVersion (cs : List Char) : Prop :=
  ∃ spaces major digits rest, cs = "%YAML".toList ++ (spaces ++ (major ++ (digits ++ rest))) ∧
    (∀ c ∈ spaces, c = ' ') ∧ (major = [] ∨ ∃ ds, major = ds ++ ['.'] ∧ ∀ c ∈ ds, c.isDigit = true) ∧
    (∀ c ∈ digits, c.isDigit = true) ∧ Decimal.maxDigits < digits.length

/-- **Why the reader of lexemes stops** in a text. -/
inductive Stumble (cs : List Char) : Fault → Prop
  | malformed : Stumble cs .malformed
  | unclosed : Stumble cs .unclosed
  /-- An escape names a number that is no code point. -/
  | character {n : Nat} (h : HoldsEscape cs n) (hn : CodePoint.ofNat? n = none) :
      Stumble cs (if n < 0x80000000 then .badCharacter else .hugeCharacter)
  /-- A number of the version of the format has too many digits. -/
  | version {behind : List Char} (h : behind <:+ cs) (hversion : StartsVersion behind) : Stumble cs .badNumber

/-! ## 2. Scalars -/

variable {cs rest : List Char}

theorem fails_escape (h : '\\' :: rest <:+ cs) : Fails (Stumble cs) (escape rest) := by
  unfold escape
  split
  · exact .error .unclosed
  · rename_i c behind
    split
    · exact .ok _
    · rename_i count _ hcount
      dsimp only
      split
      · refine .error ?_
        split
        · exact .unclosed
        · exact .malformed
      · rename_i n tail hn
        split
        · exact .ok _
        · rename_i hnone
          exact .error (.character ⟨c, count, behind, h, hcount, by rw [hn]; rfl⟩ hnone)
    · exact .ite (fun _ => .ite (fun _ => .error .malformed) fun _ => .ok _) fun _ => .error .malformed

theorem fails_quotedSpaces : Fails (Stumble cs) (quotedSpaces rest) :=
  .ite (fun _ => .error .malformed) fun _ => .ok _

/-- A quoted scalar stops at its end or in an escape, by induction on its pieces. -/
theorem fails_quotedPieces (double : Bool) (steps : Nat) (h : rest <:+ cs) :
    Fails (Stumble cs) (quotedPieces double steps rest) := by
  induction steps generalizing rest with
  | zero => exact .error .unclosed
  | succ steps ih =>
    cases rest with
    | nil => exact .error .unclosed
    | cons c rest =>
      have hmore (size : Nat) : Fails (Stumble cs) (quotedPieces double steps ((c :: rest).drop size)) :=
        ih ((List.drop_suffix size _).trans h)
      rw [quotedPieces]
      refine .ite (fun _ => ?_) fun _ => .ite (fun _ => ?_) fun _ => .ite (fun _ => ?_) fun _ => ?_
      · exact fails_quotedSpaces.bind fun p _ => (hmore p.2).bind fun _ _ => .ok _
      · refine .ite (fun _ => .ok _) fun _ => .ite (fun hc => ?_) fun _ => (hmore 1).bind fun _ _ => .ok _
        rw [hc] at h
        exact (fails_escape h).bind fun p _ => (hmore (1 + p.2)).bind fun _ _ => .ok _
      · exact .ite (fun _ => (hmore 2).bind fun _ _ => .ok _) fun _ => .ok _
      · exact (hmore 1).bind fun _ _ => .ok _

theorem fails_restOfLine : Fails (Stumble cs) (restOfLine rest) :=
  .ite (fun _ => .ok _) fun _ => .error .malformed

theorem fails_depth {c : Char} {d : Except Fault Nat} (h : depth? c = some d) : Fails (Stumble cs) d := by
  unfold depth? at h
  split at h
  · cases h
    exact .ok _
  · split at h
    · cases h
      exact .error .malformed
    · cases h

theorem fails_blockHeader : Fails (Stumble cs) (blockHeader rest) := by
  unfold blockHeader
  dsimp only
  split
  all_goals
    refine Fails.bind ?_ fun _ _ => .ite (fun _ => .ok _) fun _ => .error .malformed
    split
    · exact .ok _
    · rename_i hd
      obtain ⟨c, -, hc⟩ := Option.bind_eq_some_iff.mp hd
      exact (fails_depth hc).map

theorem fails_blockScalar (folded : Bool) (least : Nat) :
    Fails (Stumble cs) (blockScalar folded least rest) :=
  fails_blockHeader.bind fun _ _ => fails_restOfLine.bind fun _ _ => .ok _

/-! ## 3. Names and directives -/

theorem fails_anchorName : Fails (Stumble cs) (anchorName rest) :=
  .ite (fun _ => .error .malformed) fun _ => .ite (fun _ => .ok _) fun _ => .error .malformed

theorem fails_uriBytes : Fails (Stumble cs) (uriBytes rest) := by
  fun_induction uriBytes rest with
  | case1 a b rest d hd e he ih => exact ih.bind fun _ _ => .ok _
  | case2 => exact .error .malformed
  | case3 => exact .error .malformed
  | case4 => exact .ok _

theorem fails_uriPieces (steps : Nat) : Fails (Stumble cs) (uriPieces steps rest) := by
  induction steps generalizing rest with
  | zero => exact .ok _
  | succ steps ih =>
    unfold uriPieces
    split
    · refine fails_uriBytes.bind fun _ _ => ?_
      dsimp only
      split
      · exact .error .malformed
      · exact ih.bind fun _ _ => .ok _
    · exact .ite (fun _ => ih.bind fun _ _ => .ok _) fun _ => .ok _
    · exact .ok _

theorem fails_uri : Fails (Stumble cs) (uri rest) :=
  .ite (fun _ => fails_uriPieces _) fun _ => .error .malformed

theorem fails_tagHandle : Fails (Stumble cs) (tagHandle rest) := by
  unfold tagHandle
  split
  · refine .ite (fun _ => .ok _) fun _ => ?_
    split
    · exact .ok _
    · exact .error .malformed
  · exact .error .malformed

theorem fails_tag : Fails (Stumble cs) (tag rest) := by
  unfold tag
  dsimp only
  refine Fails.bind ?_ fun _ _ => .ite (fun _ => .ok _) fun _ => .error .malformed
  refine .ite (fun _ => fails_uri.bind fun _ _ => ?_) fun _ => .ite (fun _ => .ok _) fun _ => ?_
  · split
    · exact .ok _
    · exact .error .malformed
  · exact .ite (fun _ => fails_tagHandle.bind fun _ _ => fails_uri.bind fun _ _ => .ok _)
      fun _ => fails_uri.bind fun _ _ => .ok _

/-- A number of a version stops at its digits. -/
theorem fails_versionNumber
    (hlong : Decimal.maxDigits < (rest.takeWhile Char.isDigit).length → Stumble cs .badNumber) :
    Fails (Stumble cs) (versionNumber rest) :=
  .ite (fun _ => .error .malformed) fun _ => .ite (fun h => .error (hlong h)) fun _ => .ok _

theorem rest_of_versionNumber {p : Nat × List Char} (h : versionNumber rest = .ok p) :
    rest = rest.takeWhile Char.isDigit ++ p.2 := by
  unfold versionNumber at h
  dsimp only at h
  split at h
  · cases h
  · split at h
    · cases h
    · cases h
      exact List.takeWhile_append_dropWhile.symm

theorem isDigit_of_mem_takeWhile {c : Char} (h : c ∈ rest.takeWhile Char.isDigit) : c.isDigit = true :=
  List.all_eq_true.mp List.all_takeWhile c h

theorem startsVersion_of_name {major digits behind : List Char}
    (hmajor : major = [] ∨ ∃ ds, major = ds ++ ['.'] ∧ ∀ c ∈ ds, c.isDigit = true)
    (hname : String.ofList (rest.takeWhile isWordChar) = "YAML")
    (heq : (rest.dropWhile isWordChar).dropWhile (· == ' ') = major ++ (digits ++ behind))
    (hdigits : ∀ c ∈ digits, c.isDigit = true) (hlong : Decimal.maxDigits < digits.length) :
    StartsVersion ('%' :: rest) := by
  refine ⟨(rest.dropWhile isWordChar).takeWhile (· == ' '), major, digits, behind, ?_, fun c hc => ?_, hmajor,
    hdigits, hlong⟩
  · have hword : rest.takeWhile isWordChar = "YAML".toList := by rw [← hname, String.toList_ofList]
    rw [← heq, List.takeWhile_append_dropWhile]
    show '%' :: rest = '%' :: ("YAML".toList ++ rest.dropWhile isWordChar)
    rw [← hword, List.takeWhile_append_dropWhile]
  · exact eq_of_beq (List.all_eq_true.mp List.all_takeWhile c hc)

/-- A directive is malformed, or stops at one of the two numbers of a version. -/
theorem fails_directive (h : '%' :: rest <:+ cs) : Fails (Stumble cs) (directive rest) := by
  unfold directive
  dsimp only
  refine .ite (fun _ => .error .malformed) fun _ => ?_
  refine Fails.bind ?_ fun _ _ => fails_restOfLine.bind fun _ _ => .ok _
  refine .ite (fun hname => ?_) fun _ => .ite (fun _ => ?_) fun _ => .ok _
  · refine (fails_versionNumber fun hlong => ?_).bind fun p hp => ?_
    · exact .version h (startsVersion_of_name (.inl rfl) hname List.takeWhile_append_dropWhile.symm
        (fun c hc => isDigit_of_mem_takeWhile hc) hlong)
    · have hmajor := rest_of_versionNumber hp
      split
      · rename_i behind hbehind
        rw [hbehind, ← List.takeWhile_append_dropWhile (p := Char.isDigit) (l := behind),
          List.append_cons] at hmajor
        refine (fails_versionNumber fun hlong => ?_).bind fun _ _ =>
          .ite (fun _ => .ok _) fun _ => .error .malformed
        exact .version h (startsVersion_of_name (.inr ⟨_, rfl, fun c hc => isDigit_of_mem_takeWhile hc⟩) hname
          hmajor (fun c hc => isDigit_of_mem_takeWhile hc) hlong)
      · exact .error .malformed
  · refine fails_tagHandle.bind fun _ _ => .ite (fun _ => .error .malformed) fun _ => ?_
    exact fails_uri.bind fun _ _ => .ite (fun _ => .ok _) fun _ => .error .malformed

/-! ## 4. Places -/

namespace Cursor

theorem next_rest (k : Cursor) : k.next.rest <:+ k.rest := by
  unfold next
  split
  · exact List.suffix_rfl
  · rename_i c rest hrest
    rw [hrest]
    split
    · exact List.suffix_cons c rest
    · split
      · exact List.suffix_cons c rest
      · exact List.suffix_cons c rest

theorem advance_rest (n : Nat) (k : Cursor) : (advance n k).rest <:+ k.rest := by
  induction n generalizing k with
  | zero => exact List.suffix_rfl
  | succ n ih => exact (ih k.next).trans k.next_rest

end Cursor

namespace Reader

theorem skipIgnored_rest (inComment brokeLine : Bool) (k : Cursor) (cs : List Char) :
    (skipIgnored inComment brokeLine k cs).1.rest <:+ k.rest := by
  induction cs generalizing inComment brokeLine k with
  | nil => exact List.suffix_rfl
  | cons c cs ih =>
    unfold skipIgnored
    split
    · exact (ih _ _ _).trans k.next_rest
    · split
      · exact (ih _ _ _).trans k.next_rest
      · split
        · exact (ih _ _ _).trans k.next_rest
        · exact List.suffix_rfl

theorem skip_rest (r : Reader) : r.skip.rest <:+ r.rest := by
  refine (skipIgnored_rest _ _ _ _).trans ?_
  split
  · exact r.here.next_rest
  · exact List.suffix_rfl

theorem unwind_rest (r : Reader) (count : Nat) : (r.unwind count).rest = r.rest := by
  induction count generalizing r with
  | zero => rfl
  | succ count ih =>
    rw [unwind, ih]
    rfl

theorem dedent_rest (r : Reader) (stays : Nat → Bool) : (r.dedent stays).rest = r.rest := by
  unfold dedent
  split
  · exact r.unwind_rest _
  · rfl

theorem indentAt_rest (r : Reader) (column : Nat) (l : Lexeme) : (r.indentAt column l).rest = r.rest := by
  unfold indentAt
  split
  · rfl
  · rfl

end Reader

/-! ## 5. One lexeme -/

/-- The reader reads on in a text: it stays in it, or stumbles over something in it. -/
abbrev Reads (cs : List Char) (x : Except Fault Reader) : Prop :=
  Gives (Stumble cs) (fun r => r.rest <:+ cs) x

namespace Reader

variable {r : Reader}

theorem reads_dropStale (hr : r.rest <:+ cs) : Reads cs r.dropStale :=
  .ite (fun _ => .error .malformed) fun _ => .ok hr

theorem reads_dropPending (hr : r.rest <:+ cs) : Reads cs r.dropPending :=
  .ite (fun _ => .error .malformed) fun _ => .ok hr

theorem reads_savePending (hr : r.rest <:+ cs) : Reads cs r.savePending :=
  .ite (fun _ => (reads_dropPending hr).bind fun _ hr' => .ok hr') fun _ => .ok hr

theorem reads_atMargin (hr : r.rest <:+ cs) : Reads cs r.atMargin :=
  (reads_dropPending (by rwa [dedentAll, dedent_rest])).bind fun _ hr' => .ok hr'

/-- Moving over some characters stays in the text. -/
theorem pass_rest (count : Nat) (hr : r.rest <:+ cs) : (r.pass count).rest <:+ cs :=
  (Cursor.advance_rest count r.here).trans hr

theorem moveTo_rest (hr : r.rest <:+ cs) : (r.moveTo rest).rest <:+ cs :=
  (Cursor.advance_rest _ r.here).trans hr

theorem reads_openFlow (l : Lexeme) (hr : r.rest <:+ cs) : Reads cs (r.openFlow l) :=
  (reads_savePending hr).bind fun _ hr' => .ok (pass_rest 1 hr')

theorem reads_closeFlow (l : Lexeme) (hr : r.rest <:+ cs) : Reads cs (r.closeFlow l) :=
  (reads_dropPending hr).bind fun _ hr' => .ok (pass_rest 1 hr')

theorem reads_flowEntry (hr : r.rest <:+ cs) : Reads cs r.flowEntry :=
  (reads_dropPending hr).bind fun _ hr' => .ok (pass_rest 1 hr')

theorem indented_rest (l : Lexeme) (hr : r.rest <:+ cs) :
    (if r.flow = 0 then r.indentAt r.here.column l else r).rest <:+ cs := by
  split
  · rwa [indentAt_rest]
  · exact hr

theorem reads_blockEntry (hr : r.rest <:+ cs) : Reads cs r.blockEntry :=
  .ite (fun _ => .error .malformed) fun _ =>
    (reads_dropPending (indented_rest _ hr)).bind fun _ hr' => .ok (pass_rest 1 hr')

theorem reads_key (hr : r.rest <:+ cs) : Reads cs r.key :=
  .ite (fun _ => .error .malformed) fun _ =>
    (reads_dropPending (indented_rest _ hr)).bind fun _ hr' => .ok (pass_rest 1 hr')

theorem reads_value (hr : r.rest <:+ cs) : Reads cs r.value := by
  unfold value
  split
  · refine .ok (pass_rest 1 ?_)
    split
    · exact hr
    · exact hr
  · exact .ite (fun _ => .error .malformed) fun _ => .ok (pass_rest 1 (indented_rest _ hr))

theorem reads_keyLike {read : List Char → Except Fault (Lexeme × Nat)} (hr : r.rest <:+ cs)
    (hread : ∀ behind, behind <:+ cs → Fails (Stumble cs) (read behind)) : Reads cs (r.keyLike read) :=
  (reads_savePending hr).bind fun _ hr' =>
    .after (hread _ ((List.drop_suffix 1 _).trans hr')) fun p => .ok (pass_rest (1 + p.2) hr')

theorem reads_tagLexeme (hr : r.rest <:+ cs) : Reads cs r.tagLexeme :=
  (reads_savePending hr).bind fun _ hr' => .after fails_tag fun _ => .ok (moveTo_rest hr')

theorem reads_plainScalar (hr : r.rest <:+ cs) : Reads cs r.plainScalar :=
  (reads_savePending hr).bind fun _ hr' => .ok (pass_rest _ hr')

theorem reads_blockScalar (folded : Bool) (hr : r.rest <:+ cs) : Reads cs (r.blockScalar folded) :=
  (reads_dropPending hr).bind fun _ hr' => .after (fails_blockScalar _ _) fun _ => .ok (moveTo_rest hr')

theorem reads_lexeme (c : Char) (behind : List Char) (hr : r.rest <:+ cs) : Reads cs (r.lexeme c behind) := by
  have hname (f : List Char × List Char → Lexeme × Nat) (behind : List Char) (_ : behind <:+ cs) :
      Fails (Stumble cs) ((anchorName behind).map f) := fails_anchorName.map
  have hquoted (double : Bool) (f : Text × Nat → Lexeme × Nat) (behind : List Char) (h : behind <:+ cs) :
      Fails (Stumble cs) ((quoted double r.size behind).map f) := (fails_quotedPieces double _ h).map
  unfold lexeme
  exact .ite (fun _ => reads_openFlow _ hr) fun _ =>
    .ite (fun _ => reads_openFlow _ hr) fun _ =>
    .ite (fun _ => reads_closeFlow _ hr) fun _ =>
    .ite (fun _ => reads_closeFlow _ hr) fun _ =>
    .ite (fun _ => reads_flowEntry hr) fun _ =>
    .ite (fun _ => reads_blockEntry hr) fun _ =>
    .ite (fun _ => reads_key hr) fun _ =>
    .ite (fun _ => reads_value hr) fun _ =>
    .ite (fun _ => reads_keyLike hr (hname _)) fun _ =>
    .ite (fun _ => reads_keyLike hr (hname _)) fun _ =>
    .ite (fun _ => reads_tagLexeme hr) fun _ =>
    .ite (fun _ => reads_blockScalar false hr) fun _ =>
    .ite (fun _ => reads_blockScalar true hr) fun _ =>
    .ite (fun _ => reads_keyLike hr (hquoted false _)) fun _ =>
    .ite (fun _ => reads_keyLike hr (hquoted true _)) fun _ =>
    .ite (fun _ => reads_plainScalar hr) fun _ => .error .malformed

/-- **One step of the reader** stays in the text or stumbles over something in it. -/
theorem reads_step (hr : r.rest <:+ cs) : Reads cs r.step := by
  refine (reads_dropStale (r.skip_rest.trans hr)).bind fun r' hr' => ?_
  have hdedent : (r'.dedent fun i => i ≤ r'.here.column).rest <:+ cs := by rwa [dedent_rest]
  dsimp only
  generalize (r'.dedent fun i => i ≤ r'.here.column) = d at hdedent ⊢
  split
  · exact (reads_atMargin hdedent).bind fun _ hmargin => .ok hmargin
  · rename_i c behind hrest
    refine .ite (fun hmark => ?_) fun _ => .ite (fun _ => ?_) fun _ => .ite (fun _ => ?_) fun _ => ?_
    · have hbehind : '%' :: behind <:+ cs := by
        rw [← hmark.2, ← hrest]
        exact hdedent
      exact (reads_atMargin hdedent).bind fun _ hmargin =>
        .after (fails_directive hbehind) fun _ => .ok (moveTo_rest hmargin)
    · exact (reads_atMargin hdedent).bind fun _ hmargin => .ok (pass_rest 3 hmargin)
    · exact (reads_atMargin hdedent).bind fun _ hmargin => .ok (pass_rest 3 hmargin)
    · exact reads_lexeme c behind hdedent

/-! ## 6. All lexemes -/

/-- A text without a fault behind it that ends inside a quoted scalar is malformed. -/
theorem reads_stepWithin (hr : r.rest <:+ cs) :
    Reads cs (r.stepWithin none) ∧ r.stepWithin none ≠ .error .unclosed := by
  have hstep := reads_step hr
  unfold stepWithin
  dsimp only
  split
  · exact ⟨.error .malformed, fun h => by cases h⟩
  · rename_i hclosed
    exact ⟨hstep, hclosed⟩

/-- **A run of the reader** breaks off where a step of it stumbles. -/
theorem stumble_of_run {steps : Nat} {f : Fault} (hr : r.rest <:+ cs)
    (h : (run none steps r).fault? = some f) : Stumble cs f ∧ f ≠ .unclosed := by
  have hmalformed : Stumble cs .malformed ∧ Fault.malformed ≠ .unclosed := ⟨.malformed, by decide⟩
  induction steps generalizing r with
  | zero =>
    unfold run at h
    dsimp only at h
    split at h
    · cases h
    · cases h
      exact hmalformed
  | succ steps ih =>
    obtain ⟨hreads, hclosed⟩ := reads_stepWithin hr
    unfold run at h
    split at h
    · cases h
    · cases hstep : r.stepWithin none with
      | error e =>
        rw [hstep] at h hclosed
        rw [← Option.some.inj h]
        exact ⟨hreads.fails e hstep, fun heq => hclosed (congrArg Except.error heq)⟩
      | ok r' =>
        rw [hstep] at h
        exact ih (hreads.holds r' hstep) h

end Reader

/-- **The lexemes of a text break off** only for an escape or a version in it, unless it is malformed. -/
theorem Lexemes.stumble_of_fault {f : Fault} (h : (ofStream ⟨cs, none⟩).fault? = some f) :
    Stumble cs f ∧ f ≠ .unclosed :=
  Reader.stumble_of_run List.suffix_rfl h

end TemplateTree.Yaml
