import TemplateTree.CommandLine.Options

/-!
# Arguments without an output

The output option can be taken out of the arguments of a run, with its value, in all of its spellings
(`Options.withoutOutput`). The arguments that are left are read as they were, but for the output
(`Options.parse_withoutOutput`).
-/

namespace TemplateTree.Options

/-! ## 1. The output taken out -/

/-- What an argument is read as. -/
inductive Shape where
  /-- The end of the options. -/
  | ending
  /-- An option by its long name. -/
  | long
  /-- Options by their letters, of which there is at least one. -/
  | letters (first : CodePoint) (others : Text)
  /-- No option. -/
  | other
deriving DecidableEq

/-- The shape of an argument. -/
def shape : Text → Shape
  | [.scalar '-', .scalar '-'] => .ending
  | .scalar '-' :: .scalar '-' :: _ => .long
  | .scalar '-' :: c :: cs => .letters c cs
  | _ => .other

/-- Whether a letter is that of an option without a value. -/
def isFlag (c : CodePoint) : Bool := ((Kind.ofLetter? c).map Kind.takesValue) == some false

/-- The option with a value that an argument of a shape ends in, and the value that stands in the
    argument. -/
def valued? (argument : Text) : Shape → Option (Kind × Option Text)
  | .long => (Kind.ofName? (nameAndValue argument).1).bind fun kind =>
    if kind.takesValue then some (kind, (nameAndValue argument).2) else none
  | .letters c cs => ((c :: cs).dropWhile isFlag).head?.bind fun letter =>
    (Kind.ofLetter? letter).map fun kind =>
      let value := ((c :: cs).dropWhile isFlag).tail
      (kind, if value = [] then none else some value)
  | _ => none

/-- What is left of an argument without the option that it ends in: the letters in front of it. -/
def front : Shape → List Text
  | .letters c cs =>
    if isFlag c then [.scalar '-' :: (c :: cs).takeWhile isFlag] else []
  | _ => []

/-- Arguments without the output option and its value. -/
def withoutOutput : List Text → List Text
  | [] => []
  | argument :: rest =>
    if shape argument = .ending then
      argument :: rest
    else
      match valued? argument (shape argument) with
      | some (.output, some _) => front (shape argument) ++ withoutOutput rest
      | some (.output, none) => front (shape argument) ++ withoutOutput rest.tail
      | some (_, none) => argument :: (rest.take 1 ++ withoutOutput rest.tail)
      | _ => argument :: withoutOutput rest
termination_by arguments => arguments.length
decreasing_by
  · exact Nat.lt_succ_self rest.length
  · exact Nat.lt_succ_of_le (List.length_tail ▸ Nat.sub_le rest.length 1)
  · exact Nat.lt_succ_of_le (List.length_tail ▸ Nat.sub_le rest.length 1)
  · exact Nat.lt_succ_self rest.length

/-- The options without an output. -/
def bare (o : Options) : Options := { o with output := none }

theorem bare_flag (o : Options) (kind : Kind) : (o.flag kind).bare = o.bare.flag kind := by
  cases kind <;> rfl

theorem bare_assign {kind : Kind} (h : kind ≠ .output) (o : Options) (value : Text) :
    (o.assign kind value).bare = o.bare.assign kind value := by
  cases kind with
  | output => exact absurd rfl h
  | _ => rfl

theorem bare_assign_output (o : Options) (value : Text) :
    (o.assign .output value).bare = o.bare := rfl

/-! ## 2. One argument -/

section

variable {argument : Text}

theorem collect_nil (steps : Nat) (o : Options) : collect steps o [] = .ok (o, []) := by
  cases steps <;> rfl

theorem collect_of_ending (h : shape argument = .ending) (steps : Nat) (o : Options)
    (rest : List Text) : collect (steps + 1) o (argument :: rest) = .ok (o, rest) := by
  unfold shape at h
  split at h <;> first | rfl | cases h

theorem collect_of_other (h : shape argument = .other) (steps : Nat) (o : Options)
    (rest : List Text) :
    collect (steps + 1) o (argument :: rest)
      = (collect steps o rest).bind fun p => .ok (p.1, argument :: p.2) := by
  unfold shape at h
  split at h
  case h_4 hending hlong hletters =>
    rw [collect]
    · rfl
    · exact hending
    · exact hlong
    · exact hletters
  all_goals cases h

theorem collect_of_long (h : shape argument = .long) (steps : Nat) (o : Options)
    (rest : List Text) :
    collect (steps + 1) o (argument :: rest)
      = (o.long argument rest).bind fun p => collect steps p.1 p.2 := by
  unfold shape at h
  split at h
  case h_2 cs hending =>
    rw [collect]
    · rfl
    · exact hending
  all_goals cases h

theorem collect_of_letters {c : CodePoint} {cs : Text} (h : shape argument = .letters c cs)
    (steps : Nat) (o : Options) (rest : List Text) :
    collect (steps + 1) o (argument :: rest)
      = (o.letters rest (c :: cs)).bind fun p => collect steps p.1 p.2 := by
  unfold shape at h
  split at h
  case h_3 d ds hending hlong =>
    obtain ⟨rfl, rfl⟩ := Shape.letters.inj h
    rw [collect]
    · rfl
    · exact hending
    · exact hlong
  all_goals cases h

/-- What an argument with options does: it sets flags, which has no part in the output, and where it
    ends in an option with a value, that option is set too. -/
inductive Sets (argument : Text) (f : Options → Options) : Option (Kind × Option Text) → Prop
  | flags (collected : ∀ steps o rest,
      collect (steps + 1) o (argument :: rest) = collect steps (f o) rest) : Sets argument f none
  | value (kind : Kind) (given : Option Text)
      (collected : ∀ steps o rest, collect (steps + 1) o (argument :: rest)
        = ((f o).withValue kind given rest).bind fun p => collect steps p.1 p.2) :
      Sets argument f (some (kind, given))

/-- What is left of an argument sets the same flags. -/
def Leaves (left : List Text) (f : Options → Options) : Prop :=
  (left = [] ∧ f = id) ∨ ∃ argument, left = [argument] ∧ Sets argument f none

theorem sets_of_long (h : shape argument = .long) :
    (∀ steps o rest, collect (steps + 1) o (argument :: rest) = .error .badUsage) ∨
      ∃ f : Options → Options, (∀ o, (f o).bare = f o.bare) ∧
        Sets argument f (valued? argument .long) ∧
        (valued? argument .long ≠ none → Leaves (front .long) f) := by
  have hcollect := collect_of_long h
  unfold long at hcollect
  unfold valued?
  cases hkind : Kind.ofName? (nameAndValue argument).1 with
  | none =>
    left
    simp only [hkind] at hcollect
    exact hcollect
  | some kind =>
    simp only [hkind] at hcollect
    by_cases htakes : kind.takesValue = true
    · simp only [htakes, if_true] at hcollect
      refine .inr ⟨id, fun o => rfl, ?_, fun _ => .inl ⟨rfl, rfl⟩⟩
      simp only [Option.bind_some, htakes, if_true]
      exact .value kind _ hcollect
    · simp only [htakes, Bool.false_eq_true, if_false] at hcollect
      by_cases hvalue : (nameAndValue argument).2.isSome = true
      · left
        simp only [hvalue, if_true] at hcollect
        exact hcollect
      · simp only [hvalue, Bool.false_eq_true, if_false] at hcollect
        refine .inr ⟨fun o => o.flag kind, fun o => bare_flag o kind, ?_, ?_⟩
        · simp only [Option.bind_some, htakes, Bool.false_eq_true, if_false]
          exact .flags hcollect
        · simp [htakes]

end

/-- The options with the flags of some letters set. -/
def flagged (o : Options) (letters : Text) : Options :=
  letters.foldl (fun o c => ((Kind.ofLetter? c).map o.flag).getD o) o

theorem bare_flagged (o : Options) (letters : Text) :
    (o.flagged letters).bare = o.bare.flagged letters := by
  unfold flagged
  induction letters generalizing o with
  | nil => rfl
  | cons c letters ih =>
    rw [List.foldl_cons, List.foldl_cons, ih]
    cases Kind.ofLetter? c with
    | none => rfl
    | some kind =>
      simp only [Option.map_some, Option.getD_some]
      rw [bare_flag]

theorem exists_of_isFlag {c : CodePoint} (h : isFlag c = true) :
    ∃ kind, Kind.ofLetter? c = some kind ∧ kind.takesValue = false := by
  unfold isFlag at h
  cases hkind : Kind.ofLetter? c with
  | none =>
    rw [hkind] at h
    cases h
  | some kind =>
    rw [hkind] at h
    exact ⟨kind, rfl, by simpa using h⟩

/-- The letters in front are flags, and the option behind them has a value. -/
theorem letters_append {flags : Text} (hflags : ∀ c ∈ flags, isFlag c = true) (o : Options)
    (arguments : List Text) (rest : Text) :
    o.letters arguments (flags ++ rest) = (o.flagged flags).letters arguments rest := by
  induction flags generalizing o with
  | nil => rfl
  | cons c flags ih =>
    obtain ⟨hc, hflags⟩ := List.forall_mem_cons.mp hflags
    obtain ⟨kind, hkind, htakes⟩ := exists_of_isFlag hc
    have hset : o.flagged (c :: flags) = (o.flag kind).flagged flags := by
      simp [flagged, hkind]
    rw [List.cons_append, letters, hset, ← ih hflags]
    simp [hkind, htakes]

/-- Letters of flags alone set these flags. -/
theorem sets_of_flags {c : CodePoint} {cs : Text} (h : ∀ d ∈ c :: cs, isFlag d = true) :
    Sets (.scalar '-' :: c :: cs) (fun o => o.flagged (c :: cs)) none := by
  have hdash : c ≠ .scalar '-' := by
    intro heq
    have hflag := h c List.mem_cons_self
    rw [heq] at hflag
    cases hflag
  have hshape : shape (.scalar '-' :: c :: cs) = .letters c cs := by
    unfold shape
    simp [hdash]
  refine .flags fun steps o rest => ?_
  have hletters := letters_append h o rest []
  rw [List.append_nil] at hletters
  rw [collect_of_letters hshape, hletters]
  rfl

theorem leaves_front (c : CodePoint) (cs : Text) :
    Leaves (front (.letters c cs)) fun o => o.flagged ((c :: cs).takeWhile isFlag) := by
  by_cases hc : isFlag c = true
  · rw [front, if_pos hc, List.takeWhile_cons_of_pos hc]
    refine .inr ⟨_, rfl, sets_of_flags (List.forall_mem_cons.mpr ⟨hc, ?_⟩)⟩
    exact fun d hd => List.all_eq_true.mp List.all_takeWhile d hd
  · rw [front, if_neg hc, List.takeWhile_cons_of_neg hc]
    exact .inl ⟨rfl, rfl⟩

theorem sets_of_letters {argument : Text} {c : CodePoint} {cs : Text}
    (h : shape argument = .letters c cs) :
    (∀ steps o rest, collect (steps + 1) o (argument :: rest) = .error .badUsage) ∨
      ∃ f : Options → Options, (∀ o, (f o).bare = f o.bare) ∧
        Sets argument f (valued? argument (.letters c cs)) ∧ Leaves (front (.letters c cs)) f := by
  have hflags : ∀ d ∈ (c :: cs).takeWhile isFlag, isFlag d = true := fun d hd =>
    List.all_eq_true.mp List.all_takeWhile d hd
  have hcollect (steps : Nat) (o : Options) (rest : List Text) :
      collect (steps + 1) o (argument :: rest)
        = ((o.flagged ((c :: cs).takeWhile isFlag)).letters rest ((c :: cs).dropWhile isFlag)).bind
          fun p => collect steps p.1 p.2 := by
    rw [collect_of_letters h, ← letters_append hflags, List.takeWhile_append_dropWhile]
  have hbehind := List.head?_dropWhile_not isFlag (c :: cs)
  cases htail : (c :: cs).dropWhile isFlag with
  | nil =>
    have hvalued : valued? argument (.letters c cs) = none := by
      rw [valued?, htail]
      rfl
    rw [htail] at hcollect
    rw [hvalued]
    exact .inr ⟨fun o => o.flagged _, fun o => bare_flagged o _, .flags hcollect, leaves_front c cs⟩
  | cons d value =>
    rw [htail] at hcollect hbehind
    simp only [letters] at hcollect
    cases hkind : Kind.ofLetter? d with
    | none =>
      left
      simp only [hkind] at hcollect
      exact hcollect
    | some kind =>
      have htakes : kind.takesValue = true := by
        simpa [isFlag, hkind] using hbehind
      simp only [hkind, htakes, if_true] at hcollect
      have hvalued : valued? argument (.letters c cs)
          = some (kind, if value = [] then none else some value) := by
        rw [valued?, htail, List.head?_cons, Option.bind_some, hkind]
        rfl
      rw [hvalued]
      exact .inr ⟨_, fun o => bare_flagged o _, .value kind _ hcollect, leaves_front c cs⟩

/-- **What an argument with options does**, unless it is refused. -/
theorem sets_or_refused {argument : Text} (hending : shape argument ≠ .ending)
    (hother : shape argument ≠ .other) :
    (∀ steps o rest, collect (steps + 1) o (argument :: rest) = .error .badUsage) ∨
      ∃ f : Options → Options, (∀ o, (f o).bare = f o.bare) ∧
        Sets argument f (valued? argument (shape argument)) ∧
        (valued? argument (shape argument) ≠ none → Leaves (front (shape argument)) f) := by
  cases hshape : shape argument with
  | ending => exact absurd hshape hending
  | other => exact absurd hshape hother
  | long => exact sets_of_long hshape
  | letters c cs =>
    rcases sets_of_letters hshape with hrefused | ⟨f, hf, hsets, hleaves⟩
    · exact .inl hrefused
    · exact .inr ⟨f, hf, hsets, fun _ => hleaves⟩

/-! ## 3. All arguments -/

/-- What is left of an argument sets the flags in front of what stands behind it. -/
theorem collect_append_of_leaves {left rest : List Text} {f : Options → Options}
    (hleft : Leaves left f) {o : Options} {r : Except BadUsage (Options × List Text)}
    (h : ∀ steps, rest.length ≤ steps → collect steps (f o) rest = r) {steps : Nat}
    (hsteps : (left ++ rest).length ≤ steps) : collect steps o (left ++ rest) = r := by
  rcases hleft with ⟨rfl, rfl⟩ | ⟨argument, rfl, ⟨hcollect⟩⟩
  · exact h steps hsteps
  · obtain ⟨steps, rfl⟩ : ∃ k, steps = k + 1 := Nat.exists_eq_add_of_le' (by simp at hsteps; omega)
    rw [List.singleton_append, hcollect]
    exact h steps (by simpa using hsteps)

/-- A value stands in the argument of its option, or it is the next argument. -/
theorem exists_of_withValue {o : Options} {kind : Kind} {given : Option Text} {rest : List Text}
    {p : Options × List Text} (h : o.withValue kind given rest = .ok p) :
    ∃ value next, (given = some value ∧ next = [] ∨ given = none ∧ next = [value]) ∧
      rest = next ++ p.2 ∧ p.1 = o.assign kind value := by
  unfold withValue at h
  split at h <;> cases h
  · exact ⟨_, [], .inl ⟨rfl, rfl⟩, rfl, rfl⟩
  · exact ⟨_, [_], .inr ⟨rfl, rfl⟩, rfl, rfl⟩

/-- Within some steps, the output can be taken out of arguments. -/
def TakenOut (steps : Nat) : Prop :=
  ∀ ⦃o o' : Options⦄ ⦃arguments others : List Text⦄, arguments.length ≤ steps →
    collect steps o arguments = .ok (o', others) →
    ∀ steps', (withoutOutput arguments).length ≤ steps' →
      collect steps' o.bare (withoutOutput arguments) = .ok (o'.bare, others)

section

variable {steps : Nat} (ih : TakenOut steps) {argument : Text} (hshape : shape argument ≠ .ending)
  {f : Options → Options} (hf : ∀ o, (f o).bare = f o.bare) {rest others : List Text}
  {o o' : Options} (hrest : rest.length ≤ steps) {steps' : Nat}
  (hsteps' : (withoutOutput (argument :: rest)).length ≤ steps')
  (h : collect (steps + 1) o (argument :: rest) = .ok (o', others))

include ih hshape hf hrest hsteps' h

theorem collect_withoutOutput_flags (hvalued : valued? argument (shape argument) = none)
    (hsets : ∀ steps o rest, collect (steps + 1) o (argument :: rest) = collect steps (f o) rest) :
    collect steps' o.bare (withoutOutput (argument :: rest)) = .ok (o'.bare, others) := by
  have hleft : withoutOutput (argument :: rest) = argument :: withoutOutput rest := by
    rw [withoutOutput, if_neg hshape, hvalued]
  rw [hleft] at hsteps' ⊢
  obtain ⟨k, rfl⟩ : ∃ k, steps' = k + 1 := Nat.exists_eq_add_of_le' (Nat.le_of_add_left_le hsteps')
  rw [hsets] at h ⊢
  rw [← hf]
  exact ih hrest h k (Nat.le_of_succ_le_succ hsteps')

theorem collect_withoutOutput_value {kind : Kind} {given : Option Text}
    (hvalued : valued? argument (shape argument) = some (kind, given))
    (hsets : ∀ steps o rest, collect (steps + 1) o (argument :: rest)
      = ((f o).withValue kind given rest).bind fun p => collect steps p.1 p.2)
    (hfront : Leaves (front (shape argument)) f) :
    collect steps' o.bare (withoutOutput (argument :: rest)) = .ok (o'.bare, others) := by
  rw [hsets] at h
  cases hwith : (f o).withValue kind given rest with
  | error e =>
    rw [hwith] at h
    cases h
  | ok p =>
    obtain ⟨value, next, hgiven, rfl, hassign⟩ := exists_of_withValue hwith
    obtain ⟨o₁, behind⟩ := p
    obtain rfl : o₁ = (f o).assign kind value := hassign
    rw [hwith] at h
    have hbehind : ∀ k, (withoutOutput behind).length ≤ k →
        collect k ((f o).assign kind value).bare (withoutOutput behind) = .ok (o'.bare, others) :=
      ih (Nat.le_trans (by simp) hrest) h
    by_cases hkind : kind = .output
    · have hleft : withoutOutput (argument :: (next ++ behind))
          = front (shape argument) ++ withoutOutput behind := by
        rw [withoutOutput, if_neg hshape, hvalued, hkind]
        rcases hgiven with ⟨rfl, rfl⟩ | ⟨rfl, rfl⟩ <;> rfl
      rw [hleft] at hsteps' ⊢
      refine collect_append_of_leaves hfront (fun k hk => ?_) hsteps'
      rw [← hf, ← bare_assign_output (f o) value, ← hkind]
      exact hbehind k hk
    · have hleft : withoutOutput (argument :: (next ++ behind))
          = argument :: (next ++ withoutOutput behind) := by
        rw [withoutOutput, if_neg hshape, hvalued]
        rcases hgiven with ⟨rfl, rfl⟩ | ⟨rfl, rfl⟩ <;> cases kind <;>
          first | rfl | exact absurd rfl hkind
      have htaken : (f o.bare).withValue kind given (next ++ withoutOutput behind)
          = .ok ((f o.bare).assign kind value, withoutOutput behind) := by
        rcases hgiven with ⟨rfl, rfl⟩ | ⟨rfl, rfl⟩ <;> rfl
      rw [hleft] at hsteps' ⊢
      obtain ⟨k, rfl⟩ : ∃ k, steps' = k + 1 :=
        Nat.exists_eq_add_of_le' (Nat.le_of_add_left_le hsteps')
      rw [hsets, htaken, ← hf, ← bare_assign hkind]
      exact hbehind k (by simp at hsteps'; omega)

end

/-- **The arguments without the output are read as the arguments are**, but for the output. -/
theorem takenOut (steps : Nat) : TakenOut steps := by
  intro o o' arguments others hsteps h steps' hsteps'
  induction steps generalizing o o' arguments others steps' with
  | zero =>
    obtain rfl : arguments = [] := List.length_eq_zero_iff.mp (Nat.le_zero.mp hsteps)
    cases h
    rw [withoutOutput, collect_nil]
  | succ steps ih =>
    have ih : TakenOut steps := fun o o' arguments others hsteps h steps' hsteps' =>
      ih hsteps h steps' hsteps'
    cases arguments with
    | nil =>
      cases h
      rw [withoutOutput, collect_nil]
    | cons argument rest =>
      have hrest : rest.length ≤ steps := Nat.le_of_succ_le_succ hsteps
      by_cases hending : shape argument = .ending
      · have hall : withoutOutput (argument :: rest) = argument :: rest := by
          rw [withoutOutput, if_pos hending]
        rw [hall] at hsteps' ⊢
        obtain ⟨k, rfl⟩ : ∃ k, steps' = k + 1 :=
          Nat.exists_eq_add_of_le' (Nat.le_of_add_left_le hsteps')
        rw [collect_of_ending hending] at h ⊢
        cases h
        rfl
      by_cases hother : shape argument = .other
      · have hkept : withoutOutput (argument :: rest) = argument :: withoutOutput rest := by
          rw [withoutOutput, if_neg hending, hother]
          rfl
        rw [hkept] at hsteps' ⊢
        obtain ⟨k, rfl⟩ : ∃ k, steps' = k + 1 :=
          Nat.exists_eq_add_of_le' (Nat.le_of_add_left_le hsteps')
        rw [collect_of_other hother] at h ⊢
        cases hcollect : collect steps o rest with
        | error e =>
          rw [hcollect] at h
          cases h
        | ok p =>
          rw [hcollect] at h
          cases h
          rw [ih hrest hcollect k (Nat.le_of_succ_le_succ hsteps')]
          rfl
      rcases sets_or_refused hending hother with hrefused | ⟨f, hf, hsets, hleaves⟩
      · rw [hrefused] at h
        cases h
      · cases hvalued : valued? argument (shape argument) with
        | none =>
          rw [hvalued] at hsets
          obtain ⟨hflags⟩ := hsets
          exact collect_withoutOutput_flags ih hending hf hrest hsteps' h hvalued hflags
        | some v =>
          rw [hvalued] at hsets
          obtain - | ⟨kind, given, hvalue⟩ := hsets
          exact collect_withoutOutput_value ih hending hf hrest hsteps' h hvalued hvalue
            (hleaves (by simp [hvalued]))

theorem parseArguments_withoutOutput {arguments : List Text} {o : Options}
    (h : parseArguments arguments = .ok o) :
    parseArguments (withoutOutput arguments) = .ok o.bare := by
  unfold parseArguments at h ⊢
  cases hcollect : collect arguments.length {} arguments with
  | error e =>
    rw [hcollect] at h
    cases h
  | ok p =>
    obtain ⟨o₁, trees⟩ := p
    have hbare := takenOut _ (Nat.le_refl _) hcollect _ (Nat.le_refl _)
    have hempty : bare {} = {} := rfl
    rw [hempty] at hbare
    rw [hcollect] at h
    rw [hbare]
    match trees with
    | [] =>
      cases h
      rfl
    | [tree] =>
      cases h
      rfl
    | tree :: other :: trees => cases h

theorem parse_eq_ok_iff {arguments : List Text} {o : Options} :
    parse arguments = .ok o ↔
      parseArguments arguments = .ok o ∧ o.paths.all FilePath.isEncodable = true := by
  unfold parse
  cases parseArguments arguments with
  | error e =>
    constructor
    · intro h
      cases h
    · intro h
      cases h.1
  | ok o₁ =>
    by_cases hpaths : o₁.paths.all FilePath.isEncodable = true
    · simp only [bind, Except.bind, hpaths, if_true]
      constructor
      · intro h
        cases h
        exact ⟨rfl, hpaths⟩
      · exact fun h => h.1
    · simp only [bind, Except.bind, hpaths]
      constructor
      · intro h
        cases h
      · intro h
        cases h.1
        exact absurd h.2 hpaths

/-- **The arguments without the output ask for the same, but for the output.** -/
theorem parse_withoutOutput {arguments : List Text} {o : Options} (h : parse arguments = .ok o) :
    parse (withoutOutput arguments) = .ok o.bare := by
  obtain ⟨harguments, hpaths⟩ := parse_eq_ok_iff.mp h
  refine parse_eq_ok_iff.mpr ⟨parseArguments_withoutOutput harguments, ?_⟩
  rw [List.all_eq_true] at hpaths ⊢
  intro path hpath
  refine hpaths path ?_
  simp only [paths, bare, List.mem_filterMap, List.mem_cons, List.not_mem_nil, or_false] at hpath ⊢
  obtain ⟨path?, hpath?, heq⟩ := hpath
  rcases hpath? with rfl | rfl | rfl
  · exact ⟨_, .inl rfl, heq⟩
  · exact ⟨_, .inr (.inl rfl), heq⟩
  · cases heq

/-- Letters and long names lose the output, but not a value that looks like it. -/
example :
    withoutOutput (["-vo", "x", "--output=y", "-c", "-o", "-oz", "t", "--", "-o"].map Text.ofString)
      = ["-v", "-c", "-o", "t", "--", "-o"].map Text.ofString := by
  decide +kernel

end TemplateTree.Options
