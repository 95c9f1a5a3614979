import TemplateTree.CommandLine.Run
import TemplateTree.Proofs.Code.Characters
import TemplateTree.Proofs.CommandLine.Arguments
import TemplateTree.Proofs.Docstring
import TemplateTree.Proofs.FileSystem
import TemplateTree.Proofs.Text.Terminal

/-!
# What a run leaves behind

A run compiles a tree document and prints the text that comes of it, or writes it to a file. This file
compares a run with the run without its output.

* `Produces`: the text that a run is for, said without the run; a run finds it exactly if there is one
  (`produce_eq_ok_iff`).
* `Produces.encodable_iff`, `Produces.kept_iff`: the text has bytes, and is printed as it is, unless it
  shows the path of the tree and the path has none, or is not. So the run can print its text unless it
  shows a path with a control sequence or a surrogate (`Produces.printable_iff`).
* `deliver_cases`: delivering writes one file, or none.
* `run_allOrNothing_iff`: a run that fails leaves every file as it was, and one that succeeds prints
  nothing and writes, to its output alone, what is printed without the output (`AllOrNothing`). This holds
  for every run that can print its text; a run that cannot prints another text, or none.
-/

namespace TemplateTree

/-! ## 1. The text of a run -/

namespace CommandLine

/-- The settings of a run: those in the file that is named, or the defaults. -/
def HasSettings (fs : FileSystem) (o : Options) (s : Settings) : Prop :=
  (o.config = none ∧ s = {}) ∨
    ∃ path, o.config = some path ∧ Settings.load (fs.content path) = .ok s

/-- The file at a path is the document of a tree. -/
def HoldsTree (fs : FileSystem) (s : Settings) (path : FilePath) (e : Expr) : Prop :=
  ∃ bytes chars, fs.content path = .bytes bytes ∧ decodeFile? bytes = some chars ∧
    Document.parse s (Text.ofChars chars) = .ok e

/-- The text that a run is for: the code of the tree and a line end, or the module that names the path
    of the tree as its source. -/
inductive Produces (fs : FileSystem) (o : Options) (tree : FilePath) : Text → Prop
  | expression {s : Settings} {e : Expr} {code : Text} (settings : HasSettings fs o s)
      (holds : HoldsTree fs s tree e) (wanted : o.expression = true)
      (compiled : e.compile s.names = .ok code) : Produces fs o tree (code ++ "\n")
  | module {s : Settings} {e : Expr} {t : Template} {text : Text} (settings : HasSettings fs o s)
      (holds : HoldsTree fs s tree e) (wanted : o.expression = false)
      (compiled : Template.compile s e (.ofText tree.text) = .ok t)
      (rendered : t.render = .ok text) : Produces fs o tree text

section

variable {α β : Type} {log : List LogRecord}

theorem bind_eq_ok_iff {x : Work α} {f : α → Work β} {b : β} :
    ((x >>= f).run.run log).1 = .ok b
      ↔ ∃ a, (x.run.run log).1 = .ok a ∧ ((f a).run.run (x.run.run log).2).1 = .ok b := by
  have hrun : (x >>= f).run.run log = (ExceptT.bindCont f (x.run.run log).1).run (x.run.run log).2 :=
    rfl
  rw [hrun]
  cases (x.run.run log).1 with
  | error e =>
    constructor
    · intro h
      cases h
    · intro ⟨a, h, _⟩
      cases h
  | ok a =>
    constructor
    · intro h
      exact ⟨a, rfl, h⟩
    · intro ⟨a', h, hb⟩
      cases h
      exact hb

theorem lift_eq_ok_iff {r : Except Stop α} {a : α} :
    ((lift r).run.run log).1 = .ok a ↔ r = .ok a :=
  Iff.rfl

theorem settings_eq_ok_iff {fs : FileSystem} {o : Options} {s : Settings} :
    ((settings fs o).run.run log).1 = .ok s ↔ HasSettings fs o s := by
  unfold settings HasSettings
  cases o.config with
  | none =>
    constructor
    · intro h
      exact .inl ⟨rfl, (Except.ok.inj h).symm⟩
    · intro h
      rcases h with ⟨-, rfl⟩ | ⟨path, h, -⟩
      · rfl
      · cases h
  | some path =>
    rw [lift_eq_ok_iff, mapError_eq_ok_iff]
    constructor
    · intro h
      exact .inr ⟨path, rfl, h⟩
    · intro h
      rcases h with ⟨h, -⟩ | ⟨path', h, hload⟩
      · cases h
      · cases h
        exact hload

theorem readTree_eq_ok_iff {fs : FileSystem} {s : Settings} {path : FilePath} {e : Expr} :
    ((readTree fs s path).run.run log).1 = .ok e ↔ HoldsTree fs s path e := by
  unfold readTree HoldsTree
  cases fs.content path with
  | bytes bytes =>
    cases hdecode : decodeFile? bytes with
    | none =>
      constructor
      · intro h
        dsimp only at h
        rw [hdecode] at h
        cases h
      · intro ⟨bytes', chars, hbytes, hchars, _⟩
        cases hbytes
        rw [hdecode] at hchars
        cases hchars
    | some chars =>
      dsimp only
      rw [hdecode, bind_eq_ok_iff]
      constructor
      · intro ⟨_, _, h⟩
        rw [lift_eq_ok_iff, mapError_eq_ok_iff] at h
        exact ⟨bytes, chars, rfl, hdecode, h⟩
      · intro ⟨bytes', chars', hbytes, hchars, h⟩
        cases hbytes
        rw [hdecode] at hchars
        cases hchars
        refine ⟨(), rfl, ?_⟩
        rw [lift_eq_ok_iff, mapError_eq_ok_iff]
        exact h
  | _ =>
    constructor
    · intro h
      cases h
    · intro ⟨_, _, h, _⟩
      cases h

theorem compile_eq_ok_iff {s : Settings} {e : Expr} {code : Text} :
    ((compile s e).run.run log).1 = .ok code ↔ e.compile s.names = .ok code := by
  unfold compile
  rw [bind_eq_ok_iff]
  constructor
  · intro ⟨_, _, h⟩
    rw [bind_eq_ok_iff] at h
    obtain ⟨code', hcode, h⟩ := h
    rw [lift_eq_ok_iff, mapError_eq_ok_iff] at hcode
    cases h
    exact hcode
  · intro h
    refine ⟨(), rfl, ?_⟩
    rw [bind_eq_ok_iff]
    refine ⟨code, ?_, rfl⟩
    rw [lift_eq_ok_iff, mapError_eq_ok_iff]
    exact h

/-- **A run finds the text that it is for**, if there is one. -/
theorem produce_eq_ok_iff {fs : FileSystem} {o : Options} {tree : FilePath} {text : Text} :
    ((produce fs o tree).run.run log).1 = .ok text ↔ Produces fs o tree text := by
  unfold produce
  constructor
  · intro h
    obtain ⟨s, hs, h⟩ := bind_eq_ok_iff.mp h
    obtain ⟨e, he, h⟩ := bind_eq_ok_iff.mp h
    obtain ⟨code, hcode, h⟩ := bind_eq_ok_iff.mp h
    rw [settings_eq_ok_iff] at hs
    rw [readTree_eq_ok_iff] at he
    rw [compile_eq_ok_iff] at hcode
    by_cases hexpression : o.expression = true
    · rw [if_pos hexpression] at h
      cases h
      exact .expression hs he hexpression hcode
    · rw [if_neg hexpression, lift_eq_ok_iff, mapError_eq_ok_iff] at h
      exact .module hs he (by simpa using hexpression) (Template.compile_eq_ok hcode _) h
  · intro h
    cases h with
    | expression hs he hexpression hcode =>
      refine bind_eq_ok_iff.mpr ⟨_, settings_eq_ok_iff.mpr hs, ?_⟩
      refine bind_eq_ok_iff.mpr ⟨_, readTree_eq_ok_iff.mpr he, ?_⟩
      refine bind_eq_ok_iff.mpr ⟨_, compile_eq_ok_iff.mpr hcode, ?_⟩
      rw [if_pos hexpression]
      rfl
    | @module s e t _ hs he hexpression ht hrender =>
      cases hcode : e.compile s.names with
      | error f =>
        rw [Template.compile, hcode] at ht
        cases ht
      | ok code =>
        rw [Template.compile_eq_ok hcode] at ht
        cases ht
        refine bind_eq_ok_iff.mpr ⟨_, settings_eq_ok_iff.mpr hs, ?_⟩
        refine bind_eq_ok_iff.mpr ⟨_, readTree_eq_ok_iff.mpr he, ?_⟩
        refine bind_eq_ok_iff.mpr ⟨_, compile_eq_ok_iff.mpr hcode, ?_⟩
        rw [if_neg (by simp [hexpression]), lift_eq_ok_iff, mapError_eq_ok_iff]
        exact hrender

end

/-! ## 2. The characters of the text -/

/-- The settings of a run passed their validation. -/
theorem HasSettings.exists_validate {fs : FileSystem} {o : Options} {s : Settings}
    (h : HasSettings fs o s) : ∃ v, Settings.validate v = .ok s := by
  rcases h with ⟨-, rfl⟩ | ⟨path, -, hload⟩
  · exact ⟨.mapping [], rfl⟩
  · unfold Settings.load at hload
    split at hload <;> try cases hload
    split at hload <;> try cases hload
    unfold Settings.ofFileValue at hload
    split at hload
    · exact ⟨_, mapError_eq_ok_iff.mp hload⟩
    · split at hload
      · exact ⟨_, mapError_eq_ok_iff.mp hload⟩
      · cases hload

/-- A module is visible around the line that names its source. -/
theorem exists_visible_around {entrypoint runtime code : Text} (hentry : Text.Visible entrypoint)
    (hruntime : Text.Visible runtime) (hcode : Text.Visible code) :
    ∃ front back, Text.Visible front ∧ Text.Visible back ∧
      ∀ line, Template.opening "Generated by tplc. Do not edit." line entrypoint runtime
        ++ code.hang Template.margin ++ Template.closing = front ++ (line ++ back) := by
  have hfront : Text.Visible (Text.ofString "\"\"\"" ++ Text.ofString "Generated by tplc. Do not edit."
      ++ Text.ofString "\n") := by decide
  have hdef : Text.Visible "\"\"\"\n\n\ndef " := by decide
  have hhead := (((hdef.append hentry).append (t := "(") (by decide)).append hruntime).append
    (t := "):\n    return (\n") (by decide)
  have hhang : Text.Visible (code.hang Template.margin) := Text.visible_hang (by decide) hcode
  have hback := (hhead.append hhang).append (t := Template.closing) (by decide)
  refine ⟨_, _, hfront, hback, fun line => ?_⟩
  simp only [Template.opening, List.append_assoc]

/-- Only the path of the tree can bring control characters or surrogates into the text of a run, and
    only where it is named. -/
theorem Produces.visible_around {fs : FileSystem} {o : Options} {tree : FilePath} {text : Text}
    (h : Produces fs o tree text) :
    Text.Visible text ∧ (o.expression = true ∨ tree.text = []) ∨
      o.expression = false ∧ ∃ front back, Text.Visible front ∧ Text.Visible back ∧
        text = front ++ (tree.text ++ newline :: back) := by
  cases h with
  | expression hs _ hexpression hcode =>
    obtain ⟨v, hv⟩ := hs.exists_validate
    obtain ⟨hnames, -⟩ := Settings.valid_of_validate hv
    obtain ⟨-, -, -, rfl⟩ := Expr.compile_eq_ok_iff.mp hcode
    exact .inl ⟨(Expr.visible_code hnames _).append (by decide), .inl hexpression⟩
  | @module s e t _ hs _ hexpression ht hrender =>
    obtain ⟨v, hv⟩ := hs.exists_validate
    obtain ⟨hnames, -⟩ := Settings.valid_of_validate hv
    obtain ⟨entrypoint, hentry, hname⟩ := Settings.entrypoint_of_validate hv
    cases hcode : e.compile s.names with
    | error f =>
      rw [Template.compile, hcode] at ht
      cases ht
    | ok code =>
      rw [Template.compile_eq_ok hcode] at ht
      cases ht
      obtain ⟨-, -, -, rfl⟩ := Expr.compile_eq_ok_iff.mp hcode
      have htext := Template.render_ofCode hentry (e.code s.names) (some tree.text)
      rw [Template.labelValue, hrender] at htext
      obtain ⟨front, back, hfront, hback, hmodule⟩ := exists_visible_around
        (Text.visible_of_isName hname) (Text.visible_of_isName hnames.runtime)
        (Expr.visible_code hnames e)
      rw [Except.ok.inj htext, hmodule]
      cases hlabel : tree.text with
      | nil => exact .inl ⟨hfront.append hback, .inr rfl⟩
      | cons c label =>
        have hsource : Text.Visible "Source: " := by decide
        have hline : Template.labelLine (some (c :: label))
            = Text.ofString "Source: " ++ (c :: label) ++ [newline] := rfl
        refine .inr ⟨hexpression, _, _, hfront.append hsource, hback, ?_⟩
        rw [hline]
        simp only [List.append_assoc, List.singleton_append]

/-- A run can print its text: the text shows no path, or a path without control sequences and
    surrogates. -/
def Printable (o : Options) (tree : FilePath) : Prop :=
  o.expression = true ∨ (tree.text.Encodable ∧ Terminal.text tree.text = tree.text)

instance (o : Options) (tree : FilePath) : Decidable (Printable o tree) :=
  inferInstanceAs (Decidable (_ ∨ _))

theorem encodable_of_visible {t : Text} (h : t.Visible) : t.Encodable := by
  intro c hc
  have hvisible := h c hc
  simp only [Text.isVisible, Bool.or_eq_true, Bool.and_eq_true, beq_iff_eq] at hvisible
  rcases hvisible with rfl | ⟨-, hscalar⟩
  · rfl
  · exact hscalar

theorem escapeMark_not_mem {t : Text} (h : t.Visible) : Terminal.escapeMark ∉ t := by
  intro hmem
  exact absurd (h _ hmem) (by decide)

/-- **The text of a run has bytes unless it shows a path that has none.** -/
theorem Produces.encodable_iff {fs : FileSystem} {o : Options} {tree : FilePath} {text : Text}
    (h : Produces fs o tree text) : text.Encodable ↔ o.expression = true ∨ tree.text.Encodable := by
  rcases h.visible_around with ⟨hvisible, hpath⟩ | ⟨hexpression, front, back, hfront, hback, rfl⟩
  · refine iff_of_true (encodable_of_visible hvisible) (hpath.imp_right fun hempty => ?_)
    rw [hempty]
    exact List.forall_mem_nil _
  · rw [hexpression, or_iff_right Bool.false_ne_true]
    unfold Text.Encodable
    rw [List.forall_mem_append, List.forall_mem_append, List.forall_mem_cons]
    exact ⟨fun h => h.2.1, fun h => ⟨encodable_of_visible hfront, h, rfl, encodable_of_visible hback⟩⟩

/-- **The text of a run is printed as it is unless it shows a path that is not.** -/
theorem Produces.kept_iff {fs : FileSystem} {o : Options} {tree : FilePath} {text : Text}
    (h : Produces fs o tree text) :
    Terminal.text text = text ↔ o.expression = true ∨ Terminal.text tree.text = tree.text := by
  rw [Terminal.text_eq_self_iff, Terminal.text_eq_self_iff]
  rcases h.visible_around with ⟨hvisible, hpath⟩ | ⟨hexpression, front, back, hfront, hback, rfl⟩
  · refine iff_of_true (Terminal.holdsSequence_of_not_mem (escapeMark_not_mem hvisible))
      (hpath.imp_right fun hempty => ?_)
    rw [hempty]
    rfl
  · rw [hexpression, or_iff_right Bool.false_ne_true,
      Terminal.holdsSequence_append (escapeMark_not_mem hfront), Terminal.holdsSequence_append_newline,
      Terminal.holdsSequence_of_not_mem (escapeMark_not_mem hback), Bool.or_false]

/-- **The text of a run has bytes and is printed as it is exactly if the run can print it.** -/
theorem Produces.printable_iff {fs : FileSystem} {o : Options} {tree : FilePath} {text : Text}
    (h : Produces fs o tree text) :
    Printable o tree ↔ text.Encodable ∧ Terminal.text text = text := by
  rw [h.encodable_iff, h.kept_iff]
  exact or_and_left

/-! ## 3. The end of a run -/

theorem Produces.exists_run {fs : FileSystem} {o : Options} {tree : FilePath} {text : Text}
    (h : Produces fs o tree text) : ∃ log, (produce fs o tree).run.run [] = (.ok text, log) := by
  have hok : ((produce fs o tree).run.run []).1 = .ok text := produce_eq_ok_iff.mpr h
  exact ⟨_, Prod.ext hok rfl⟩

section

variable {fs : FileSystem} (debug : Bool) {o : Options} {tree : FilePath} {text : Text}
  (hversion : o.version = false) (htree : o.tree = some tree)

include hversion htree

/-- A run without a text fails and changes nothing. -/
theorem runOptions_of_stop (h : ∀ text, ¬ Produces fs o tree text) :
    (runOptions fs debug o).ending.exitCode ≠ 0 ∧ (runOptions fs debug o).files = fs := by
  have hproduce : ∀ text, ((produce fs o tree).run.run []).1 ≠ .ok text := fun text hok =>
    h text (produce_eq_ok_iff.mp hok)
  cases hrun : (produce fs o tree).run.run [] with
  | mk result log =>
    rw [hrun] at hproduce
    simp only [runOptions, hversion, htree, hrun, Bool.false_eq_true, if_false]
    match result with
    | .error (.told message) => exact ⟨Nat.one_ne_zero, rfl⟩
    | .error (.crash c) => exact ⟨Nat.one_ne_zero, rfl⟩
    | .ok text => exact absurd rfl (hproduce text)

/-- A run without an output prints its text, if it has bytes. -/
theorem runOptions_of_print (houtput : o.output = none) (h : Produces fs o tree text) :
    (runOptions fs debug o).files = fs ∧
      ((runOptions fs debug o).ending.exitCode = 0 ↔ text.Encodable) ∧
      (text.Encodable → (runOptions fs debug o).output = Terminal.text text) := by
  obtain ⟨log, hrun⟩ := h.exists_run
  have hbytes : (encodeFile? (Terminal.text text)).isSome = true ↔ text.Encodable :=
    (isSome_encodeFile?_iff _).trans (Terminal.encodable_text_iff text)
  simp only [runOptions, hversion, htree, hrun, houtput, printed, Bool.false_eq_true, if_false]
  by_cases hencodable : text.Encodable
  · rw [if_pos (hbytes.mpr hencodable)]
    exact ⟨rfl, ⟨fun _ => hencodable, fun _ => rfl⟩, fun _ => rfl⟩
  · rw [if_neg (mt hbytes.mp hencodable)]
    exact ⟨rfl, ⟨fun h => absurd h Nat.one_ne_zero, fun h => absurd h hencodable⟩,
      fun h => absurd h hencodable⟩

/-- A run with an output delivers its text there and prints nothing. -/
theorem runOptions_of_deliver {out : FilePath} (houtput : o.output = some out)
    (h : Produces fs o tree text) :
    (runOptions fs debug o).files = (deliver fs out text).1 ∧ (runOptions fs debug o).output = [] ∧
      ((runOptions fs debug o).ending.exitCode = 0 ↔ (deliver fs out text).2 = .ok ()) := by
  obtain ⟨log, hrun⟩ := h.exists_run
  simp only [runOptions, hversion, htree, hrun, houtput, Bool.false_eq_true, if_false]
  cases deliver fs out text with
  | mk files result =>
    cases result with
    | error c => exact ⟨rfl, rfl, ⟨fun h => absurd h Nat.one_ne_zero, fun h => by cases h⟩⟩
    | ok done => exact ⟨rfl, rfl, ⟨fun _ => rfl, fun _ => rfl⟩⟩

end

/-- **Delivering writes the bytes of a text, or leaves every file as it was.** A text without bytes
    leaves the file empty. -/
theorem deliver_cases (fs : FileSystem) (path : FilePath) (text : Text) :
    (deliver fs path text).2 ≠ .ok () ∧ (∀ names, (deliver fs path text).1.file? names = fs.file? names) ∨
      ((deliver fs path text).2 = .ok () ↔ text.Encodable) ∧
        fs.Written (deliver fs path text).1 path ((encodeFile? text).getD []) := by
  have hsame := FileSystem.file?_provideDirectories fs path.parent path.parent.names.length
  unfold deliver
  cases hmade : fs.provideDirectories path.parent path.parent.names.length with
  | mk made result =>
    rw [hmade] at hsame
    cases result with
    | error e => exact .inl ⟨by simp, hsame⟩
    | ok done =>
      cases hwrite : made.write path ((encodeFile? text).getD []) with
      | error e =>
        simp only [hwrite]
        exact .inl ⟨by simp, hsame⟩
      | ok written =>
        simp only [hwrite]
        obtain ⟨names, hfound, hother⟩ := FileSystem.written_of_write hwrite
        refine .inr ⟨?_, names, hfound, fun other hne => (hother other hne).trans (hsame other)⟩
        rw [← isSome_encodeFile?_iff]
        split <;> simp_all

/-! ## 4. Runs -/

/-- What a run with some options owes, beside the run without the output. -/
structure AllOrNothing (fs : FileSystem) (o : Options) (tree : FilePath) (r bare : Outcome) :
    Prop where
  /-- A run that fails or has no output leaves every file as it was. -/
  untouched : r.ending.exitCode ≠ 0 ∨ o.output = none →
    ∀ names, r.files.file? names = fs.file? names
  /-- A run that succeeds with an output prints nothing, and writes there, and nowhere else, what is
      printed without the output. -/
  delivered : ∀ out, o.output = some out → r.ending.exitCode = 0 →
    r.output = [] ∧ bare.ending.exitCode = 0 ∧
      ∃ bytes, encodeFile? bare.output = some bytes ∧ fs.Written r.files out bytes
  /-- What is printed without the output is the text of the run, if there is one. -/
  produced : ∀ text, bare.ending.exitCode = 0 ∧ bare.output = text ↔ Produces fs o tree text

theorem produces_bare_iff {fs : FileSystem} {o : Options} {tree : FilePath} {text : Text} :
    Produces fs o.bare tree text ↔ Produces fs o tree text := by
  constructor
  · intro h
    cases h with
    | expression hs he hexpression hcode => exact .expression hs he hexpression hcode
    | module hs he hexpression ht hrender => exact .module hs he hexpression ht hrender
  · intro h
    cases h with
    | expression hs he hexpression hcode => exact .expression hs he hexpression hcode
    | module hs he hexpression ht hrender => exact .module hs he hexpression ht hrender

theorem run_eq {arguments : List Text} {o : Options} (h : Options.parse arguments = .ok o)
    (fs : FileSystem) (debug : Bool) : run fs debug arguments = runOptions fs debug o := by
  rw [run, h]

section

variable {fs : FileSystem} (debug : Bool) {o : Options} {tree : FilePath}
  (hversion : o.version = false) (htree : o.tree = some tree)

include hversion htree

/-- A run without a text owes nothing but to leave the files as they were. -/
theorem allOrNothing_of_stop (h : ∀ text, ¬ Produces fs o tree text) :
    AllOrNothing fs o tree (runOptions fs debug o) (runOptions fs debug o.bare) := by
  obtain ⟨hfails, hfiles⟩ := runOptions_of_stop debug hversion htree h
  obtain ⟨hbare, -⟩ := runOptions_of_stop debug (o := o.bare) hversion htree
    fun text hproduces => h text (produces_bare_iff.mp hproduces)
  refine ⟨fun _ names => by rw [hfiles], fun out _ hzero => absurd hzero hfails, fun text => ?_⟩
  exact ⟨fun hprinted => absurd hprinted.1 hbare, fun hproduces => absurd hproduces (h text)⟩

/-- What is printed without the output. -/
theorem runOptions_bare {text : Text} (h : Produces fs o tree text) :
    ((runOptions fs debug o.bare).ending.exitCode = 0 ↔ text.Encodable) ∧
      (text.Encodable → (runOptions fs debug o.bare).output = Terminal.text text) :=
  (runOptions_of_print debug (o := o.bare) hversion htree rfl (produces_bare_iff.mpr h)).2

theorem allOrNothing_of_printable {text : Text} (h : Produces fs o tree text)
    (hprintable : Printable o tree) :
    AllOrNothing fs o tree (runOptions fs debug o) (runOptions fs debug o.bare) := by
  have hprints {text' : Text} (h' : Produces fs o tree text') :
      (runOptions fs debug o.bare).ending.exitCode = 0 ∧
        (runOptions fs debug o.bare).output = text' := by
    obtain ⟨hencodable, hkept⟩ := h'.printable_iff.mp hprintable
    obtain ⟨hexit, houtput⟩ := runOptions_bare debug hversion htree h'
    exact ⟨hexit.mpr hencodable, (houtput hencodable).trans hkept⟩
  obtain ⟨hzero, hprinted⟩ := hprints h
  obtain ⟨hencodable, -⟩ := h.printable_iff.mp hprintable
  constructor
  · intro hfails names
    cases houtput : o.output with
    | none => rw [(runOptions_of_print debug hversion htree houtput h).1]
    | some out =>
      obtain ⟨hfiles, -, hexit⟩ := runOptions_of_deliver debug hversion htree houtput h
      have hnonzero := hfails.resolve_right (by simp [houtput])
      rcases deliver_cases fs out text with ⟨-, hsame⟩ | ⟨hdone, -⟩
      · rw [hfiles, hsame]
      · exact absurd (hexit.mpr (hdone.mpr hencodable)) hnonzero
  · intro out houtput hsucceeds
    obtain ⟨hfiles, hsilent, hexit⟩ := runOptions_of_deliver debug hversion htree houtput h
    obtain ⟨bytes, hbytes⟩ := Option.isSome_iff_exists.mp ((isSome_encodeFile?_iff text).mpr hencodable)
    refine ⟨hsilent, hzero, bytes, by rw [hprinted, hbytes], ?_⟩
    rcases deliver_cases fs out text with ⟨hundone, -⟩ | ⟨-, hwritten⟩
    · exact absurd (hexit.mp hsucceeds) hundone
    · rw [hbytes] at hwritten
      rw [hfiles]
      exact hwritten
  · intro text'
    constructor
    · intro ⟨_, hprinted'⟩
      rw [← hprinted', hprinted]
      exact h
    · exact hprints

theorem printable_of_allOrNothing {text : Text} (h : Produces fs o tree text)
    (hall : AllOrNothing fs o tree (runOptions fs debug o) (runOptions fs debug o.bare)) :
    Printable o tree := by
  obtain ⟨hzero, hprinted⟩ := (hall.produced text).mpr h
  obtain ⟨hexit, houtput⟩ := runOptions_bare debug hversion htree h
  have hencodable := hexit.mp hzero
  exact h.printable_iff.mpr ⟨hencodable, (houtput hencodable).symm.trans hprinted⟩

end

/-- **A run is all or nothing exactly if it can print its text**, or has none. A run that is asked for
    the version does nothing else. -/
theorem run_allOrNothing_iff {fs : FileSystem} {debug : Bool} {arguments : List Text} {o : Options}
    (hparse : Options.parse arguments = .ok o) {tree : FilePath} (htree : o.tree = some tree) :
    (o.version = false →
      (AllOrNothing fs o tree (run fs debug arguments) (run fs debug (Options.withoutOutput arguments))
        ↔ Printable o tree ∨ ∀ text, ¬ Produces fs o tree text)) ∧
    (o.version = true → run fs debug arguments
      = { ending := .success, output := "tplc " ++ version ++ "\n", files := fs }) := by
  rw [run_eq hparse, run_eq (Options.parse_withoutOutput hparse)]
  constructor
  · intro hversion
    by_cases hproduces : ∃ text, Produces fs o tree text
    · obtain ⟨text, htext⟩ := hproduces
      have hsome : ¬ ∀ text, ¬ Produces fs o tree text := fun h => h text htext
      rw [or_iff_left hsome]
      exact ⟨printable_of_allOrNothing debug hversion htree htext,
        allOrNothing_of_printable debug hversion htree htext⟩
    · have hnone : ∀ text, ¬ Produces fs o tree text := fun text htext => hproduces ⟨text, htext⟩
      exact ⟨fun _ => .inr hnone, fun _ => allOrNothing_of_stop debug hversion htree hnone⟩
  · intro hversion
    rw [runOptions, if_pos hversion]

/-- A run onto the document of its tree succeeds. -/
theorem run_allOrNothing_onto_tree :
    let fs : FileSystem := ⟨[([Text.ofString "t"], .file [0x78])], []⟩
    let arguments := ["t", "-o", "t"].map Text.ofString
    ∃ o tree, Options.parse arguments = .ok o ∧ o.tree = some tree ∧ o.output = some tree ∧
      (run fs false arguments).ending.exitCode = 0 ∧
      AllOrNothing fs o tree (run fs false arguments)
        (run fs false (Options.withoutOutput arguments)) := by
  intro fs arguments
  have hparse : Options.parse arguments
      = .ok { tree := some ⟨.none, ["t"]⟩, output := some ⟨.none, ["t"]⟩ } := rfl
  have hsucceeds : (run fs false arguments).ending.exitCode = 0 := by decide +kernel
  exact ⟨_, _, hparse, rfl, rfl, hsucceeds,
    ((run_allOrNothing_iff hparse rfl).1 rfl).mpr (.inl (by decide))⟩

/-- A control sequence in the path of a tree is written to the output, but not printed. -/
theorem run_control_sequence :
    let fs : FileSystem := ⟨[([Text.ofString "\x1b[mt"], .file [0x78])], []⟩
    let r := run fs false (["\x1b[mt", "-o", "o"].map Text.ofString)
    let bare := run fs false (["\x1b[mt"].map Text.ofString)
    r.ending.exitCode = 0 ∧ bare.ending.exitCode = 0 ∧
      ∃ bytes ∈ encodeFile? bare.output, r.files.content (.ofText "o") ≠ .bytes bytes := by
  decide +kernel

end CommandLine

end TemplateTree
