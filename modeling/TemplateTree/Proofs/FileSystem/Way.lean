import TemplateTree.Proofs.FileSystem

/-!
# Where a file can be written

To write a file, the directories on the way to it are made where they are missing. This file says for which
paths that succeeds, by the file system as it is before.

* `FileSystem.entered`: the places that names lead into, one after the other.
* `FileSystem.Passable`: no file stands where a path leads, and neither the path nor a name on it is too long.
  The directories on such a way, and on no other, can be made (`provideDirectories_eq_ok_iff`), and nothing
  else changes (`made_provideDirectories`).
* `FileSystem.CanHoldFile`: the way to a path is passable, and no directory stands where the path ends, or
  is made there on the way. A file can be written to such a path, and to no other
  (`canHoldFile_iff_write`).
-/

namespace TemplateTree.FileSystem

/-! ## 1. The way of a path -/

/-- The directory that a path starts at. -/
def start (fs : FileSystem) (p : FilePath) : List Text := if p.isAbsolute then [] else fs.current

/-- Where names lead from a directory. -/
def arrive (dir : List Text) : List Text → List Text
  | [] => dir
  | name :: rest => arrive (if name = FilePath.up then dir.dropLast else dir ++ [name]) rest

/-- The places that names lead into from a directory. A directory that is left for the one above it is
    not entered again. -/
def entered (dir : List Text) : List Text → List (List Text)
  | [] => []
  | name :: rest =>
    if name = FilePath.up then
      entered dir.dropLast rest
    else
      (dir ++ [name]) :: entered (dir ++ [name]) rest

/-- The directory that a path starts at, and the places that it leads into. -/
def way (fs : FileSystem) (p : FilePath) : List (List Text) :=
  fs.start p :: entered (fs.start p) p.names

theorem entered_append (dir ns ms : List Text) :
    entered dir (ns ++ ms) = entered dir ns ++ entered (arrive dir ns) ms := by
  induction ns generalizing dir with
  | nil => rfl
  | cons name rest ih =>
    rw [List.cons_append, entered, entered, arrive]
    split
    · exact ih _
    · rw [ih, List.cons_append]

theorem follow_append (fs : FileSystem) (place : Place) (ns ms : List Text) :
    fs.follow place (ns ++ ms) = fs.follow (fs.follow place ns) ms := by
  -- What leads nowhere leads nowhere with more names.
  have hmissing (ms : List Text) : fs.follow .missing ms = .missing := by cases ms <;> rfl
  have hfile (ms : List Text) : fs.follow .notDirectory ms = .notDirectory := by cases ms <;> rfl
  have hlong (ms : List Text) : fs.follow .nameTooLong ms = .nameTooLong := by cases ms <;> rfl
  induction ns generalizing place with
  | nil => rfl
  | cons name rest ih =>
    rw [List.cons_append]
    cases place with
    | missing | notDirectory | nameTooLong => simp only [follow, hmissing, hfile, hlong]
    | inside names e =>
      cases e with
      | none => simp only [follow, hmissing]
      | some e =>
        cases e with
        | file content => simp only [follow, hfile]
        | directory =>
          rw [follow, follow]
          split
          · exact ih _
          · split
            · exact (hlong ms).symm
            · exact ih _

theorem find_of_short {fs : FileSystem} {p : FilePath} (h : byteCount p.text ≤ maxPathBytes) :
    fs.find p = fs.follow (.inside (fs.start p) (fs.at? (fs.start p))) p.names :=
  if_neg (Nat.not_lt.mpr h)

theorem short_of_find {fs : FileSystem} {p : FilePath} {dir : List Text} {e : Option Entry}
    (h : fs.find p = .inside dir e) : byteCount p.text ≤ maxPathBytes := by
  refine Nat.not_lt.mp fun hlong => ?_
  rw [find, if_pos hlong] at h
  cases h

theorem way_congr {fs fs' : FileSystem} (h : fs'.current = fs.current) (p : FilePath) :
    fs'.way p = fs.way p := by
  rw [way, way, start, start, h]

/-! ## 2. Following names -/

theorem follow_up (fs : FileSystem) (dir rest : List Text) :
    fs.follow (.inside dir (some .directory)) (FilePath.up :: rest)
      = fs.follow (.inside dir.dropLast (some .directory)) rest := by
  rw [follow, if_pos rfl]

theorem follow_name {name : Text} (hup : name ≠ FilePath.up) (hshort : byteCount name ≤ maxNameBytes)
    (fs : FileSystem) (dir rest : List Text) :
    fs.follow (.inside dir (some .directory)) (name :: rest)
      = fs.follow (.inside (dir ++ [name]) (fs.at? (dir ++ [name]))) rest := by
  rw [follow, if_neg hup, if_neg (Nat.not_lt.mpr hshort)]

theorem follow_long {name : Text} (hup : name ≠ FilePath.up) (hlong : maxNameBytes < byteCount name)
    (fs : FileSystem) (dir rest : List Text) :
    fs.follow (.inside dir (some .directory)) (name :: rest) = .nameTooLong := by
  rw [follow, if_neg hup, if_pos hlong]

theorem file?_eq_none_iff {fs : FileSystem} {dir : List Text} :
    fs.file? dir = none ↔ fs.at? dir = none ∨ fs.at? dir = some .directory := by
  rw [file?]
  cases fs.at? dir with
  | none => exact iff_of_true rfl (.inl rfl)
  | some e =>
    cases e with
    | directory => exact iff_of_true rfl (.inr rfl)
    | file content => exact iff_of_false (fun h => by cases h) fun h => by rcases h with h | h <;> cases h

/-- Names lead through directories to the last of them. -/
theorem follow_of_directories {fs : FileSystem} {dir ns : List Text}
    (hshort : ∀ name ∈ ns, byteCount name ≤ maxNameBytes)
    (hdirs : ∀ d ∈ entered dir ns, fs.at? d = some .directory) :
    fs.follow (.inside dir (some .directory)) ns = .inside (arrive dir ns) (some .directory) := by
  induction ns generalizing dir with
  | nil => rfl
  | cons name rest ih =>
    have hrest : ∀ name ∈ rest, byteCount name ≤ maxNameBytes := fun n hn =>
      hshort n (List.mem_cons_of_mem _ hn)
    rw [entered] at hdirs
    rw [arrive]
    by_cases hup : name = FilePath.up
    · rw [if_pos hup] at hdirs ⊢
      rw [hup, follow_up]
      exact ih hrest hdirs
    · rw [if_neg hup] at hdirs ⊢
      rw [follow_name hup (hshort name List.mem_cons_self), hdirs _ List.mem_cons_self]
      exact ih hrest fun d hd => hdirs d (List.mem_cons_of_mem _ hd)

/-- Where no file stands in the way, names lead through directories, or to something that is missing. -/
theorem follow_cases {fs : FileSystem} {dir ns : List Text} {e : Option Entry}
    (he : e = none ∨ e = some .directory) (hshort : ∀ name ∈ ns, byteCount name ≤ maxNameBytes)
    (hfree : ∀ d ∈ entered dir ns, fs.file? d = none) :
    (e = some .directory ∧ ∀ d ∈ entered dir ns, fs.at? d = some .directory) ∨
      fs.follow (.inside dir e) ns = .missing ∨ ∃ d, fs.follow (.inside dir e) ns = .inside d none := by
  induction ns generalizing dir e with
  | nil =>
    rcases he with rfl | rfl
    · exact .inr (.inr ⟨dir, rfl⟩)
    · exact .inl ⟨rfl, fun d hd => by cases hd⟩
  | cons name rest ih =>
    rcases he with rfl | rfl
    · exact .inr (.inl rfl)
    · have hrest : ∀ name ∈ rest, byteCount name ≤ maxNameBytes := fun n hn =>
        hshort n (List.mem_cons_of_mem _ hn)
      rw [entered] at hfree ⊢
      by_cases hup : name = FilePath.up
      · rw [if_pos hup] at hfree ⊢
        rw [hup, follow_up]
        exact ih (.inr rfl) hrest hfree
      · rw [if_neg hup] at hfree ⊢
        rw [follow_name hup (hshort name List.mem_cons_self)]
        have hstep := file?_eq_none_iff.mp (hfree _ List.mem_cons_self)
        rcases ih hstep hrest fun d hd => hfree d (List.mem_cons_of_mem _ hd) with ⟨hdir, hdirs⟩ | hlost
        · exact .inl ⟨rfl, List.forall_mem_cons.mpr ⟨hdir, hdirs⟩⟩
        · exact .inr hlost

/-- Names that lead somewhere, but not to a file, lead past none. -/
theorem free_of_follow {fs : FileSystem} {dir d ns : List Text} {e e' : Option Entry}
    (he' : e' = none ∨ e' = some .directory) (h : fs.follow (.inside dir e) ns = .inside d e') :
    (e = none ∨ e = some .directory) ∧ (∀ name ∈ ns, byteCount name ≤ maxNameBytes) ∧
      ∀ d ∈ entered dir ns, fs.file? d = none := by
  induction ns generalizing dir e with
  | nil =>
    cases h
    exact ⟨he', List.forall_mem_nil _, List.forall_mem_nil _⟩
  | cons name rest ih =>
    cases e with
    | none => cases h
    | some e =>
      cases e with
      | file content => cases h
      | directory =>
        rw [entered]
        refine ⟨.inr rfl, ?_⟩
        by_cases hup : name = FilePath.up
        · rw [if_pos hup]
          rw [hup, follow_up] at h
          obtain ⟨-, hshort, hfree⟩ := ih h
          exact ⟨List.forall_mem_cons.mpr ⟨by rw [hup]; decide, hshort⟩, hfree⟩
        · rw [if_neg hup]
          rcases Nat.lt_or_ge maxNameBytes (byteCount name) with hlong | hname
          · rw [follow_long hup hlong] at h
            cases h
          · rw [follow_name hup hname] at h
            obtain ⟨hnext, hshort, hfree⟩ := ih h
            exact ⟨List.forall_mem_cons.mpr ⟨hname, hshort⟩,
              List.forall_mem_cons.mpr ⟨file?_eq_none_iff.mpr hnext, hfree⟩⟩

/-! ## 3. Passable ways -/

/-- **A way is passable**: no file stands on it, and neither the path nor a name on it is too long. -/
structure Passable (fs : FileSystem) (p : FilePath) : Prop where
  short : byteCount p.text ≤ maxPathBytes
  names_short : ∀ name ∈ p.names, byteCount name ≤ maxNameBytes
  free : ∀ dir ∈ fs.way p, fs.file? dir = none

theorem passable_of_find {fs : FileSystem} {p : FilePath} {dir : List Text} {e : Option Entry}
    (he : e = none ∨ e = some .directory) (h : fs.find p = .inside dir e) : fs.Passable p := by
  have hshort := short_of_find h
  rw [find_of_short hshort] at h
  obtain ⟨hstart, hnames, hfree⟩ := free_of_follow he h
  exact ⟨hshort, hnames, List.forall_mem_cons.mpr ⟨file?_eq_none_iff.mpr hstart, hfree⟩⟩

/-- Whether a way is passable depends on the files alone. -/
theorem Passable.congr {fs fs' : FileSystem} {p : FilePath} (hcurrent : fs'.current = fs.current)
    (hfiles : ∀ dir, fs'.file? dir = fs.file? dir) (h : fs'.Passable p) : fs.Passable p := by
  refine ⟨h.short, h.names_short, fun dir hdir => ?_⟩
  rw [← hfiles, h.free dir (by rwa [way_congr hcurrent])]

theorem foldl_eq_add {α : Type} {f : Nat → α → Nat} (hf : ∀ n a, f n a = n + f 0 a) (n : Nat)
    (as : List α) : as.foldl f n = n + as.foldl f 0 := by
  induction as generalizing n with
  | nil => rfl
  | cons a as ih =>
    rw [List.foldl_cons, List.foldl_cons, ih (f n a), ih (f 0 a), hf n a]
    omega

theorem byteCount_append (t u : Text) : byteCount (t ++ u) = byteCount t + byteCount u := by
  unfold byteCount
  rw [List.foldl_append]
  refine foldl_eq_add (fun n c => ?_) _ u
  cases c with
  | scalar c => exact (congrArg (n + ·) (Nat.zero_add _)).symm
  | surrogate c => rfl

theorem byteCount_join_le (ns : List Text) (name : Text) :
    byteCount (Text.join "/" ns) ≤ byteCount (Text.join "/" (ns ++ [name])) := by
  induction ns with
  | nil => exact Nat.zero_le _
  | cons n ns ih =>
    cases ns with
    | nil =>
      simp only [Text.join, List.nil_append, List.cons_append, List.intercalate_cons_cons,
        List.intercalate_singleton, byteCount_append]
      omega
    | cons m ns =>
      simp only [Text.join, List.cons_append, List.intercalate_cons_cons, byteCount_append] at ih ⊢
      omega

theorem text_eq {p : FilePath} (h : p.names ≠ []) : p.text = p.root.text ++ Text.join "/" p.names := by
  obtain ⟨root, names⟩ := p
  cases names with
  | nil => exact absurd rfl h
  | cons n ns => cases root <;> rfl

theorem names_eq_parent {p : FilePath} (h : p.names ≠ []) : ∃ name, p.names = p.parent.names ++ [name] :=
  ⟨_, (List.dropLast_concat_getLast h).symm⟩

theorem parent_eq_self {p : FilePath} (h : p.names = []) : p.parent = p := by
  obtain ⟨root, names⟩ := p
  obtain rfl : names = [] := h
  rfl

/-- The path of a directory is not too long if that of something in it is not. -/
theorem byteCount_parent_le {p : FilePath} (h : byteCount p.text ≤ maxPathBytes) :
    byteCount p.parent.text ≤ maxPathBytes := by
  by_cases hnames : p.names = []
  · rwa [parent_eq_self hnames]
  · obtain ⟨name, hname⟩ := names_eq_parent hnames
    by_cases hparent : p.parent.names = []
    · have hroot : p.parent = ⟨p.root, []⟩ := by rw [← hparent]; rfl
      rw [hroot]
      cases p.root <;> decide
    · rw [text_eq hnames, byteCount_append, hname] at h
      rw [text_eq hparent, byteCount_append]
      exact Nat.le_trans (Nat.add_le_add_left (byteCount_join_le p.parent.names name) _) h

/-- The way of a path is that of the directory which it lies in, and then what its last name enters. -/
theorem way_eq_append {p : FilePath} {name : Text} (h : p.names = p.parent.names ++ [name])
    (fs : FileSystem) :
    fs.way p = fs.way p.parent ++ entered (arrive (fs.start p) p.parent.names) [name] := by
  rw [way, h, entered_append]
  rfl

theorem Passable.parent {fs : FileSystem} {p : FilePath} (h : fs.Passable p) : fs.Passable p.parent := by
  by_cases hnames : p.names = []
  · rwa [parent_eq_self hnames]
  · obtain ⟨name, hname⟩ := names_eq_parent hnames
    refine ⟨byteCount_parent_le h.short, fun n hn => h.names_short n ?_, fun dir hdir => h.free dir ?_⟩
    · rw [hname]
      exact List.mem_append_left _ hn
    · rw [way_eq_append hname]
      exact List.mem_append_left _ hdir

/-! ## 4. Making directories -/

/-- **What making directories does**: they are there, and everything else is as it was. -/
structure Made (fs fs' : FileSystem) (dirs : List (List Text)) : Prop where
  current : fs'.current = fs.current
  there : ∀ dir ∈ dirs, fs'.at? dir = some .directory
  other : ∀ dir, dir ∉ dirs → fs'.at? dir = fs.at? dir

theorem made_self {fs : FileSystem} {dirs : List (List Text)}
    (h : ∀ dir ∈ dirs, fs.at? dir = some .directory) : Made fs fs dirs :=
  ⟨rfl, h, fun _ _ => rfl⟩

theorem Made.at?_eq_directory_iff {fs fs' : FileSystem} {dirs : List (List Text)} (h : Made fs fs' dirs)
    (dir : List Text) : fs'.at? dir = some .directory ↔ fs.at? dir = some .directory ∨ dir ∈ dirs := by
  by_cases hmem : dir ∈ dirs
  · exact iff_of_true (h.there dir hmem) (.inr hmem)
  · rw [h.other dir hmem, or_iff_left hmem]

theorem Made.trans {fs₁ fs₂ fs₃ : FileSystem} {dirs dirs' : List (List Text)} (h : Made fs₁ fs₂ dirs)
    (h' : Made fs₂ fs₃ dirs') (hdirs : dirs ⊆ dirs') : Made fs₁ fs₃ dirs' :=
  ⟨h'.current.trans h.current, h'.there, fun dir hdir =>
    (h'.other dir hdir).trans (h.other dir fun hmem => hdir (hdirs hmem))⟩

/-- A directory that is put where nothing was is made there. -/
theorem made_put {fs : FileSystem} {dirs : List (List Text)} {dir : List Text} (hdir : fs.at? dir = none)
    (hmem : dir ∈ dirs) (hdirs : ∀ d ∈ dirs, d ≠ dir → fs.at? d = some .directory) :
    Made fs (fs.put dir .directory) dirs := by
  have hne : dir ≠ [] := ne_nil_of_at? (by rw [hdir]; exact fun h => by cases h)
  refine ⟨current_put fs dir .directory, fun d hd => ?_, fun d hd => ?_⟩
  · by_cases heq : d = dir
    · rw [heq, at?_put_self hne]
    · rw [at?_put_of_ne heq, hdirs d hd heq]
  · refine at?_put_of_ne (fun heq => hd ?_) fs .directory
    rwa [heq]

section

variable {fs : FileSystem} {p : FilePath} {dir : List Text}

theorem provideDirectory_of_none (h : fs.find p = .inside dir none) :
    fs.provideDirectory p = (fs.put dir .directory, .ok ()) := by
  rw [provideDirectory, makeDirectory, h]

theorem provideDirectory_of_directory (h : fs.find p = .inside dir (some .directory)) :
    fs.provideDirectory p = (fs, .ok ()) := by
  simp only [provideDirectory, makeDirectory, isDirectory, content, h, beq_self_eq_true, if_true]

theorem provideDirectory_of_missing (h : fs.find p = .missing) :
    fs.provideDirectory p = (fs, .error .missing) := by
  rw [provideDirectory, makeDirectory, h]

/-- A directory is provided only where nothing or a directory stands. -/
theorem find_of_provideDirectory (h : (fs.provideDirectory p).2 = .ok ()) :
    ∃ dir e, fs.find p = .inside dir e ∧ (e = none ∨ e = some .directory) := by
  cases hfind : fs.find p with
  | inside dir e =>
    cases e with
    | none => exact ⟨dir, none, rfl, .inl rfl⟩
    | some e =>
      cases e with
      | directory => exact ⟨dir, _, rfl, .inr rfl⟩
      | file content =>
        simp [provideDirectory, makeDirectory, isDirectory, FileSystem.content, hfind] at h
  | missing | notDirectory | nameTooLong =>
    simp [provideDirectory, makeDirectory, isDirectory, FileSystem.content, hfind] at h

end

/-- Where the directories on the way are there, a path leads where its last name does. -/
theorem find_of_directories {fs : FileSystem} {p : FilePath} {name : Text}
    (hname : p.names = p.parent.names ++ [name]) (hshort : byteCount p.text ≤ maxPathBytes)
    (hnames : ∀ name ∈ p.parent.names, byteCount name ≤ maxNameBytes)
    (hdirs : ∀ dir ∈ fs.way p.parent, fs.at? dir = some .directory) :
    fs.find p
      = fs.follow (.inside (arrive (fs.start p) p.parent.names) (some .directory)) [name] := by
  obtain ⟨hstart, hentered⟩ := List.forall_mem_cons.mp hdirs
  have hstart : fs.at? (fs.start p) = some .directory := hstart
  rw [find_of_short hshort, hname, follow_append, hstart]
  exact congrArg (fs.follow · [name]) (follow_of_directories hnames hentered)

/-- Where the directories on the way are there, a path leads back to one of them, or to the last place of
    its way. -/
theorem find_of_way {fs : FileSystem} {p : FilePath} (h : fs.Passable p)
    (hdirs : p.names = [] ∨ ∀ dir ∈ fs.way p.parent, fs.at? dir = some .directory) :
    (∃ dir, fs.find p = .inside dir (some .directory) ∧ ∀ d ∈ fs.way p, fs.at? d = some .directory) ∨
      ∃ front dir, fs.way p = front ++ [dir] ∧ fs.find p = .inside dir (fs.at? dir) ∧
        ∀ d ∈ front, fs.at? d = some .directory := by
  by_cases hnil : p.names = []
  · refine .inr ⟨[], fs.start p, by rw [way, hnil, entered, List.nil_append], ?_, fun d hd => by cases hd⟩
    rw [find_of_short h.short, hnil, follow]
  · obtain ⟨name, hname⟩ := names_eq_parent hnil
    have hdirs := hdirs.resolve_left hnil
    rw [way_eq_append hname, find_of_directories hname h.short h.parent.names_short hdirs]
    by_cases hup : name = FilePath.up
    · rw [hup, follow_up, follow, entered, if_pos rfl, entered, List.append_nil]
      exact .inl ⟨_, rfl, hdirs⟩
    · have hshort : byteCount name ≤ maxNameBytes := h.names_short name (by rw [hname]; simp)
      rw [follow_name hup hshort, follow, entered, if_neg hup, entered]
      exact .inr ⟨_, _, rfl, rfl, hdirs⟩

/-- A directory is provided where those on the way to it are there. -/
theorem made_provideDirectory {fs : FileSystem} {p : FilePath} (h : fs.Passable p)
    (hdirs : p.names = [] ∨ ∀ dir ∈ fs.way p.parent, fs.at? dir = some .directory) :
    ∃ fs', fs.provideDirectory p = (fs', .ok ()) ∧ Made fs fs' (fs.way p) := by
  rcases find_of_way h hdirs with ⟨dir, hfind, hway⟩ | ⟨front, dir, hway, hfind, hfront⟩
  · exact ⟨fs, provideDirectory_of_directory hfind, made_self hway⟩
  · have hmem : dir ∈ fs.way p := by
      rw [hway]
      exact List.mem_append_right front (List.mem_singleton_self dir)
    have hothers (d : List Text) (hd : d ∈ fs.way p) (hne : d ≠ dir) : fs.at? d = some .directory := by
      rw [hway] at hd
      exact hfront d ((List.mem_append.mp hd).resolve_right fun h => hne (List.mem_singleton.mp h))
    rcases file?_eq_none_iff.mp (h.free dir hmem) with hnone | hdir
    · rw [hnone] at hfind
      exact ⟨_, provideDirectory_of_none hfind, made_put hnone hmem hothers⟩
    · rw [hdir] at hfind
      refine ⟨fs, provideDirectory_of_directory hfind, made_self fun d hd => ?_⟩
      by_cases hd' : d = dir
      · rw [hd', hdir]
      · exact hothers d hd hd'

/-- The path leads past something that is missing, unless the directories on the way are there. -/
theorem find_eq_missing {fs : FileSystem} {p : FilePath} (h : fs.Passable p) (hne : p.names ≠ [])
    (hdirs : ¬∀ dir ∈ fs.way p.parent, fs.at? dir = some .directory) : fs.find p = .missing := by
  obtain ⟨name, hname⟩ := names_eq_parent hne
  have hparent := h.parent
  obtain ⟨hstart, hfree⟩ := List.forall_mem_cons.mp hparent.free
  rw [find_of_short h.short, hname, follow_append]
  rcases follow_cases (file?_eq_none_iff.mp hstart) hparent.names_short hfree with
    ⟨hdir, hentered⟩ | hmissing | ⟨dir, hnone⟩
  · refine absurd (fun dir hmem => ?_) hdirs
    rcases List.mem_cons.mp hmem with rfl | hmem
    · exact hdir
    · exact hentered dir hmem
  · exact congrArg (fs.follow · [name]) hmissing
  · exact congrArg (fs.follow · [name]) hnone

/-- **The directories on a passable way can be made**, and nothing else changes. -/
theorem made_provideDirectories {fs : FileSystem} {p : FilePath} (h : fs.Passable p) :
    ∃ fs', fs.provideDirectories p p.names.length = (fs', .ok ()) ∧ Made fs fs' (fs.way p) := by
  -- By induction on the names: the way of the parent is made first where something on it is missing.
  induction hlength : p.names.length generalizing p with
  | zero => exact made_provideDirectory h (.inl (List.eq_nil_of_length_eq_zero hlength))
  | succ n ih =>
    have hne : p.names ≠ [] := List.ne_nil_of_length_eq_add_one hlength
    rw [provideDirectories]
    by_cases hdirs : ∀ dir ∈ fs.way p.parent, fs.at? dir = some .directory
    · obtain ⟨fs', hprovide, hmade⟩ := made_provideDirectory h (.inr hdirs)
      rw [hprovide]
      exact ⟨fs', rfl, hmade⟩
    · have hparent : p.parent.names.length = n := by
        rw [FilePath.parent, List.length_dropLast, hlength, Nat.add_sub_cancel]
      obtain ⟨fs₁, hprovide, hmade⟩ := ih h.parent hparent
      have hfiles (dir : List Text) : fs₁.file? dir = fs.file? dir := by
        rw [← file?_provideDirectories fs p.parent n dir, hprovide]
      have hpassable : fs₁.Passable p := h.congr hmade.current.symm fun dir => (hfiles dir).symm
      have hthere := hmade.there
      rw [← way_congr hmade.current] at hthere
      obtain ⟨fs₂, hlast, hmade'⟩ := made_provideDirectory hpassable (.inr hthere)
      rw [way_congr hmade.current] at hmade'
      rw [provideDirectory_of_missing (find_eq_missing h hne hdirs)]
      simp only [hprovide]
      obtain ⟨name, hname⟩ := names_eq_parent hne
      refine ⟨fs₂, hlast, hmade.trans hmade' ?_⟩
      rw [way_eq_append hname]
      exact List.subset_append_left _ _

theorem current_provideDirectory (fs : FileSystem) (p : FilePath) :
    (fs.provideDirectory p).1.current = fs.current := by
  unfold provideDirectory
  split
  · rename_i fs' hmade
    unfold makeDirectory at hmade
    split at hmade <;> cases hmade
    exact current_put fs _ .directory
  · rfl
  · rfl

theorem current_provideDirectories (fs : FileSystem) (p : FilePath) (parents : Nat) :
    (fs.provideDirectories p parents).1.current = fs.current := by
  induction parents generalizing fs p with
  | zero => exact current_provideDirectory fs p
  | succ parents ih =>
    have hfirst := current_provideDirectory fs p
    rw [provideDirectories]
    split
    · rename_i fs₁ hfs₁
      rw [hfs₁] at hfirst
      have habove := ih fs₁ p.parent
      split
      · rename_i fs₂ hfs₂
        rw [hfs₂] at habove
        rw [current_provideDirectory, habove, hfirst]
      · rw [habove, hfirst]
    · exact hfirst

/-- Directories are provided by providing the last of them, at a time when every file is as it was. -/
theorem exists_provideDirectory {fs : FileSystem} {p : FilePath} {parents : Nat}
    (h : (fs.provideDirectories p parents).2 = .ok ()) :
    ∃ fs' : FileSystem, fs'.current = fs.current ∧ (∀ dir, fs'.file? dir = fs.file? dir) ∧
      (fs'.provideDirectory p).2 = .ok () := by
  cases parents with
  | zero => exact ⟨fs, rfl, fun _ => rfl, h⟩
  | succ parents =>
    have hcurrent := current_provideDirectory fs p
    have hfiles := file?_provideDirectory fs p
    rw [provideDirectories] at h
    split at h
    · rename_i fs₁ hfs₁
      rw [hfs₁] at hcurrent hfiles
      have hcurrent' := current_provideDirectories fs₁ p.parent parents
      have hfiles' := file?_provideDirectories fs₁ p.parent parents
      split at h
      · rename_i fs₂ hfs₂
        rw [hfs₂] at hcurrent' hfiles'
        exact ⟨fs₂, hcurrent'.trans hcurrent, fun dir => (hfiles' dir).trans (hfiles dir), h⟩
      · rename_i hfailed
        exact (hfailed _ (Prod.ext_iff.mpr ⟨rfl, h⟩)).elim
    · exact ⟨fs, rfl, fun _ => rfl, h⟩

/-- **Directories can be made exactly if the way to the last of them is passable.** -/
theorem provideDirectories_eq_ok_iff (fs : FileSystem) (p : FilePath) :
    (fs.provideDirectories p p.names.length).2 = .ok () ↔ fs.Passable p := by
  constructor
  · intro h
    obtain ⟨fs', hcurrent, hfiles, hlast⟩ := exists_provideDirectory h
    obtain ⟨dir, e, hfind, he⟩ := find_of_provideDirectory hlast
    exact (passable_of_find he hfind).congr hcurrent hfiles
  · intro h
    obtain ⟨fs', hprovide, -⟩ := made_provideDirectories h
    rw [hprovide]

/-! ## 5. Writing a file -/

/-- **A path can hold a file**: the way to its directory is passable, and where its last name leads there is
    no directory, nor is one made there on the way. -/
structure CanHoldFile (fs : FileSystem) (p : FilePath) : Prop where
  short : byteCount p.text ≤ maxPathBytes
  way : fs.Passable p.parent
  target : ∃ name, p.names = p.parent.names ++ [name] ∧ name ≠ FilePath.up ∧
    byteCount name ≤ maxNameBytes ∧
    fs.at? (arrive (fs.start p) p.parent.names ++ [name]) ≠ some .directory ∧
    arrive (fs.start p) p.parent.names ++ [name] ∉ fs.way p.parent

theorem exists_write_iff {fs : FileSystem} {p : FilePath} {content : List UInt8} :
    (∃ fs', fs.write p content = .ok fs') ↔
      ∃ dir e, fs.find p = .inside dir e ∧ e ≠ some .directory := by
  constructor
  · intro h
    obtain ⟨fs', h⟩ := h
    unfold write at h
    split at h <;> cases h
    rename_i dir e hdir hfind
    exact ⟨dir, e, hfind, hdir⟩
  · intro h
    obtain ⟨dir, e, hfind, hdir⟩ := h
    rw [write, hfind]
    cases e with
    | none => exact ⟨_, rfl⟩
    | some e =>
      cases e with
      | directory => exact absurd rfl hdir
      | file old => exact ⟨_, rfl⟩

/-- A last name that leads to anything but a directory is a proper one. -/
theorem at?_of_follow_last {fs : FileSystem} {dir dir' : List Text} {name : Text} {e : Option Entry}
    (h : fs.follow (.inside dir (some .directory)) [name] = .inside dir' e) (he : e ≠ some .directory) :
    name ≠ FilePath.up ∧ byteCount name ≤ maxNameBytes ∧ fs.at? (dir ++ [name]) = e := by
  by_cases hup : name = FilePath.up
  · rw [hup, follow_up, follow] at h
    cases h
    exact absurd rfl he
  · rcases Nat.lt_or_ge maxNameBytes (byteCount name) with hlong | hshort
    · rw [follow_long hup hlong] at h
      cases h
    · rw [follow_name hup hshort, follow] at h
      cases h
      exact ⟨hup, hshort, rfl⟩

/-- A path without names leads to where it starts. -/
theorem at?_of_no_names {fs : FileSystem} {p : FilePath} {dir : List Text} {e : Option Entry}
    (hnil : p.names = []) (h : fs.find p = .inside dir e) : fs.at? (fs.start p) = e := by
  rw [find_of_short (short_of_find h), hnil, follow] at h
  cases h
  rfl

/-- Where its directory is made, a file can be written exactly if the path can hold one. -/
theorem exists_write_iff_of_made {fs made : FileSystem} {p : FilePath} {content : List UInt8}
    (h : fs.Passable p.parent) (hmade : Made fs made (fs.way p.parent)) :
    (∃ fs', made.write p content = .ok fs') ↔ fs.CanHoldFile p := by
  have hdirs : ∀ dir ∈ made.way p.parent, made.at? dir = some .directory := by
    rw [way_congr hmade.current]
    exact hmade.there
  rw [exists_write_iff]
  by_cases hnil : p.names = []
  · refine iff_of_false (fun hwrite => ?_) fun hhold => ?_
    · obtain ⟨dir, e, hfind, hdir⟩ := hwrite
      rw [parent_eq_self hnil] at hdirs
      exact hdir ((at?_of_no_names hnil hfind).symm.trans (hdirs _ List.mem_cons_self))
    · obtain ⟨name, hname, -⟩ := hhold.target
      rw [hnil] at hname
      exact absurd hname.symm (by simp)
  · obtain ⟨name, hname⟩ := names_eq_parent hnil
    have hfind (hshort : byteCount p.text ≤ maxPathBytes) :=
      find_of_directories hname hshort h.names_short hdirs
    have hplace := hmade.at?_eq_directory_iff (arrive (fs.start p) p.parent.names ++ [name])
    rw [show made.start p = fs.start p by rw [start, start, hmade.current]] at hfind
    constructor
    · intro hwrite
      obtain ⟨dir, e, hfound, hdir⟩ := hwrite
      have hshort := short_of_find hfound
      rw [hfind hshort] at hfound
      obtain ⟨hup, hname', rfl⟩ := at?_of_follow_last hfound hdir
      exact ⟨hshort, h, name, hname, hup, hname', fun hat => hdir (hplace.mpr (.inl hat)),
        fun hmem => hdir (hplace.mpr (.inr hmem))⟩
    · intro hhold
      obtain ⟨name', hname', hup, hshort, hdir, hmem⟩ := hhold.target
      obtain rfl : name = name' := by simpa using hname.symm.trans hname'
      refine ⟨_, _, (hfind hhold.short).trans (follow_name hup hshort _ _ _), fun hat => ?_⟩
      rcases hplace.mp hat with hat | hat
      · exact hdir hat
      · exact hmem hat

/-- **A file can be written, once the directories on the way to it are made, exactly if the path can hold
    it.** -/
theorem canHoldFile_iff_write (fs : FileSystem) (p : FilePath) (content : List UInt8) :
    fs.CanHoldFile p ↔
      ∃ made fs', fs.provideDirectories p.parent p.parent.names.length = (made, .ok ()) ∧
        made.write p content = .ok fs' := by
  constructor
  · intro h
    obtain ⟨made, hprovide, hmade⟩ := made_provideDirectories h.way
    obtain ⟨fs', hwrite⟩ := (exists_write_iff_of_made h.way hmade).mpr h
    exact ⟨made, fs', hprovide, hwrite⟩
  · intro h
    obtain ⟨made, fs', hprovide, hwrite⟩ := h
    have hpassable : fs.Passable p.parent :=
      (provideDirectories_eq_ok_iff fs p.parent).mp (by rw [hprovide])
    obtain ⟨made', hprovide', hmade⟩ := made_provideDirectories hpassable
    obtain rfl : made = made' := (Prod.mk.inj (hprovide.symm.trans hprovide')).1
    exact (exists_write_iff_of_made hpassable hmade).mp ⟨fs', hwrite⟩

end TemplateTree.FileSystem
