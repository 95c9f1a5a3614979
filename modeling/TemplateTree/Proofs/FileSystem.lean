import TemplateTree.FileSystem

/-!
# What changes in a file system

A change of a file system is told by its files: what `FileSystem.file?` gives for the names on the way
to a file.

* `file?_provideDirectories`: making directories, whether that succeeds or not, leaves every file as
  it was;
* `written_of_write`: writing puts one file where the path led, the path leads there afterwards, and
  every other file is as it was.
-/

namespace TemplateTree.FileSystem

/-! ## 1. Entries -/

/-- The content of the file with the given names on the way to it. -/
def file? (fs : FileSystem) (names : List Text) : Option (List UInt8) :=
  match fs.at? names with
  | some (.file content) => some content
  | _ => none

theorem file?_of_at? {fs fs' : FileSystem} {names : List Text} (h : fs'.at? names = fs.at? names) :
    fs'.file? names = fs.file? names := by
  unfold file?
  rw [h]

theorem at?_of_ne_nil {fs : FileSystem} {names : List Text} (h : names ≠ []) :
    fs.at? names = fs.entries.lookup names :=
  if_neg h

/-- The root is a directory, so names that lead elsewhere are not none. -/
theorem ne_nil_of_at? {fs : FileSystem} {names : List Text} (h : fs.at? names ≠ some .directory) :
    names ≠ [] := by
  intro hnil
  exact h (if_pos hnil)

theorem lookup_replaced_self {entries : List (List Text × Entry)} {names : List Text} (e : Entry)
    (h : (entries.lookup names).isSome) :
    (entries.map fun f => if f.1 = names then (names, e) else f).lookup names = some e := by
  induction entries with
  | nil => simp at h
  | cons f entries ih =>
    obtain ⟨name, e'⟩ := f
    by_cases hname : name = names
    · simp [hname]
    · have hdiffer : (names == name) = false := by simpa using Ne.symm hname
      rw [List.lookup_cons, hdiffer] at h
      rw [List.map_cons, if_neg hname, List.lookup_cons, hdiffer]
      exact ih h

theorem lookup_replaced_of_ne {names other : List Text} (h : other ≠ names) (e : Entry)
    (entries : List (List Text × Entry)) :
    (entries.map fun f => if f.1 = names then (names, e) else f).lookup other
      = entries.lookup other := by
  induction entries with
  | nil => rfl
  | cons f entries ih =>
    obtain ⟨name, e'⟩ := f
    by_cases hname : name = names
    · have hdiffer : (other == names) = false := by simpa using h
      rw [List.map_cons, if_pos hname, List.lookup_cons, List.lookup_cons, hname, hdiffer]
      exact ih
    · rw [List.map_cons, if_neg hname, List.lookup_cons, List.lookup_cons, ih]

theorem at?_put_self {fs : FileSystem} {names : List Text} (h : names ≠ []) (e : Entry) :
    (fs.put names e).at? names = some e := by
  rw [at?_of_ne_nil h]
  by_cases hthere : (fs.at? names).isSome
  · rw [put, if_pos hthere]
    rw [at?_of_ne_nil h] at hthere
    exact lookup_replaced_self e hthere
  · rw [put, if_neg hthere]
    rw [at?_of_ne_nil h, Option.not_isSome_iff_eq_none] at hthere
    simp [List.lookup_append, hthere]

theorem at?_put_of_ne {names other : List Text} (h : other ≠ names) (fs : FileSystem) (e : Entry) :
    (fs.put names e).at? other = fs.at? other := by
  by_cases hroot : other = []
  · rw [at?, at?, if_pos hroot, if_pos hroot]
  · rw [at?_of_ne_nil hroot, at?_of_ne_nil hroot, put]
    split
    · exact lookup_replaced_of_ne h e fs.entries
    · have hdiffer : (other == names) = false := by simpa using h
      simp [List.lookup_append, List.lookup_cons, hdiffer]

theorem current_put (fs : FileSystem) (names : List Text) (e : Entry) :
    (fs.put names e).current = fs.current := by
  unfold put
  split <;> rfl

/-! ## 2. Paths -/

/-- What a path leads to is the entry there, or a directory above one that was passed. -/
theorem entry_of_follow {fs : FileSystem} {start names : List Text} {e entry : Option Entry}
    {path : List Text} (he : e = fs.at? start ∨ e = some .directory)
    (h : fs.follow (.inside start e) path = .inside names entry) :
    entry = fs.at? names ∨ entry = some .directory := by
  induction path generalizing start e with
  | nil =>
    cases h
    exact he
  | cons name path ih =>
    match e with
    | none => simp [follow] at h
    | some (.file content) => simp [follow] at h
    | some .directory =>
      rw [follow] at h
      by_cases hup : name = FilePath.up
      · rw [if_pos hup] at h
        exact ih (.inr rfl) h
      · rw [if_neg hup] at h
        split at h
        · cases h
        · exact ih (.inl rfl) h

theorem entry_of_find {fs : FileSystem} {p : FilePath} {names : List Text} {entry : Option Entry}
    (h : fs.find p = .inside names entry) : entry = fs.at? names ∨ entry = some .directory := by
  unfold find at h
  split at h
  · cases h
  · exact entry_of_follow (.inl rfl) h

/-- **A path still leads to the same place once a file is put there**: no directory on the way is
    that place. -/
theorem follow_put {fs : FileSystem} {start names : List Text} {e e' entry : Option Entry}
    {path : List Text} {content : List UInt8} (hnames : fs.at? names ≠ some .directory)
    (hentry : entry ≠ some .directory) (hsame : e = some .directory → e' = some .directory)
    (hlast : start = names → e ≠ some .directory → e' = some (.file content))
    (h : fs.follow (.inside start e) path = .inside names entry) :
    (fs.put names (.file content)).follow (.inside start e') path
      = .inside names (some (.file content)) := by
  induction path generalizing start e e' with
  | nil =>
    cases h
    rw [follow, hlast rfl hentry]
  | cons name path ih =>
    match e with
    | none => simp [follow] at h
    | some (.file content) => simp [follow] at h
    | some .directory =>
      rw [follow] at h
      rw [hsame rfl, follow]
      by_cases hup : name = FilePath.up
      · rw [if_pos hup] at h ⊢
        exact ih (fun _ => rfl) (fun _ hne => absurd rfl hne) h
      · rw [if_neg hup] at h ⊢
        split at h
        · cases h
        · rename_i hshort
          rw [if_neg hshort]
          refine ih ?_ ?_ h
          · intro hdir
            have hne : start ++ [name] ≠ names := fun heq => hnames (heq ▸ hdir)
            rw [at?_put_of_ne hne, hdir]
          · intro heq _
            rw [heq, at?_put_self (ne_nil_of_at? hnames)]

theorem find_put {fs : FileSystem} {p : FilePath} {names : List Text} {entry : Option Entry}
    (hentry : entry ≠ some .directory) (h : fs.find p = .inside names entry)
    (content : List UInt8) :
    (fs.put names (.file content)).find p = .inside names (some (.file content)) := by
  have hnames : fs.at? names ≠ some .directory := by
    rcases entry_of_find h with hat | hdir
    · rwa [← hat]
    · exact absurd hdir hentry
  unfold find at h ⊢
  split at h
  · cases h
  · rename_i hshort
    rw [if_neg hshort, current_put]
    refine follow_put hnames hentry ?_ ?_ h
    · intro hdir
      have hne : (if p.isAbsolute then [] else fs.current) ≠ names :=
        fun heq => hnames (heq ▸ hdir)
      rw [at?_put_of_ne hne, hdir]
    · intro heq _
      rw [heq, at?_put_self (ne_nil_of_at? hnames)]

/-! ## 3. Directories -/

theorem file?_put_directory {fs : FileSystem} {names : List Text} (h : fs.at? names = none)
    (other : List Text) : (fs.put names .directory).file? other = fs.file? other := by
  by_cases hother : other = names
  · have hempty : fs.at? names ≠ some .directory := by simp [h]
    have hne : names ≠ [] := ne_nil_of_at? hempty
    simp [file?, hother, h, at?_put_self hne]
  · exact file?_of_at? (at?_put_of_ne hother fs .directory)

theorem file?_makeDirectory {fs fs' : FileSystem} {p : FilePath} (h : fs.makeDirectory p = .ok fs')
    (names : List Text) : fs'.file? names = fs.file? names := by
  unfold makeDirectory at h
  split at h <;> cases h
  rename_i place hplace
  rcases entry_of_find hplace with hat | hdir
  · exact file?_put_directory hat.symm names
  · cases hdir

theorem file?_provideDirectory (fs : FileSystem) (p : FilePath) (names : List Text) :
    (fs.provideDirectory p).1.file? names = fs.file? names := by
  unfold provideDirectory
  split
  · rename_i hmade
    exact file?_makeDirectory hmade names
  · rfl
  · rfl

/-- **Making directories leaves every file as it was**, also where not all of them can be made. -/
theorem file?_provideDirectories (fs : FileSystem) (p : FilePath) (parents : Nat)
    (names : List Text) : (fs.provideDirectories p parents).1.file? names = fs.file? names := by
  induction parents generalizing fs p with
  | zero => exact file?_provideDirectory fs p names
  | succ parents ih =>
    have hfirst := file?_provideDirectory fs p names
    rw [provideDirectories]
    split
    · rename_i fs₁ hfs₁
      rw [hfs₁] at hfirst
      have habove := ih fs₁ p.parent
      split
      · rename_i fs₂ hfs₂
        rw [hfs₂] at habove
        rw [file?_provideDirectory, habove, hfirst]
      · rw [habove, hfirst]
    · exact hfirst

/-! ## 4. Writing -/

/-- What writing a file does: the path leads to it, and every other file is as it was. -/
def Written (fs fs' : FileSystem) (p : FilePath) (content : List UInt8) : Prop :=
  ∃ names, fs'.find p = .inside names (some (.file content))
    ∧ ∀ other, other ≠ names → fs'.file? other = fs.file? other

theorem written_of_write {fs fs' : FileSystem} {p : FilePath} {content : List UInt8}
    (h : fs.write p content = .ok fs') : Written fs fs' p content := by
  unfold write at h
  split at h <;> cases h
  rename_i names entry hdir hplace
  refine ⟨names, find_put hdir hplace content, ?_⟩
  intro other hother
  exact file?_of_at? (at?_put_of_ne hother fs (.file content))

end TemplateTree.FileSystem
