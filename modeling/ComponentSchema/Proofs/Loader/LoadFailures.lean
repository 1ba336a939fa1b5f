import ComponentSchema.Proofs.Loader.LoadOrder

/-!
# Programs that cannot be loaded

A program cannot be loaded just if the roots lead to a file that cannot be parsed, or that has a
specifier which has to lead to a file and leads to none.

A specifier such as `.` names the directory of its file, so its extension is the one that this
directory has in the spelling of the path. Here it matters by which path the file is found first. The
survey of the program tells, since it goes on where a file cannot be loaded.

Hypothesis. `FileTree.IsRooted`: every entry stands in a directory.

Results.
* `Modules.load_fails_iff`: when a program cannot be loaded.
* `Modules.load_spelling`: it matters which spelling of a root comes first.
-/
namespace ComponentSchema

open Syntax Discovery

variable {tree : FileTree} {roots : List Path} {path : Path} {location : Location}

/-! ## The path by which a file is found -/

/-- The path by which the file at a location is found first. -/
def FoundFirst (tree : FileTree) (roots : List Path) (location : Location) (path : Path) : Prop :=
  ∃ (i : Nat) (file : ModuleFile), (surveyed tree roots).discovery.files[i]? = some file ∧
    file.path = path ∧ tree.FileAt path location

section

variable {first : Path}

theorem FoundFirst.fileAt (h : FoundFirst tree roots location first) :
    tree.FileAt first location := by
  obtain ⟨-, -, -, -, hat⟩ := h
  exact hat

theorem FoundFirst.reachable (h : FoundFirst tree roots location first) :
    Reachable tree roots first := by
  obtain ⟨i, file, hfile, rfl, -⟩ := h
  exact (surveyed_surveyed tree roots (Nat.lt_succ_self _)).1.sound.reachable hfile

theorem FoundFirst.unique {first' : Path} (h : FoundFirst tree roots location first)
    (h' : FoundFirst tree roots location first') : first = first' := by
  obtain ⟨i, file, hfile, rfl, hat⟩ := h
  obtain ⟨j, file', hfile', rfl, hat'⟩ := h'
  have hsound := (surveyed_surveyed tree roots (Nat.lt_succ_self _)).1.sound
  obtain hij : (⟨i⟩ : ModuleId) = ⟨j⟩ := hsound.injective ⟨file, hfile, hat⟩ ⟨file', hfile', hat'⟩
  obtain rfl := ModuleId.mk.inj hij
  rw [Option.some.inj (hfile.symm.trans hfile')]

/-- If a root leads to the file, it is found by the first such root. -/
theorem FoundFirst.eq_root (hrooted : tree.IsRooted) (h : FoundFirst tree roots location first)
    {root : Path} (hroot : FirstAt tree roots location root) : first = root := by
  obtain ⟨i, file, hfile, rfl, hat⟩ := id h
  have hsurveyed := (surveyed_surveyed tree roots (Nat.lt_succ_self _)).1
  have hparsed := parseFile_spelling hrooted hat hroot.fileAt (hsurveyed.sound.parsed hfile)
  obtain ⟨j, file', hfile', rfl⟩ := hsurveyed.hasRoots hroot hparsed
  exact h.unique ⟨j, file', hfile', rfl, hroot.fileAt⟩

/-- A file that the roots lead to is found, if it can be parsed. -/
theorem exists_foundFirst (hrooted : tree.IsRooted) (hpath : Reachable tree roots path)
    (hat : tree.FileAt path location) {source : SourceTree}
    (hparsed : parseFile tree path = .ok source) :
    ∃ first, FoundFirst tree roots location first := by
  have hsurveyed := (surveyed_surveyed tree roots (Nat.lt_succ_self _)).1
  rcases hsurveyed.standsAt_of_reachable hrooted hpath with
    ⟨location', id, hat', file, hfile, hfileAt⟩ | ⟨-, error, herror⟩
  · obtain rfl := hat.unique hat'
    exact ⟨file.path, id.index, file, hfile, rfl, hfileAt⟩
  · rw [hparsed] at herror
    cases herror

end

/-! ## Faulty files -/

/-- The file at a path cannot be parsed, or a specifier in it has to lead to a file and leads to
none. For a specifier that names no more than the directory of the file, just the path counts by which
the file is found first. -/
def Faulty (tree : FileTree) (roots : List Path) (path : Path) : Prop :=
  (∃ error, parseFile tree path = .error error) ∨
    ∃ parsed, parseFile tree path = .ok parsed ∧ ∃ specifier ∈ parsed.specifiers,
      Unresolvable tree path specifier ∧
        (NamesDirectory specifier → ∃ location, FoundFirst tree roots location path)

theorem parseFile_ne_unresolved {specifier : String} {importer : Path} :
    parseFile tree path ≠ .error (.unresolved specifier importer) := by
  unfold parseFile
  intro h
  split at h
  · cases h
  · split at h <;> cases h

section

variable {error : LoadError}

/-- What keeps a program from being loaded comes from a faulty file. -/
theorem Survey.Blamed.exists_faulty
    (h : Survey.Blamed tree roots (surveyed tree roots).discovery.files error) :
    ∃ path, Reachable tree roots path ∧ Faulty tree roots path := by
  have hsound := (surveyed_surveyed tree roots (Nat.lt_succ_self _)).1.sound
  rcases h with ⟨root, hroot, herror⟩ |
    ⟨i, file, hfile, specifier, hs, hresolved | ⟨found, hfound, herror⟩⟩
  · exact ⟨root, .root hroot, .inl ⟨error, herror⟩⟩
  · obtain ⟨location, hat⟩ := fileAt_of_parseFile (hsound.parsed hfile)
    exact ⟨file.path, hsound.reachable hfile, .inr ⟨_, hsound.parsed hfile, specifier, hs,
      (resolveImport_eq_error_iff.1 hresolved).1, fun _ => ⟨location, i, file, hfile, rfl, hat⟩⟩⟩
  · exact ⟨found, (hsound.reachable hfile).leads ⟨_, hsound.parsed hfile, specifier, hs, hfound⟩,
      .inl ⟨error, herror⟩⟩

/-- A message names the importing file by the path by which it is found first. -/
theorem Survey.Blamed.foundFirst {specifier : String} {importer : Path}
    (h : Survey.Blamed tree roots (surveyed tree roots).discovery.files
      (.unresolved specifier importer)) : ∃ location, FoundFirst tree roots location importer := by
  have hsound := (surveyed_surveyed tree roots (Nat.lt_succ_self _)).1.sound
  rcases h with ⟨root, -, herror⟩ | ⟨i, file, hfile, specifier', hs, hresolved | ⟨found, -, herror⟩⟩
  · exact absurd herror parseFile_ne_unresolved
  · obtain ⟨location, hat⟩ := fileAt_of_parseFile (hsound.parsed hfile)
    obtain ⟨-, rfl⟩ := LoadError.unresolved.inj (resolveImport_eq_error_iff.1 hresolved).2
    exact ⟨location, i, file, hfile, rfl, hat⟩
  · exact absurd herror parseFile_ne_unresolved

end

/-- Where nothing has failed, no file that the roots lead to is faulty. -/
theorem not_faulty_of_surveyed (hrooted : tree.IsRooted) (hclean : (surveyed tree roots).errors = [])
    (hpath : Reachable tree roots path) : ¬ Faulty tree roots path := by
  intro hfaulty
  have hsurveyed := (surveyed_surveyed tree roots (Nat.lt_succ_self _)).1
  obtain ⟨location, id, hat, file, hfile, hfileAt⟩ :=
    (hsurveyed.standsAt_of_reachable hrooted hpath).resolve_right fun hfailed => hfailed.1 hclean
  have hsame := parseFile_spelling hrooted hfileAt hat (hsurveyed.sound.parsed hfile)
  rcases hfaulty with ⟨error, herror⟩ | ⟨parsed, hparsed, specifier, hs, hspecifier, hnames⟩
  · rw [hsame] at herror
    cases herror
  · obtain rfl := Except.ok.inj (hsame.symm.trans hparsed)
    have hunresolvable : Unresolvable tree file.path specifier := by
      by_cases hdirectory : NamesDirectory specifier
      · obtain ⟨location', hfirst⟩ := hnames hdirectory
        obtain rfl := hat.unique hfirst.fileAt
        rwa [FoundFirst.unique ⟨id.index, file, hfile, rfl, hfileAt⟩ hfirst]
      · exact unresolvable_spelling hrooted hat hfileAt hdirectory hspecifier
    -- The visit of the file has followed the specifier.
    have hlt := (Array.getElem?_eq_some_iff.1 hfile).1
    obtain ⟨file', hfile', hfollowed⟩ :=
      hsurveyed.settled.followed id (hsurveyed.all id hlt) hfile specifier hs
    obtain rfl := Option.some.inj (hfile.symm.trans hfile')
    rcases hfollowed with ⟨error, herror, -⟩ | ⟨target, htarget, -⟩
    · simp [hclean] at herror
    · rw [resolveImport_eq_error_iff.2 ⟨hunresolvable, rfl⟩] at htarget
      cases htarget

/-! ## When loading fails -/

theorem Modules.load_eq_error_iff {error : LoadError} :
    Modules.load tree roots = .error error ↔ (surveyed tree roots).errors.head? = some error := by
  rw [Modules.load_eq, ← Survey.outcome_eq_error_iff]
  cases (surveyed tree roots).outcome <;> simp [Except.map]

/-- A program cannot be loaded just if one of the files that the roots lead to is faulty. Each of these
files is found first by one path: by the first root that leads to it, if there is one. It is the path
that the file has if the program is loaded, and the path that is named if a specifier in the file keeps
it from being loaded. -/
theorem Modules.load_fails_iff (hrooted : tree.IsRooted) (roots : List Path) :
    (∀ {path : Path} {location : Location} {source : SourceTree}, Reachable tree roots path →
      tree.FileAt path location → parseFile tree path = .ok source →
        ∃! first, FoundFirst tree roots location first) ∧
    (∀ {location : Location} {first : Path}, FoundFirst tree roots location first →
      Reachable tree roots first ∧ tree.FileAt first location ∧
        ∀ root, FirstAt tree roots location root → first = root) ∧
    (∀ {modules : Modules}, Modules.load tree roots = .ok modules →
      ∀ {location : Location} {first : Path}, FoundFirst tree roots location first ↔
        ∃ file ∈ modules.files, file.path = first ∧ tree.FileAt first location) ∧
    (∀ {specifier : String} {importer : Path},
      Modules.load tree roots = .error (.unresolved specifier importer) →
        ∃ location, FoundFirst tree roots location importer) ∧
    ((∃ error, Modules.load tree roots = .error error) ↔
      ∃ path, Reachable tree roots path ∧ Faulty tree roots path) := by
  have hsurveyed := (surveyed_surveyed tree roots (Nat.lt_succ_self _)).1
  refine ⟨?_, ?_, ?_, ?_, ?_⟩
  · intro path location source hpath hat hparsed
    obtain ⟨first, hfirst⟩ := exists_foundFirst hrooted hpath hat hparsed
    exact ⟨first, hfirst, fun _ hother => hother.unique hfirst⟩
  · exact fun hfirst => ⟨hfirst.reachable, hfirst.fileAt, fun _ => hfirst.eq_root hrooted⟩
  · intro modules hload location first
    rw [Modules.load_eq] at hload
    rcases houtcome : (surveyed tree roots).outcome with error | discovery
    · rw [houtcome] at hload
      cases hload
    · rw [houtcome] at hload
      obtain rfl := Except.ok.inj hload
      simp only [FoundFirst, Survey.outcome_eq_ok houtcome, Array.mem_iff_getElem?]
      constructor
      · rintro ⟨i, file, hfile, hpath, hat⟩
        exact ⟨file, ⟨i, hfile⟩, hpath, hat⟩
      · rintro ⟨file, ⟨i, hfile⟩, hpath, hat⟩
        exact ⟨i, file, hfile, hpath, hat⟩
  · intro specifier importer hload
    rw [Modules.load_eq_error_iff] at hload
    exact (hsurveyed.blamed _ (List.mem_of_head? hload)).foundFirst
  · simp only [Modules.load_eq_error_iff]
    constructor
    · rintro ⟨error, herror⟩
      exact (hsurveyed.blamed _ (List.mem_of_head? herror)).exists_faulty
    · rintro ⟨path, hpath, hfaulty⟩
      cases herrors : (surveyed tree roots).errors with
      | nil => exact absurd hfaulty (not_faulty_of_surveyed hrooted herrors hpath)
      | cons error errors => exact ⟨error, rfl⟩

/-- A file that names its own directory, which two imports spell with an extension and without one. -/
def importedTree : FileTree where
  entries := [(["a.ts"], .file "import './foo.css/x';\n"),
    (["b.ts"], .file "import './foo.css/sub/../x';\n"), (["foo.css"], .directory),
    (["foo.css", "x.ts"], .file "import '.';\n"), (["foo.css", "sub"], .directory)]
  current := []

set_option maxRecDepth 100000 in
theorem loads_importedTree :
    (Modules.load importedTree [⟨"b.ts"⟩, ⟨"a.ts"⟩]).toOption.map (·.order) = none ∧
      (Modules.load importedTree [⟨"a.ts"⟩, ⟨"b.ts"⟩]).toOption.map (·.order) =
        some [⟨2⟩, ⟨0⟩, ⟨1⟩] := by
  decide +kernel

/-- The specifier is to blame if the file is found by the roundabout path. -/
theorem Modules.load_fails_iff_importedTree :
    (∃ path, Reachable importedTree [⟨"b.ts"⟩, ⟨"a.ts"⟩] path ∧
      Faulty importedTree [⟨"b.ts"⟩, ⟨"a.ts"⟩] path) ∧
    ¬ ∃ path, Reachable importedTree [⟨"a.ts"⟩, ⟨"b.ts"⟩] path ∧
      Faulty importedTree [⟨"a.ts"⟩, ⟨"b.ts"⟩] path := by
  obtain ⟨hfails, hloads⟩ := loads_importedTree
  obtain ⟨-, -, -, -, hiff⟩ := @Modules.load_fails_iff importedTree (by decide) [⟨"b.ts"⟩, ⟨"a.ts"⟩]
  obtain ⟨-, -, -, -, hiff'⟩ := @Modules.load_fails_iff importedTree (by decide) [⟨"a.ts"⟩, ⟨"b.ts"⟩]
  rw [← hiff, ← hiff']
  constructor
  · rcases hload : Modules.load importedTree [⟨"b.ts"⟩, ⟨"a.ts"⟩] with error | modules
    · exact ⟨error, rfl⟩
    · rw [hload] at hfails
      cases hfails
  · rintro ⟨error, herror⟩
    rw [herror] at hloads
    cases hloads

/-- A file that names its own directory, which is spelled with an extension or without one. -/
def spelledTree : FileTree where
  entries := [(["foo.css"], .directory), (["foo.css", "x.ts"], .file "import '.';\n"),
    (["foo.css", "sub"], .directory)]
  current := []

def plainRoot : Path := ⟨"foo.css/x.ts"⟩

def roundaboutRoot : Path := ⟨"foo.css/sub/../x.ts"⟩

set_option maxRecDepth 100000 in
theorem loads_spelledTree :
    (parseFile spelledTree roundaboutRoot).toOption.map (·.specifiers) = some ["."] ∧
      (Modules.load spelledTree [plainRoot, roundaboutRoot]).toOption.map (·.order) = some [⟨0⟩] := by
  decide +kernel

theorem unresolvable_roundaboutRoot : Unresolvable spelledTree roundaboutRoot "." := by
  refine ⟨by decide, by decide +kernel, ?_⟩
  have hextension : (importTarget roundaboutRoot ".").extension? = none := by decide +kernel
  simp [hextension]

/-- A specifier in a file that the roots lead to may have to lead to a file, by how a root is spelled,
and lead to none, and the program is loaded all the same. -/
theorem Modules.load_spelling : ¬ ∀ (tree : FileTree) (roots : List Path), tree.IsRooted →
    ((∃ error, Modules.load tree roots = .error error) ↔ ∃ path, Reachable tree roots path ∧
      ((∃ error, parseFile tree path = .error error) ∨ ∃ parsed, parseFile tree path = .ok parsed ∧
        ∃ specifier ∈ parsed.specifiers, Unresolvable tree path specifier)) := by
  intro h
  obtain ⟨hspecifiers, hloads⟩ := loads_spelledTree
  rcases hparsed : parseFile spelledTree roundaboutRoot with error | parsed
  · rw [hparsed] at hspecifiers
    cases hspecifiers
  · rw [hparsed] at hspecifiers
    have hspecifier : "." ∈ parsed.specifiers := by
      rw [show parsed.specifiers = ["."] from Option.some.inj hspecifiers]
      simp
    obtain ⟨error, herror⟩ := (h spelledTree [plainRoot, roundaboutRoot] (by decide)).2
      ⟨roundaboutRoot, .root (by simp), .inr ⟨parsed, hparsed, ".", hspecifier,
        unresolvable_roundaboutRoot⟩⟩
    rw [herror] at hloads
    cases hloads

end ComponentSchema
