import ComponentSchema.Proofs.Loader.FileSpellings
import Mathlib.Data.List.Nodup
import Mathlib.Data.List.Perm.Subperm
import Mathlib.Logic.Relation

/-!
# Discovery

What holds of the files of a program while they are found. A file is known by its location, and is
read at the path that leads to it first. It stays as it is from then on; only dependencies are added.

Results.
* `Sound.require`: a file that is required is found, and nothing else changes.
* `Sound.addDependency`: so is where a specifier leads.
* `Sound.length_le`: there are no more files than entries of the tree.
-/
namespace ComponentSchema

open Relation

/-! ## Imports -/

/-- A path leads to another through a specifier of its file. -/
def Leads (tree : FileTree) (path found : Path) : Prop :=
  ∃ parsed, parseFile tree path = .ok parsed ∧
    ∃ specifier ∈ parsed.specifiers, resolveImport tree path specifier = .ok (some found)

/-- The roots, and the paths that they lead to. -/
inductive Reachable (tree : FileTree) (roots : List Path) : Path → Prop where
  | root {path : Path} (h : path ∈ roots) : Reachable tree roots path
  | leads {path found : Path} (h : Reachable tree roots path) (hfound : Leads tree path found) :
    Reachable tree roots found

/-- A module has another among its dependencies. -/
def DependsOn (files : Array ModuleFile) (f g : ModuleId) : Prop :=
  ∃ file, files[f.index]? = some file ∧ ∃ specifier, (specifier, g) ∈ file.dependencies

/-- A module is the file at a location. -/
def StandsAt (tree : FileTree) (files : Array ModuleFile) (id : ModuleId) (location : Location) :
    Prop :=
  ∃ file, files[id.index]? = some file ∧ tree.FileAt file.path location

/-- The files are still there, and have no fewer dependencies. -/
def Kept (files files' : Array ModuleFile) : Prop :=
  ∀ (i : Nat) (file : ModuleFile), files[i]? = some file → ∃ file' : ModuleFile,
    files'[i]? = some file' ∧ file'.path = file.path ∧
    file'.tree = file.tree ∧ file.dependencies ⊆ file'.dependencies

section

variable {tree : FileTree} {files files' files'' : Array ModuleFile} {f g : ModuleId}
  {location location' : Location}

theorem Kept.refl (files : Array ModuleFile) : Kept files files :=
  fun _ file h => ⟨file, h, rfl, rfl, fun _ => id⟩

theorem Kept.trans (h : Kept files files') (h' : Kept files' files'') : Kept files files'' := by
  intro i file hfile
  obtain ⟨file', hfile', hpath, htree, hdependencies⟩ := h _ _ hfile
  obtain ⟨file'', hfile'', hpath', htree', hdependencies'⟩ := h' _ _ hfile'
  exact ⟨file'', hfile'', hpath'.trans hpath, htree'.trans htree,
    fun _ hd => hdependencies' (hdependencies hd)⟩

theorem Kept.dependsOn (h : Kept files files') (hf : DependsOn files f g) : DependsOn files' f g := by
  obtain ⟨file, hfile, specifier, hs⟩ := hf
  obtain ⟨file', hfile', -, -, hdependencies⟩ := h _ _ hfile
  exact ⟨file', hfile', specifier, hdependencies hs⟩

theorem Kept.transGen (h : Kept files files') (hf : TransGen (DependsOn files) f g) :
    TransGen (DependsOn files') f g := TransGen.mono (fun _ _ => h.dependsOn) _ _ hf

theorem Kept.standsAt (h : Kept files files') (hf : StandsAt tree files f location) :
    StandsAt tree files' f location := by
  obtain ⟨file, hfile, hat⟩ := hf
  obtain ⟨file', hfile', hpath, -⟩ := h _ _ hfile
  exact ⟨file', hfile', hpath.symm ▸ hat⟩

theorem Kept.size (h : Kept files files') : files.size ≤ files'.size := by
  by_contra hlt
  obtain ⟨file', hfile', -⟩ := h _ _ (Array.getElem?_eq_getElem (show files'.size < files.size by omega))
  simp at hfile'

theorem StandsAt.lt (h : StandsAt tree files f location) : f.index < files.size := by
  obtain ⟨file, hfile, -⟩ := h
  exact (Array.getElem?_eq_some_iff.1 hfile).1

theorem StandsAt.unique (h : StandsAt tree files f location) (h' : StandsAt tree files f location') :
    location = location' := by
  obtain ⟨file, hfile, hat⟩ := h
  obtain ⟨file', hfile', hat'⟩ := h'
  obtain rfl := Option.some.inj (hfile.symm.trans hfile')
  exact hat.unique hat'

theorem kept_push (files : Array ModuleFile) (file : ModuleFile) : Kept files (files.push file) := by
  intro i old hold
  have hlt := (Array.getElem?_eq_some_iff.1 hold).1
  exact ⟨old, by rw [Array.getElem?_push, if_neg (by omega), hold], rfl, rfl, fun _ => id⟩

end

namespace Discovery

/-! ## The files found so far -/

/-- What holds of the files. -/
structure Sound (tree : FileTree) (roots : List Path) (discovery : Discovery) : Prop where
  known : ∀ {location : Location} {id : ModuleId}, discovery.known.lookup location = some id ↔
    StandsAt tree discovery.files id location
  parsed : ∀ {i : Nat} {file : ModuleFile}, discovery.files[i]? = some file → parseFile tree file.path = .ok file.tree
  reachable : ∀ {i : Nat} {file : ModuleFile}, discovery.files[i]? = some file → Reachable tree roots file.path
  dependencies : ∀ {i : Nat} {file : ModuleFile}, discovery.files[i]? = some file →
    ∀ {specifier : String} {g : ModuleId}, (specifier, g) ∈ file.dependencies → specifier ∈ file.tree.specifiers ∧
      ∃ found location, resolveImport tree file.path specifier = .ok (some found) ∧
        tree.FileAt found location ∧ StandsAt tree discovery.files g location

section

variable {tree : FileTree} {roots : List Path} {discovery : Discovery} {f g : ModuleId}
  {path : Path} {location : Location}

/-- Which visits have begun and which have ended is nothing to what has been found. -/
theorem Sound.walked (hsound : Sound tree roots discovery) (visited finished : List ModuleId) :
    Sound tree roots { discovery with visited := visited, finished := finished } :=
  ⟨hsound.known, hsound.parsed, hsound.reachable, hsound.dependencies⟩

theorem Sound.injective (hsound : Sound tree roots discovery)
    (hf : StandsAt tree discovery.files f location) (hg : StandsAt tree discovery.files g location) :
    f = g := by
  rw [← hsound.known] at hf hg
  exact Option.some.inj (hf.symm.trans hg)

theorem Sound.standsAt (hsound : Sound tree roots discovery) (h : f.index < discovery.files.size) :
    ∃ location, StandsAt tree discovery.files f location := by
  have hfile := Array.getElem?_eq_getElem h
  obtain ⟨location, hat⟩ := fileAt_of_parseFile (hsound.parsed hfile)
  exact ⟨location, _, hfile, hat⟩

theorem known?_eq (h : tree.FileAt path location) :
    discovery.known? tree path = discovery.known.lookup location := by
  rw [known?, h.1]

theorem Sound.start : Sound tree roots start where
  known := by simp [Discovery.start, StandsAt]
  parsed := by simp [Discovery.start]
  reachable := by simp [Discovery.start]
  dependencies := by simp [Discovery.start]

theorem register_eq {parsed : Syntax.SourceTree} (hat : tree.FileAt path location) :
    (discovery.register tree path parsed).2 =
      { discovery with files := discovery.files.push ⟨path, parsed, []⟩,
                       known := (location, ⟨discovery.files.size⟩) :: discovery.known } := by
  simp only [Discovery.register, hat.1]

/-- What is there after a file was added was there before, or is that file. -/
theorem getElem?_push_cases {files : Array ModuleFile} {added file : ModuleFile} {i : Nat}
    (h : (files.push added)[i]? = some file) :
    files[i]? = some file ∨ i = files.size ∧ file = added := by
  rw [Array.getElem?_push] at h
  split at h
  · exact .inr ⟨‹_›, (Option.some.inj h).symm⟩
  · exact .inl h

/-- A new file is known by its location, and all others by theirs. -/
theorem Sound.known_push (hsound : Sound tree roots discovery) {parsed : Syntax.SourceTree}
    (hat : tree.FileAt path location) (hnew : discovery.known.lookup location = none)
    {location' : Location} {id : ModuleId} :
    ((location, ⟨discovery.files.size⟩) :: discovery.known).lookup location' = some id ↔
      StandsAt tree (discovery.files.push ⟨path, parsed, []⟩) id location' := by
  by_cases hlocation : location' = location
  · subst hlocation
    rw [List.lookup_cons, beq_self_eq_true]
    simp only [Option.some.injEq]
    constructor
    · rintro rfl
      exact ⟨_, Array.getElem?_push_size, hat⟩
    · rintro ⟨file, hfile, hfileAt⟩
      rcases getElem?_push_cases hfile with hold | ⟨hid, -⟩
      · rw [hsound.known.2 ⟨file, hold, hfileAt⟩] at hnew
        cases hnew
      · cases id
        exact congrArg ModuleId.mk hid.symm
  · rw [List.lookup_cons, beq_false_of_ne hlocation]
    simp only
    rw [hsound.known]
    constructor
    · exact (kept_push _ _).standsAt
    · rintro ⟨file, hfile, hfileAt⟩
      rcases getElem?_push_cases hfile with hold | ⟨-, rfl⟩
      · exact ⟨file, hold, hfileAt⟩
      · exact absurd (hfileAt.unique hat) hlocation

/-- A new file is found. -/
theorem Sound.register (hsound : Sound tree roots discovery) {parsed : Syntax.SourceTree}
    (hparsed : parseFile tree path = .ok parsed) (hpath : Reachable tree roots path)
    (hat : tree.FileAt path location) (hnew : discovery.known.lookup location = none) :
    Sound tree roots (discovery.register tree path parsed).2 := by
  rw [register_eq hat]
  refine ⟨hsound.known_push hat hnew, ?_, ?_, ?_⟩
  · intro i file hfile
    rcases getElem?_push_cases hfile with hold | ⟨-, rfl⟩
    · exact hsound.parsed hold
    · exact hparsed
  · intro i file hfile
    rcases getElem?_push_cases hfile with hold | ⟨-, rfl⟩
    · exact hsound.reachable hold
    · exact hpath
  · intro i file hfile specifier g hg
    rcases getElem?_push_cases hfile with hold | ⟨-, rfl⟩
    · obtain ⟨hs, found, target, hfound, hfoundAt, hgAt⟩ := hsound.dependencies hold hg
      exact ⟨hs, found, target, hfound, hfoundAt, (kept_push _ _).standsAt hgAt⟩
    · cases hg

theorem getElem?_addDependency (discovery : Discovery) (f g : ModuleId) (specifier : String) (i : Nat) :
    (discovery.addDependency f specifier g).files[i]? =
      if f.index = i then discovery.files[i]?.map fun file =>
        { file with dependencies := (specifier, g) :: file.dependencies }
      else discovery.files[i]? := by
  rw [Discovery.addDependency, Array.getElem?_modify]

theorem kept_addDependency (discovery : Discovery) (f g : ModuleId) (specifier : String) :
    Kept discovery.files (discovery.addDependency f specifier g).files := by
  intro i file hfile
  rw [getElem?_addDependency, hfile]
  split
  · exact ⟨_, rfl, rfl, rfl, List.subset_cons_self _ _⟩
  · exact ⟨file, rfl, rfl, rfl, fun _ => id⟩

theorem standsAt_addDependency {id : ModuleId} {specifier : String} :
    StandsAt tree (discovery.addDependency f specifier g).files id location ↔
      StandsAt tree discovery.files id location := by
  refine ⟨fun ⟨file, hfile, hat⟩ => ?_, (kept_addDependency discovery f g specifier).standsAt⟩
  rw [getElem?_addDependency] at hfile
  split at hfile
  · obtain ⟨old, hold, rfl⟩ := Option.map_eq_some_iff.1 hfile
    exact ⟨old, hold, hat⟩
  · exact ⟨file, hfile, hat⟩

theorem dependsOn_addDependency {file : ModuleFile} (hfile : discovery.files[f.index]? = some file)
    (specifier : String) (g : ModuleId) :
    DependsOn (discovery.addDependency f specifier g).files f g := by
  refine ⟨{ file with dependencies := (specifier, g) :: file.dependencies }, ?_, specifier,
    List.mem_cons_self ..⟩
  rw [getElem?_addDependency, if_pos rfl, hfile]
  rfl

/-- A specifier of a file is resolved. -/
theorem Sound.addDependency (hsound : Sound tree roots discovery) {file : ModuleFile}
    {specifier : String} {found : Path} (hfile : discovery.files[f.index]? = some file)
    (hs : specifier ∈ file.tree.specifiers)
    (hfound : resolveImport tree file.path specifier = .ok (some found))
    (hat : tree.FileAt found location) (hg : StandsAt tree discovery.files g location) :
    Sound tree roots (discovery.addDependency f specifier g) := by
  refine ⟨?_, ?_, ?_, ?_⟩
  · intro location id
    rw [standsAt_addDependency]
    exact hsound.known
  all_goals
    intro i file' hfile'
    rw [getElem?_addDependency] at hfile'
    split at hfile'
  · obtain ⟨old, hold, rfl⟩ := Option.map_eq_some_iff.1 hfile'
    exact (hsound.parsed hold : parseFile tree old.path = .ok old.tree)
  · exact hsound.parsed hfile'
  · obtain ⟨old, hold, rfl⟩ := Option.map_eq_some_iff.1 hfile'
    exact (hsound.reachable hold : Reachable tree roots old.path)
  · exact hsound.reachable hfile'
  · obtain ⟨old, hold, rfl⟩ := Option.map_eq_some_iff.1 hfile'
    simp only [standsAt_addDependency]
    intro specifier' g' hg'
    rcases List.mem_cons.1 hg' with hnew | hg'
    · obtain ⟨rfl, rfl⟩ := Prod.mk.inj hnew
      rename_i hindex
      subst hindex
      obtain rfl := Option.some.inj (hfile.symm.trans hold)
      exact ⟨hs, found, location, hfound, hat, hg⟩
    · exact hsound.dependencies hold hg'
  · simp only [standsAt_addDependency]
    exact hsound.dependencies hfile'

/-- Different modules are different entries of the tree. -/
theorem Sound.length_le (hsound : Sound tree roots discovery) {ids : List ModuleId}
    (hnodup : ids.Nodup) (hlt : ∀ id ∈ ids, id.index < discovery.files.size) :
    ids.length ≤ tree.entries.length := by
  have hlocation : ∀ id : ModuleId, ∃ location, id.index < discovery.files.size →
      StandsAt tree discovery.files id location := by
    intro id
    by_cases h : id.index < discovery.files.size
    · obtain ⟨location, hat⟩ := hsound.standsAt h
      exact ⟨location, fun _ => hat⟩
    · exact ⟨[], fun h' => absurd h' h⟩
  choose location hat using hlocation
  have hdistinct : (ids.map location).Nodup := by
    refine hnodup.map_on fun f hf g hg hfg => ?_
    exact hsound.injective (hat f (hlt f hf)) (hfg ▸ hat g (hlt g hg))
  have hsubset : ids.map location ⊆ tree.entries.map Prod.fst := by
    intro l hl
    obtain ⟨f, hf, rfl⟩ := List.mem_map.1 hl
    obtain ⟨file, -, -, text, hentry⟩ := hat f (hlt f hf)
    exact FileTree.mem_entries_of_file hentry
  have hlength := (hdistinct.subperm hsubset).length_le
  rwa [List.length_map, List.length_map] at hlength

end

/-! ## Files that are required -/

/-- Nothing but the files changes, and no more than one of them is new. -/
structure Required (tree : FileTree) (discovery discovery' : Discovery) (g : ModuleId)
    (location : Location) : Prop where
  files : ∀ i < discovery.files.size, discovery'.files[i]? = discovery.files[i]?
  found : ∀ f : ModuleId, f.index < discovery'.files.size → f.index < discovery.files.size ∨ f = g
  standsAt : StandsAt tree discovery'.files g location
  visited : discovery'.visited = discovery.visited
  finished : discovery'.finished = discovery.finished

section

variable {tree : FileTree} {roots : List Path} {discovery discovery' : Discovery} {f g : ModuleId}
  {path : Path} {location : Location}

theorem Required.kept (h : Required tree discovery discovery' g location) :
    Kept discovery.files discovery'.files := by
  intro i file hfile
  have hlt := (Array.getElem?_eq_some_iff.1 hfile).1
  exact ⟨file, (h.files i hlt).trans hfile, rfl, rfl, fun _ => id⟩

theorem Required.lt_iff (h : Required tree discovery discovery' g location) :
    f.index < discovery'.files.size ↔ f.index < discovery.files.size ∨ f = g := by
  refine ⟨h.found f, ?_⟩
  rintro (hlt | rfl)
  · exact Nat.lt_of_lt_of_le hlt h.kept.size
  · exact h.standsAt.lt

/-- What stands anywhere did before, or it is the file that was required. -/
theorem Required.standsAt_cases (h : Required tree discovery discovery' g location)
    {location' : Location} (hf : StandsAt tree discovery'.files f location') :
    StandsAt tree discovery.files f location' ∨ f = g ∧ location' = location := by
  rcases h.found f hf.lt with hlt | rfl
  · obtain ⟨file, hfile, hat⟩ := hf
    rw [h.files _ hlt] at hfile
    exact .inl ⟨file, hfile, hat⟩
  · exact .inr ⟨rfl, hf.unique h.standsAt⟩

theorem Sound.required_register (hsound : Sound tree roots discovery) {parsed : Syntax.SourceTree}
    (hparsed : parseFile tree path = .ok parsed) (hpath : Reachable tree roots path)
    (hat : tree.FileAt path location) (hnew : discovery.known.lookup location = none) :
    Sound tree roots (discovery.register tree path parsed).2 ∧
      Required tree discovery (discovery.register tree path parsed).2
        (discovery.register tree path parsed).1 location := by
  have hfiles : (discovery.register tree path parsed).2.files =
      discovery.files.push ⟨path, parsed, []⟩ := rfl
  refine ⟨hsound.register hparsed hpath hat hnew, ⟨?_, ?_, ?_, rfl, rfl⟩⟩
  · intro i hi
    rw [hfiles, Array.getElem?_push, if_neg (by omega)]
  · intro f hf
    rw [hfiles, Array.size_push] at hf
    rcases Nat.lt_or_ge f.index discovery.files.size with hlt | hge
    · exact .inl hlt
    · exact .inr (congrArg ModuleId.mk (show f.index = discovery.files.size by omega))
  · exact ⟨_, hfiles ▸ Array.getElem?_push_size, hat⟩

/-- A file is read when it is not known. -/
theorem Sound.require (hsound : Sound tree roots discovery) (hpath : Reachable tree roots path)
    (hat : tree.FileAt path location) (h : discovery.require tree path = .ok (g, discovery')) :
    Sound tree roots discovery' ∧ Required tree discovery discovery' g location := by
  unfold Discovery.require at h
  rw [known?_eq hat] at h
  rcases hknown : discovery.known.lookup location with _ | id
  · rw [hknown] at h
    rcases hparsed : parseFile tree path with cause | parsed
    · simp [hparsed, Except.map] at h
    · rw [hparsed] at h
      have hrequired := hsound.required_register hparsed hpath hat hknown
      rwa [Except.ok.inj h] at hrequired
  · rw [hknown] at h
    obtain ⟨rfl, rfl⟩ := Prod.mk.inj (Except.ok.inj h)
    exact ⟨hsound, ⟨fun _ _ => rfl, fun _ => .inl, hsound.known.1 hknown, rfl, rfl⟩⟩

theorem require_eq_error {error : LoadError} (h : discovery.require tree path = .error error) :
    parseFile tree path = .error error := by
  unfold Discovery.require at h
  split at h
  · cases h
  · rcases hparsed : parseFile tree path with cause | parsed
    · simpa [hparsed, Except.map] using h
    · simp [hparsed, Except.map] at h

theorem Required.keptFiles (h : Required tree discovery discovery' g location) (f : ModuleId)
    (specifier : String) : Kept discovery.files (discovery'.addDependency f specifier g).files :=
  h.kept.trans (kept_addDependency discovery' f g specifier)

end

end Discovery

/-! ## Loaded programs -/

/-- A program of which something is known has been loaded. -/
theorem Modules.exists_load {tree : FileTree} {roots : List Path} {α : Type} {f : Modules → α} {a : α}
    (h : (Modules.load tree roots).toOption.map f = some a) :
    ∃ modules, Modules.load tree roots = .ok modules ∧ f modules = a := by
  cases hload : Modules.load tree roots with
  | error => simp [hload, Except.toOption] at h
  | ok modules => exact ⟨modules, rfl, by simpa [hload, Except.toOption] using h⟩

end ComponentSchema
