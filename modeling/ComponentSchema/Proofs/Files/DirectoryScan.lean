import ComponentSchema.Files.Scan
import Mathlib.Data.List.Forall2
import Mathlib.Data.String.Basic

/-!
# What a scan finds

A scan lists the inputs that are no directories, then what it finds below the others. Three kinds of
repetition meet in it: an input given twice, a file found from two directories, and a file found that
was also given. In all of them paths are compared by their components, so that two spellings of a path
count as one; only patterns look at how a path is spelled.

Paths are ordered strictly by their components, so a list of paths that increases is given by the paths
in it, up to their spelling. That is why the order and the repetition of directories do not matter.

Results.
* `Path.increasing_insertPath`, `Path.listed_insertPath`: a path is put into its place once.
* `FileTree.explicitFiles_eq`: the first spelling of each input that is no directory.
* `FileTree.scan_explicit_then_found`: what a scan lists, and in which order.
-/
namespace ComponentSchema

namespace Path

/-! ## The order of paths -/

namespace Component

theorem lt_irrefl (a : Component) : a.lt a = false := by
  cases a with
  | normal name => simp [Component.lt]
  | root | current | parent => rfl

theorem lt_normal {a b : String} : (normal a).lt (normal b) = true ↔ a < b := by
  simp only [Component.lt, decide_eq_true_eq]

theorem lt_trans {a b c : Component} (hab : a.lt b = true) (hbc : b.lt c = true) :
    a.lt c = true := by
  cases a <;> cases b <;> cases c <;> first
    | rfl
    | exact absurd hab Bool.false_ne_true
    | exact absurd hbc Bool.false_ne_true
    | exact lt_normal.2 (String.lt_trans (lt_normal.1 hab) (lt_normal.1 hbc))

theorem eq_of_not_lt {a b : Component} (hab : a.lt b = false) (hba : b.lt a = false) : a = b := by
  cases a <;> cases b <;> first
    | rfl
    | exact absurd hab.symm Bool.false_ne_true
    | exact absurd hba.symm Bool.false_ne_true
    | rw [← Bool.not_eq_true, lt_normal, String.not_lt] at hab hba
      rw [String.le_antisymm hba hab]

end Component

theorem componentsLt_irrefl (a : List Component) : componentsLt a a = false := by
  induction a with
  | nil => rfl
  | cons first rest ih => simp [componentsLt, ih]

theorem componentsLt_trans {a b c : List Component} (hab : componentsLt a b = true)
    (hbc : componentsLt b c = true) : componentsLt a c = true := by
  induction a generalizing b c with
  | nil => cases b <;> cases c <;> simp_all [componentsLt]
  | cons first rest ih =>
    rcases b with _ | ⟨second, rest'⟩
    · cases hab
    · rcases c with _ | ⟨third, rest''⟩
      · cases hbc
      · simp only [componentsLt] at hab hbc ⊢
        by_cases hfirst : first = second
        · subst hfirst
          by_cases hthird : first = third
          · subst hthird
            simp only [beq_self_eq_true, if_true] at hab hbc ⊢
            exact ih hab hbc
          · simpa [hthird] using hbc
        · by_cases hsecond : second = third
          · subst hsecond
            simpa [hfirst] using hab
          · simp only [beq_iff_eq, hfirst, hsecond, if_false] at hab hbc
            have hlt := Component.lt_trans hab hbc
            have hne : first ≠ third := by
              rintro rfl
              simp [Component.lt_irrefl] at hlt
            simpa [hne] using hlt

theorem eq_of_not_componentsLt {a b : List Component} (hab : componentsLt a b = false)
    (hba : componentsLt b a = false) : a = b := by
  induction a generalizing b with
  | nil => cases b <;> simp_all [componentsLt]
  | cons first rest ih =>
    rcases b with _ | ⟨second, rest'⟩
    · cases hba
    · by_cases hfirst : first = second
      · subst hfirst
        simp only [componentsLt, beq_self_eq_true, if_true] at hab hba
        rw [ih hab hba]
      · simp only [componentsLt, beq_iff_eq, hfirst, Ne.symm hfirst, if_false] at hab hba
        exact absurd (Component.eq_of_not_lt hab hba) hfirst

theorem same_iff {a b : Path} : a.same b = true ↔ a.components = b.components := by
  simp [same]

/-- Paths in strictly increasing order. -/
def Increasing (paths : List Path) : Prop := paths.Pairwise fun a b => a.lt b = true

/-- Whether a path is in a list of paths, under some spelling. -/
def ListedIn (path : Path) (paths : List Path) : Prop := ∃ other ∈ paths, other.same path = true

/-- Increasing lists of the same paths differ in spelling only. -/
theorem Increasing.forall₂_same {paths paths' : List Path} (h : Increasing paths)
    (h' : Increasing paths') (hlisted : ∀ path, ListedIn path paths ↔ ListedIn path paths') :
    List.Forall₂ (fun a b => a.same b = true) paths paths' := by
  have hsorted : ∀ {paths : List Path}, Increasing paths →
      (paths.map components).Pairwise fun a b => componentsLt a b = true :=
    fun h => List.pairwise_map.2 h
  have hnodup : ∀ {paths : List Path}, Increasing paths → (paths.map components).Nodup := fun h =>
    (hsorted h).imp fun hlt heq => by simp [heq, componentsLt_irrefl] at hlt
  have hmem : ∀ a, a ∈ paths.map components ↔ a ∈ paths'.map components := by
    have hlisted' : ∀ (paths : List Path) (path : Path),
        path.components ∈ paths.map components ↔ ListedIn path paths := by
      intro paths path
      simp only [List.mem_map, ListedIn, same_iff]
    intro a
    constructor
    · intro ha
      obtain ⟨path, -, rfl⟩ := List.mem_map.1 ha
      exact (hlisted' _ _).2 ((hlisted path).1 ((hlisted' _ _).1 ha))
    · intro ha
      obtain ⟨path, -, rfl⟩ := List.mem_map.1 ha
      exact (hlisted' _ _).2 ((hlisted path).2 ((hlisted' _ _).1 ha))
  have hperm := (List.perm_ext_iff_of_nodup (hnodup h) (hnodup h')).2 hmem
  have heq : paths.map components = paths'.map components := by
    refine hperm.eq_of_pairwise (fun a b _ _ hab hba => ?_) (hsorted h) (hsorted h')
    have hlt := componentsLt_trans hab hba
    rw [componentsLt_irrefl] at hlt
    cases hlt
  rw [← List.forall₂_eq_eq_eq, List.forall₂_map_left_iff, List.forall₂_map_right_iff] at heq
  exact heq.imp fun _ _ => same_iff.2

/-! ## Paths in their places -/

theorem mem_insertPath {path other : Path} {paths : List Path} (h : other ∈ insertPath path paths) :
    other = path ∨ other ∈ paths := by
  induction paths with
  | nil => exact .inl (List.mem_singleton.1 h)
  | cons first rest ih =>
    unfold insertPath at h
    split at h
    · exact List.mem_cons.1 h
    · split at h
      · rcases List.mem_cons.1 h with rfl | h
        · exact .inr (List.mem_cons_self ..)
        · exact (ih h).imp_right (List.mem_cons_of_mem _)
      · exact .inr h

theorem listed_insertPath {path other : Path} {paths : List Path} :
    ListedIn other (insertPath path paths) ↔ path.same other = true ∨ ListedIn other paths := by
  induction paths with
  | nil => simp [insertPath, ListedIn]
  | cons first rest ih =>
    have hcons : ∀ (first : Path) (paths : List Path),
        ListedIn other (first :: paths) ↔ first.same other = true ∨ ListedIn other paths := by
      simp [ListedIn]
    unfold insertPath
    split
    · exact hcons _ _
    · rename_i hpath
      split
      · rw [hcons, hcons, ih, or_left_comm]
      · -- neither comes before the other, so `first` is the path itself
        rename_i hfirst
        have heq : path.components = first.components :=
          eq_of_not_componentsLt (by simpa [lt] using hpath) (by simpa [lt] using hfirst)
        rw [hcons, same, same, heq, ← or_assoc, or_self]

theorem increasing_insertPath {path : Path} {paths : List Path} (h : Increasing paths) :
    Increasing (insertPath path paths) := by
  induction paths with
  | nil => exact List.pairwise_singleton _ _
  | cons first rest ih =>
    obtain ⟨hfirst, hrest⟩ := List.pairwise_cons.1 h
    unfold insertPath
    split
    · rename_i hlt
      refine List.pairwise_cons.2 ⟨fun other hother => ?_, h⟩
      rcases List.mem_cons.1 hother with rfl | hother
      · exact hlt
      · exact componentsLt_trans hlt (hfirst other hother)
    · split
      · rename_i hlt
        refine List.pairwise_cons.2 ⟨fun other hother => ?_, ih hrest⟩
        rcases mem_insertPath hother with rfl | hother
        · exact hlt
        · exact hfirst other hother
      · exact h

/-- Paths put into their places, one after the other. -/
def insertAll (paths found : List Path) : List Path :=
  paths.foldl (fun found path => insertPath path found) found

theorem increasing_insertAll {paths found : List Path} (h : Increasing found) :
    Increasing (insertAll paths found) := by
  induction paths generalizing found with
  | nil => exact h
  | cons path rest ih => exact ih (increasing_insertPath h)

theorem mem_insertAll {other : Path} {paths found : List Path} (h : other ∈ insertAll paths found) :
    other ∈ paths ∨ other ∈ found := by
  induction paths generalizing found with
  | nil => exact .inr h
  | cons path rest ih =>
    rcases ih h with hrest | hfound
    · exact .inl (List.mem_cons_of_mem _ hrest)
    · rcases mem_insertPath hfound with rfl | hfound
      · exact .inl (List.mem_cons_self ..)
      · exact .inr hfound

theorem listed_insertAll {other : Path} {paths found : List Path} :
    ListedIn other (insertAll paths found) ↔ ListedIn other paths ∨ ListedIn other found := by
  induction paths generalizing found with
  | nil => simp [insertAll, ListedIn]
  | cons path rest ih =>
    have hcons : ListedIn other (path :: rest) ↔ path.same other = true ∨ ListedIn other rest := by
      simp [ListedIn]
    have hfold : insertAll (path :: rest) found = insertAll rest (insertPath path found) := rfl
    rw [hfold, ih, listed_insertPath, hcons, or_assoc, or_left_comm]

end Path

/-! ## What is left out -/

/-- What a scan leaves out: what lies at or below an ignored path, what a pattern matches, and test
files if that is asked for. -/
inductive LeavesOut (base : Path) (ignores : List String) (tests : Bool) (path : Path) : Prop where
  | below {text : String} (h : text ∈ ignores) (hplain : Ignore.hasWildcard text = false)
    (hstarts : path.startsWith (base.join ⟨text⟩) = true) : LeavesOut base ignores tests path
  | matching {text : String} {pattern : Glob} (h : text ∈ ignores)
    (hwildcard : Ignore.hasWildcard text = true) (hpattern : Glob.ofText text = .ok pattern)
    (haccepts : pattern.accepts path.text.toList = true) : LeavesOut base ignores tests path
  | test {text : String} {pattern : Glob} (htests : tests = true) (h : text ∈ Ignore.testPatterns)
    (hpattern : Glob.ofText text = .ok pattern)
    (haccepts : pattern.accepts path.text.toList = true) : LeavesOut base ignores tests path

theorem Ignore.hasWildcard_testPatterns {text : String} (h : text ∈ testPatterns) :
    hasWildcard text = true :=
  (by decide : ∀ text ∈ testPatterns, hasWildcard text = true) text h

theorem leavesOut_iff {base : Path} {ignores : List String} {tests : Bool} {path : Path} :
    (ignoresOf base ignores tests).any (·.covers path) = true ↔ LeavesOut base ignores tests path := by
  have htexts : ∀ text, text ∈ (ignores ++ if tests then Ignore.testPatterns else []) ↔
      text ∈ ignores ∨ tests = true ∧ text ∈ Ignore.testPatterns := by
    intro text
    cases tests <;> simp
  simp only [ignoresOf, List.any_eq_true, List.mem_filterMap, htexts]
  constructor
  · rintro ⟨ignore, ⟨text, htext, hignore⟩, hcovers⟩
    unfold Ignore.ofText? at hignore
    split at hignore
    · rename_i hwildcard
      split at hignore
      · rename_i pattern hpattern
        obtain rfl := Option.some.inj hignore
        rcases htext with htext | ⟨htests, htext⟩
        · exact .matching htext hwildcard hpattern hcovers
        · exact .test htests htext hpattern hcovers
      · cases hignore
    · rename_i hplain
      obtain rfl := Option.some.inj hignore
      rcases htext with htext | ⟨-, htext⟩
      · exact .below htext (Bool.eq_false_iff.2 hplain) hcovers
      · exact absurd (Ignore.hasWildcard_testPatterns htext) hplain
  · rintro (⟨htext, hplain, hcovers⟩ | ⟨htext, hwildcard, hpattern, hcovers⟩ |
      ⟨htests, htext, hpattern, hcovers⟩)
    · exact ⟨.below (base.join ⟨_⟩), ⟨_, .inl htext, by simp [Ignore.ofText?, hplain]⟩, hcovers⟩
    · exact ⟨.matching _, ⟨_, .inl htext, by simp [Ignore.ofText?, hwildcard, hpattern]⟩, hcovers⟩
    · have hwildcard := Ignore.hasWildcard_testPatterns htext
      exact ⟨.matching _, ⟨_, .inr ⟨htests, htext⟩, by simp [Ignore.ofText?, hwildcard, hpattern]⟩,
        hcovers⟩

/-! ## What is found -/

namespace FileTree

/-- A file below a directory, under the path by which a walk from the directory gets to it. -/
def WalksTo (tree : FileTree) (directory path : Path) : Prop :=
  ∃ location names text, tree.locate directory = .ok location ∧
    (location ++ names, Entry.file text) ∈ tree.entries ∧
      path = names.foldl (fun path name => path.join ⟨name⟩) directory

theorem mem_walk {tree : FileTree} {directory path : Path} :
    path ∈ tree.walk directory ↔ tree.WalksTo directory path := by
  unfold walk WalksTo filesBelow
  rcases tree.locate directory with cause | location
  · simp
  · simp only [List.mem_map, List.mem_filterMap, Prod.exists, Except.ok.injEq]
    constructor
    · rintro ⟨names, ⟨place, entry, hentry, hnames⟩, rfl⟩
      rcases entry with _ | text
      · cases hnames
      · simp only at hnames
        split at hnames
        · rename_i hprefix
          obtain rfl := Option.some.inj hnames
          obtain ⟨rest, rfl⟩ := List.isPrefixOf_iff_prefix.1 hprefix
          exact ⟨location, rest, text, rfl, hentry, by rw [List.drop_left]⟩
        · cases hnames
    · rintro ⟨_, names, text, rfl, hentry, rfl⟩
      refine ⟨names, ⟨_, _, hentry, ?_⟩, rfl⟩
      simp [List.isPrefixOf_iff_prefix]

/-- A TypeScript file that stands below an input and is not left out. -/
structure Finds (tree : FileTree) (base : Path) (inputs : List Path) (ignores : List String)
    (tests : Bool) (path : Path) : Prop where
  below : ∃ input ∈ inputs, tree.isDirectory (base.join input) = true ∧
    tree.WalksTo (base.join input) path
  extension : path.extension? = some "ts" ∨ path.extension? = some "tsx"
  kept : ¬ LeavesOut base ignores tests path

theorem isScanned_iff {base : Path} {ignores : List String} {tests : Bool} {path : Path} :
    isScanned (ignoresOf base ignores tests) path = true ↔
      (path.extension? = some "ts" ∨ path.extension? = some "tsx") ∧
        ¬ LeavesOut base ignores tests path := by
  rw [← leavesOut_iff, isScanned, Bool.and_eq_true, Bool.not_eq_true, Bool.not_eq_true']
  refine and_congr ?_ Iff.rfl
  cases path.extension? with
  | none => simp
  | some extension => simp [scannedExtensions, or_comm]

variable (tree : FileTree) (base : Path) (inputs : List Path) (ignores : List String) (tests : Bool)

/-- The inputs that lead to no directory, seen from the base directory. -/
def givenFiles : List Path := (inputs.map base.join).filter fun input => !tree.isDirectory input

/-- Of every input that is no directory, the first spelling is listed. -/
theorem explicitFiles_eq : tree.explicitFiles (inputs.map base.join) =
    (tree.givenFiles base inputs).eraseDupsBy fun a b => b.same a := by
  -- what is listed already is not listed again, under no spelling
  have hfold : ∀ inputs files : List Path,
      inputs.foldl (fun files input =>
          if tree.isDirectory input || files.any (·.same input) then files else files ++ [input])
        files =
      files ++ ((inputs.filter fun input => !tree.isDirectory input).filter fun input =>
        !files.any (·.same input)).eraseDupsBy fun a b => b.same a := by
    intro inputs
    induction inputs with
    | nil => simp [List.eraseDupsBy, List.eraseDupsBy.loop]
    | cons input rest ih =>
      intro files
      rw [List.foldl_cons, ih]
      by_cases hdirectory : tree.isDirectory input = true
      · simp [hdirectory]
      · by_cases hlisted : files.any (·.same input) = true
        · simp only [hdirectory, hlisted, Bool.or_true, if_true, Bool.not_false,
            List.filter_cons_of_pos, Bool.not_true, Bool.false_eq_true, not_false_eq_true,
            List.filter_cons_of_neg]
        · have hfilter : ∀ other : Path, (!(files ++ [input]).any (·.same other)) =
              (decide (input.same other = false) && !files.any (·.same other)) := by
            intro other
            simp only [List.any_append, List.any_cons, List.any_nil, Bool.or_false]
            cases input.same other <;> simp
          simp only [hdirectory, hlisted, Bool.or_self, Bool.false_eq_true, if_false, Bool.not_false,
            List.filter_cons_of_pos, List.eraseDupsBy_cons, List.append_assoc, List.singleton_append,
            List.filter_filter, hfilter, Bool.and_assoc]
  rw [explicitFiles, hfold]
  simp [givenFiles]

theorem discoveredFiles_eq (ignores : List Ignore) (inputs : List Path) :
    tree.discoveredFiles ignores inputs = Path.insertAll
      ((inputs.filter tree.isDirectory).flatMap fun input =>
        (tree.walk input).filter (isScanned ignores)) [] := by
  rw [discoveredFiles, Path.insertAll, List.foldl_flatMap]

theorem mem_scanned {path : Path} :
    path ∈ ((inputs.map base.join).filter tree.isDirectory).flatMap (fun input =>
        (tree.walk input).filter (isScanned (ignoresOf base ignores tests))) ↔
      tree.Finds base inputs ignores tests path := by
  simp only [List.mem_flatMap, List.mem_filter, List.mem_map, mem_walk, isScanned_iff]
  constructor
  · rintro ⟨_, ⟨⟨input, hinput, rfl⟩, hdirectory⟩, hwalk, hextension, hkept⟩
    exact ⟨⟨input, hinput, hdirectory, hwalk⟩, hextension, hkept⟩
  · rintro ⟨⟨input, hinput, hdirectory, hwalk⟩, hextension, hkept⟩
    exact ⟨_, ⟨⟨input, hinput, rfl⟩, hdirectory⟩, hwalk, hextension, hkept⟩

/-- What a scan finds below directories, and was not given. -/
def foundFiles : List Path :=
  (tree.discoveredFiles (ignoresOf base ignores tests) (inputs.map base.join)).filter fun path =>
    !(tree.explicitFiles (inputs.map base.join)).any (·.same path)

theorem increasing_foundFiles : Path.Increasing (tree.foundFiles base inputs ignores tests) := by
  rw [foundFiles, discoveredFiles_eq]
  exact (Path.increasing_insertAll .nil).filter _

theorem finds_of_mem_foundFiles {path : Path} (h : path ∈ tree.foundFiles base inputs ignores tests) :
    tree.Finds base inputs ignores tests path ∧
      ¬ path.ListedIn (tree.explicitFiles (inputs.map base.join)) := by
  obtain ⟨hfound, hnew⟩ := List.mem_filter.1 h
  rw [discoveredFiles_eq] at hfound
  refine ⟨?_, by simpa [Path.ListedIn] using hnew⟩
  rcases Path.mem_insertAll hfound with hscanned | hnone
  · exact (mem_scanned ..).1 hscanned
  · cases hnone

theorem listed_foundFiles {path : Path} : path.ListedIn (tree.foundFiles base inputs ignores tests) ↔
    (∃ other, tree.Finds base inputs ignores tests other ∧ other.same path = true) ∧
      ¬ path.ListedIn (tree.explicitFiles (inputs.map base.join)) := by
  have hgiven : ∀ {other : Path}, other.same path = true →
      (other.ListedIn (tree.explicitFiles (inputs.map base.join)) ↔
        path.ListedIn (tree.explicitFiles (inputs.map base.join))) := by
    intro other hsame
    simp only [Path.ListedIn, Path.same_iff, Path.same_iff.1 hsame]
  constructor
  · rintro ⟨other, hother, hsame⟩
    obtain ⟨hfinds, hnew⟩ := finds_of_mem_foundFiles tree base inputs ignores tests hother
    exact ⟨⟨other, hfinds, hsame⟩, mt (hgiven hsame).2 hnew⟩
  · rintro ⟨⟨found, hfinds, hsame⟩, hnew⟩
    have hscanned : found.ListedIn
        (tree.discoveredFiles (ignoresOf base ignores tests) (inputs.map base.join)) := by
      rw [discoveredFiles_eq, Path.listed_insertAll]
      exact .inl ⟨found, (mem_scanned ..).2 hfinds, Path.same_iff.2 rfl⟩
    obtain ⟨other, hother, hfound⟩ := hscanned
    have hsame' : other.same path = true :=
      Path.same_iff.2 ((Path.same_iff.1 hfound).trans (Path.same_iff.1 hsame))
    refine ⟨other, List.mem_filter.2 ⟨hother, ?_⟩, hsame'⟩
    simpa [Path.ListedIn] using mt (hgiven hsame').1 hnew

/-- A scan lists the inputs that are no directories, the first spelling of each and in the order in
which they are given, whatever is left out. After them it lists what it finds below the directories and
was not given: in increasing order, every file that is found, under one spelling. Directories may be
given in another order, and more than once. -/
theorem scan_explicit_then_found : ∃ given found : List Path,
    tree.scan base inputs ignores tests = given ++ found ∧
    given = (tree.givenFiles base inputs).eraseDupsBy (fun a b => b.same a) ∧
    Path.Increasing found ∧
    (∀ path ∈ found, tree.Finds base inputs ignores tests path) ∧
    (∀ path : Path, path.ListedIn found ↔
      (∃ other, tree.Finds base inputs ignores tests other ∧ other.same path = true) ∧
        ¬ path.ListedIn given) ∧
    ∀ inputs' : List Path, tree.givenFiles base inputs' = tree.givenFiles base inputs →
      (∀ input, tree.isDirectory (base.join input) = true → (input ∈ inputs' ↔ input ∈ inputs)) →
        ∃ found', tree.scan base inputs' ignores tests = given ++ found' ∧
          List.Forall₂ (fun a b => a.same b = true) found' found := by
  have hgiven := tree.explicitFiles_eq base inputs
  refine ⟨tree.explicitFiles (inputs.map base.join), tree.foundFiles base inputs ignores tests, rfl,
    hgiven, increasing_foundFiles .., fun path hpath => (finds_of_mem_foundFiles _ _ _ _ _ hpath).1,
    fun path => listed_foundFiles .., fun inputs' hfiles hdirectories => ?_⟩
  have hexplicit : tree.explicitFiles (inputs'.map base.join) =
      tree.explicitFiles (inputs.map base.join) := by
    rw [hgiven, explicitFiles_eq, hfiles]
  have hfinds : ∀ path, tree.Finds base inputs' ignores tests path ↔
      tree.Finds base inputs ignores tests path := by
    intro path
    constructor
    · rintro ⟨⟨input, hinput, hdirectory, hwalk⟩, hextension, hkept⟩
      exact ⟨⟨input, (hdirectories input hdirectory).1 hinput, hdirectory, hwalk⟩, hextension, hkept⟩
    · rintro ⟨⟨input, hinput, hdirectory, hwalk⟩, hextension, hkept⟩
      exact ⟨⟨input, (hdirectories input hdirectory).2 hinput, hdirectory, hwalk⟩, hextension, hkept⟩
  refine ⟨tree.foundFiles base inputs' ignores tests, ?_, ?_⟩
  · rw [← hexplicit]
    rfl
  · refine (increasing_foundFiles ..).forall₂_same (increasing_foundFiles ..) fun path => ?_
    simp only [listed_foundFiles, hfinds, hexplicit]

/-- A directory of sources below `/w`. -/
def sourceTree : FileTree where
  entries := [
    (["w"], .directory),
    (["w", "src"], .directory),
    (["w", "src", "b.tsx"], .file (some "")),
    (["w", "src", "a.ts"], .file (some "")),
    (["w", "src", "a.test.ts"], .file (some "")),
    (["w", "src", "notes.md"], .file (some "")),
    (["w", "src", "gen"], .directory),
    (["w", "src", "gen", "c.ts"], .file (some "")),
    (["w", "src", "ui"], .directory),
    (["w", "src", "ui", "d.tsx"], .file (some ""))]
  current := ["w"]

/-- Inputs, some of which lead below others, and one of which is given twice. -/
def sourceInputs : List Path :=
  [⟨"src"⟩, ⟨"src/gen/c.ts"⟩, ⟨"none.ts"⟩, ⟨"src/ui"⟩, ⟨"./none.ts"⟩]

/-- The same files, with the directories in other places. -/
def reorderedInputs : List Path :=
  [⟨"src/gen/c.ts"⟩, ⟨"src/ui"⟩, ⟨"none.ts"⟩, ⟨"./none.ts"⟩, ⟨"src"⟩, ⟨"src/ui"⟩]

/-- A file that is given comes first although it is ignored, and what lies below two directories is
listed once. -/
theorem scan_reorderedInputs :
    (∀ input : Path, sourceTree.isDirectory (Path.join ⟨"/w"⟩ input) = true →
      (input ∈ reorderedInputs ↔ input ∈ sourceInputs)) ∧
    ∃ found', sourceTree.scan ⟨"/w"⟩ reorderedInputs ["src/gen"] true =
        [⟨"/w/src/gen/c.ts"⟩, ⟨"/w/none.ts"⟩] ++ found' ∧
      List.Forall₂ (fun a b : Path => a.same b = true) found'
        [⟨"/w/src/a.ts"⟩, ⟨"/w/src/b.tsx"⟩, ⟨"/w/src/ui/d.tsx"⟩] := by
  have hdirectories : ∀ input : Path, sourceTree.isDirectory (Path.join ⟨"/w"⟩ input) = true →
      (input ∈ reorderedInputs ↔ input ∈ sourceInputs) := by
    intro input _
    simp only [reorderedInputs, sourceInputs, List.mem_cons, List.not_mem_nil, or_false]
    tauto
  obtain ⟨given, found, hscan, hgiven, -, -, -, hagain⟩ :=
    scan_explicit_then_found sourceTree ⟨"/w"⟩ sourceInputs ["src/gen"] true
  have hgiven : given = [⟨"/w/src/gen/c.ts"⟩, ⟨"/w/none.ts"⟩] := hgiven.trans (by decide +kernel)
  have hfound : found = [⟨"/w/src/a.ts"⟩, ⟨"/w/src/b.tsx"⟩, ⟨"/w/src/ui/d.tsx"⟩] := by
    refine List.append_cancel_left (hscan.symm.trans ?_ : given ++ found = given ++ _)
    rw [hgiven]
    decide +kernel
  obtain ⟨found', hscan', hsame⟩ := hagain reorderedInputs (by decide +kernel) hdirectories
  exact ⟨hdirectories, found', hgiven ▸ hscan', hfound ▸ hsame⟩

end FileTree

end ComponentSchema
