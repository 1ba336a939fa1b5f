import ComponentSchema.Proofs.Loader.Survey

/-!
# Loading

What the roots of a program lead to, and in what order, is stated here without the walk that finds
it. A file may be reached by many paths; it is loaded once, at the path it was found by first. The
program is loaded as it is surveyed, if nothing fails.

Hypothesis. `FileTree.IsRooted`: every entry stands in a directory.

Results.
* `Modules.loadWithin_eq`: loading is the survey of a program up to its first error.
* `Surveyed.standsAt_of_reachable`: every file that the roots lead to is found.
* `Modules.load_order`: the loaded files are those that the roots lead to. Where imports do not run
  in a circle, a file comes after those it imports.
-/
namespace ComponentSchema

open Relation Syntax

variable {tree : FileTree} {roots paths : List Path} {path : Path} {location : Location}

/-! ## Roots -/

/-- The first of some paths that leads to a file. -/
def FirstAt (tree : FileTree) (paths : List Path) (location : Location) (path : Path) : Prop :=
  ∃ before after, paths = before ++ path :: after ∧ tree.FileAt path location ∧
    ∀ earlier ∈ before, ¬ tree.FileAt earlier location

theorem FirstAt.cons {first : Path} (hfirst : ¬ tree.FileAt first location)
    (h : FirstAt tree paths location path) : FirstAt tree (first :: paths) location path := by
  obtain ⟨before, after, rfl, hat, hbefore⟩ := h
  refine ⟨first :: before, after, rfl, hat, ?_⟩
  simpa [hfirst] using hbefore

theorem FirstAt.cases {first : Path} (h : FirstAt tree (first :: paths) location path) :
    (path = first ∧ tree.FileAt first location) ∨
      (¬ tree.FileAt first location ∧ FirstAt tree paths location path) := by
  obtain ⟨before, after, hsplit, hat, hbefore⟩ := h
  rcases before with _ | ⟨earlier, before⟩
  · obtain ⟨rfl, -⟩ := List.cons.inj hsplit
    exact .inl ⟨rfl, hat⟩
  · obtain ⟨rfl, rfl⟩ := List.cons.inj hsplit
    exact .inr ⟨hbefore _ (List.mem_cons_self ..), before, after, rfl, hat, fun earlier he =>
      hbefore earlier (List.mem_cons_of_mem _ he)⟩

theorem exists_firstAt (hpath : path ∈ paths) (hat : tree.FileAt path location) :
    ∃ first, FirstAt tree paths location first := by
  induction paths with
  | nil => cases hpath
  | cons first rest ih =>
    by_cases hfirst : tree.FileAt first location
    · exact ⟨first, [], rest, rfl, hfirst, by simp⟩
    · have hrest : path ∈ rest := by
        rcases List.mem_cons.1 hpath with rfl | hrest
        · exact absurd hat hfirst
        · exact hrest
      obtain ⟨earliest, h⟩ := ih hrest
      exact ⟨earliest, h.cons hfirst⟩

theorem FirstAt.fileAt (h : FirstAt tree paths location path) : tree.FileAt path location := by
  obtain ⟨-, -, -, hat, -⟩ := h
  exact hat

theorem FirstAt.filter (h : FirstAt tree paths location path) {p : Path → Bool} (hp : p path) :
    FirstAt tree (paths.filter p) location path := by
  obtain ⟨before, after, rfl, hat, hbefore⟩ := h
  refine ⟨before.filter p, after.filter p, by simp [hp], hat, fun earlier he => ?_⟩
  exact hbefore earlier (List.mem_filter.1 he).1

/-- A file that can be parsed, and that a root leads to, is there, at the path of the first such
root. -/
def HasRoots (tree : FileTree) (roots : List Path) (files : Array ModuleFile) : Prop :=
  ∀ {location : Location} {path : Path} {source : SourceTree}, FirstAt tree roots location path →
    parseFile tree path = .ok source →
      ∃ (i : Nat) (file : ModuleFile), files[i]? = some file ∧ file.path = path

theorem HasRoots.kept {files files' : Array ModuleFile} (h : HasRoots tree roots files)
    (hkept : Kept files files') : HasRoots tree roots files' := by
  intro location path source hfirst hsource
  obtain ⟨i, file, hfile, hpath⟩ := h hfirst hsource
  obtain ⟨file', hfile', hpath', -⟩ := hkept _ _ hfile
  exact ⟨i, file', hfile', hpath'.trans hpath⟩

/-- The roots that can be parsed. -/
def parsedRoots (tree : FileTree) (roots : List Path) : List (Path × SourceTree) :=
  roots.filterMap fun root => (parseFile tree root).toOption.map (root, ·)

/-- Why the other roots cannot be parsed. -/
def rootErrors (tree : FileTree) (roots : List Path) : List LoadError :=
  roots.filterMap fun root =>
    match parseFile tree root with
    | .error error => some error
    | .ok _ => none

theorem parsedRoots_cons (root : Path) (rest : List Path) : parsedRoots tree (root :: rest) =
    match parseFile tree root with
    | .ok source => (root, source) :: parsedRoots tree rest
    | .error _ => parsedRoots tree rest := by
  rw [parsedRoots, List.filterMap_cons, ← parsedRoots]
  cases parseFile tree root <;> rfl

theorem rootErrors_cons (root : Path) (rest : List Path) : rootErrors tree (root :: rest) =
    match parseFile tree root with
    | .ok _ => rootErrors tree rest
    | .error error => error :: rootErrors tree rest := by
  rw [rootErrors, List.filterMap_cons, ← rootErrors]
  cases parseFile tree root <;> rfl

theorem mem_rootErrors {error : LoadError} :
    error ∈ rootErrors tree roots ↔ ∃ root ∈ roots, parseFile tree root = .error error := by
  unfold rootErrors
  rw [List.mem_filterMap]
  refine exists_congr fun root => and_congr_right fun _ => ?_
  cases parseFile tree root <;> simp

theorem parsedRoots_paths : (parsedRoots tree roots).map Prod.fst =
    roots.filter fun root => (parseFile tree root).isOk := by
  induction roots with
  | nil => rfl
  | cons root rest ih =>
    rw [parsedRoots_cons, List.filter_cons]
    cases parseFile tree root with
    | error => exact ih
    | ok source => exact congrArg (root :: ·) ih

theorem mem_parsedRoots {root : Path × SourceTree} (h : root ∈ parsedRoots tree roots) :
    parseFile tree root.1 = .ok root.2 ∧ root.1 ∈ roots := by
  obtain ⟨path, hpath, hroot⟩ := List.mem_filterMap.1 h
  cases hsource : parseFile tree path with
  | error => simp [hsource, Except.toOption] at hroot
  | ok source =>
    obtain rfl : (path, source) = root := by simpa [hsource, Except.toOption] using hroot
    exact ⟨hsource, hpath⟩

namespace Discovery

/-- What holds after the roots were added: nothing is visited yet. -/
structure RootsAdded (tree : FileTree) (roots : List Path) (parsed : List (Path × SourceTree))
    (discovery : Discovery) (ids : List ModuleId) (discovery' : Discovery) : Prop where
  sound : Sound tree roots discovery'
  kept : Kept discovery.files discovery'.files
  visited : discovery'.visited = discovery.visited
  finished : discovery'.finished = discovery.finished
  ids : ∀ f : ModuleId, f.index < discovery'.files.size ↔ f.index < discovery.files.size ∨ f ∈ ids
  first : ∀ {location : Location} {path : Path}, FirstAt tree (parsed.map Prod.fst) location path →
    (∃ id, StandsAt tree discovery.files id location) ∨
      ∃ (i : Nat) (file : ModuleFile), discovery'.files[i]? = some file ∧ file.path = path

theorem addRoots_added {parsed : List (Path × SourceTree)} {discovery : Discovery}
    (hparsed : ∀ root ∈ parsed, parseFile tree root.1 = .ok root.2 ∧ root.1 ∈ roots)
    (hsound : Sound tree roots discovery) :
    RootsAdded tree roots parsed discovery (addRoots tree parsed discovery).1
      (addRoots tree parsed discovery).2 := by
  induction parsed generalizing discovery with
  | nil =>
    refine ⟨hsound, Kept.refl _, rfl, rfl, by simp [addRoots], ?_⟩
    rintro location path ⟨before, after, hsplit, -⟩
    simp at hsplit
  | cons root rest ih =>
    obtain ⟨path, source⟩ := root
    obtain ⟨hsource, hroot⟩ := hparsed _ (List.mem_cons_self ..)
    obtain ⟨location, hat⟩ := fileAt_of_parseFile hsource
    have hrest := fun root hr => hparsed root (List.mem_cons_of_mem _ hr)
    rw [addRoots, known?_eq hat]
    rcases hknown : discovery.known.lookup location with _ | id
    · obtain ⟨hsound', hrequired⟩ := hsound.required_register hsource (.root hroot) hat hknown
      have hadded := ih hrest hsound'
      refine ⟨hadded.sound, hrequired.kept.trans hadded.kept, hadded.visited, hadded.finished, ?_, ?_⟩
      · intro f
        rw [hadded.ids, List.mem_cons, ← or_assoc, hrequired.lt_iff]
      · intro location' path' hfirst
        rcases hfirst.cases with ⟨rfl, -⟩ | ⟨hother, hfirst⟩
        · have hnew : (discovery.files.push ⟨path', source, []⟩)[discovery.files.size]? =
              some ⟨path', source, []⟩ := Array.getElem?_push_size
          obtain ⟨file', hfile', hpath', -⟩ := hadded.kept _ _ hnew
          exact .inr ⟨_, file', hfile', hpath'⟩
        · refine (hadded.first hfirst).imp_left ?_
          rintro ⟨id, hid⟩
          rcases hrequired.standsAt_cases hid with hold | ⟨-, rfl⟩
          · exact ⟨id, hold⟩
          · exact absurd hat hother
    · have hadded := ih hrest hsound
      refine ⟨hadded.sound, hadded.kept, hadded.visited, hadded.finished, hadded.ids, ?_⟩
      intro location' path' hfirst
      rcases hfirst.cases with ⟨rfl, hat'⟩ | ⟨-, hfirst⟩
      · obtain rfl := hat.unique hat'
        exact .inl ⟨id, hsound.known.1 hknown⟩
      · exact hadded.first hfirst

/-- The roots are there and nothing is visited yet. -/
structure Registered (tree : FileTree) (roots : List Path) (ids : List ModuleId)
    (discovery : Discovery) : Prop where
  sound : Sound tree roots discovery
  visited : discovery.visited = []
  finished : discovery.finished = []
  hasRoots : HasRoots tree roots discovery.files
  ids : ∀ f : ModuleId, f.index < discovery.files.size ↔ f ∈ ids

theorem addRoots_registered {added : List ModuleId × Discovery}
    (hadded : addRoots tree (parsedRoots tree roots) start = added) :
    Registered tree roots added.1 added.2 := by
  have hroots : RootsAdded tree roots (parsedRoots tree roots) start added.1 added.2 :=
    hadded ▸ addRoots_added (fun _ => mem_parsedRoots) Sound.start
  refine ⟨hroots.sound, hroots.visited, hroots.finished, ?_, fun f => ?_⟩
  · intro location path source hfirst hsource
    have hparsed := hfirst.filter (p := fun root => (parseFile tree root).isOk) (by simp [hsource, Except.isOk, Except.toBool])
    rw [← parsedRoots_paths] at hparsed
    refine (hroots.first hparsed).resolve_left ?_
    rintro ⟨id, file, hfile, -⟩
    simp [start] at hfile
  · rw [hroots.ids]
    simp [start]

end Discovery

open Discovery

/-! ## Loading -/

/-- Reads and parses the roots. -/
def parseRoots (tree : FileTree) (roots : List Path) : Except LoadError (List (Path × SourceTree)) :=
  roots.mapM fun root => (parseFile tree root).map (root, ·)

/-- The first root that cannot be parsed is to blame, if there is one. -/
theorem parseRoots_eq (tree : FileTree) (roots : List Path) : parseRoots tree roots =
    match rootErrors tree roots with
    | [] => .ok (parsedRoots tree roots)
    | error :: _ => .error error := by
  induction roots with
  | nil => rfl
  | cons root rest ih =>
    rw [parseRoots, List.mapM_cons, ← parseRoots, ih, rootErrors_cons, parsedRoots_cons]
    cases parseFile tree root with
    | error => rfl
    | ok source => cases rootErrors tree rest <;> rfl

/-- Loading with another bound on the nesting of visits. -/
def Modules.loadWithin (tree : FileTree) (roots : List Path) (depth : Nat) :
    Except LoadError Modules := do
  let parsed ← parseRoots tree roots
  let (ids, discovery) := Discovery.addRoots tree parsed Discovery.start
  let ended ← ids.foldlM (fun discovery id => discovery.visit tree depth id) discovery
  pure ⟨ended.files, ended.finished.reverse⟩

/-- The survey of a program, with a bound on the nesting of visits. -/
def Survey.within (tree : FileTree) (roots : List Path) (depth : Nat) : Survey :=
  let (ids, discovery) := addRoots tree (parsedRoots tree roots) start
  ids.foldl (fun survey id => survey.walk tree depth id) ⟨discovery, rootErrors tree roots⟩

/-- The survey of a program: the roots that can be parsed, and every file that they lead to. -/
def surveyed (tree : FileTree) (roots : List Path) : Survey :=
  Survey.within tree roots (tree.entries.length + 1)

/-- A program is loaded as it is surveyed, up to the first error. -/
theorem Modules.loadWithin_eq (tree : FileTree) (roots : List Path) (depth : Nat) :
    Modules.loadWithin tree roots depth = (Survey.within tree roots depth).outcome.map
      fun discovery => ⟨discovery.files, discovery.finished.reverse⟩ := by
  unfold Modules.loadWithin Survey.within
  rw [parseRoots_eq, Survey.outcome_foldl fun survey id => Survey.outcome_walk tree depth id survey]
  cases rootErrors tree roots with
  | nil => rfl
  | cons error errors => rfl

theorem Modules.load_eq (tree : FileTree) (roots : List Path) : Modules.load tree roots =
    (surveyed tree roots).outcome.map fun discovery => ⟨discovery.files, discovery.finished.reverse⟩ :=
  Modules.loadWithin_eq tree roots (tree.entries.length + 1)

/-! ## The survey of a program -/

/-- What holds of a survey when every visit has ended. -/
structure Surveyed (tree : FileTree) (roots : List Path) (survey : Survey) : Prop
    extends Survey.Faithful tree roots survey where
  failed : ∀ {error : LoadError}, error ∈ rootErrors tree roots → error ∈ survey.errors
  all : ∀ f : ModuleId, f.index < survey.discovery.files.size → f ∈ survey.discovery.finished
  hasRoots : HasRoots tree roots survey.discovery.files

section

variable {ids : List ModuleId} {discovery : Discovery} {depth : Nat}

/-- The files are there, and no visit is under way. -/
def Survey.Awaits (ids : List ModuleId) (survey : Survey) : Prop :=
  Survey.UnderWay [] survey ∧ ∀ id ∈ ids, id.index < survey.discovery.files.size

theorem Discovery.Registered.faithful (h : Registered tree roots ids discovery) :
    Survey.Faithful tree roots ⟨discovery, rootErrors tree roots⟩ where
  sound := h.sound
  settled := by constructor <;> simp [h.visited, h.finished]
  blamed _ herror := .inl (mem_rootErrors.1 herror)

theorem Discovery.Registered.awaits (h : Registered tree roots ids discovery)
    (errors : List LoadError) : Survey.Awaits ids ⟨discovery, errors⟩ := by
  refine ⟨?_, fun id hid => (h.ids id).2 hid⟩
  constructor <;> simp [h.visited]

/-- All roots are visited, whatever the bound on the nesting of visits. -/
theorem Discovery.Registered.walks_end (h : Registered tree roots ids discovery)
    (hdepth : tree.entries.length < depth) {survey : Survey}
    (hsurvey : survey = ⟨discovery, rootErrors tree roots⟩) :
    Survey.Brings tree roots survey (fun survey' => ∀ id ∈ ids, id ∈ survey'.discovery.visited)
        (ids.foldl (fun survey id => survey.walk tree (tree.entries.length + 1) id) survey) ∧
      ids.foldl (fun survey id => survey.walk tree depth id) survey =
        ids.foldl (fun survey id => survey.walk tree (tree.entries.length + 1) id) survey := by
  subst hsurvey
  refine Survey.foldl_brings ?_ ?_ ?_ h.faithful (h.awaits _)
  · intro id hid survey hfaithful hawaits
    exact Survey.walk_brings tree roots (by simp) (by simpa using hdepth) hfaithful hawaits.1
      (hawaits.2 id hid) (by simp)
  · exact fun hawaits hgrown => ⟨hawaits.1.grown hgrown, fun id hid =>
      Nat.lt_of_lt_of_le (hawaits.2 id hid) hgrown.kept.size⟩
  · exact fun hid hgrown => hgrown.visited hid

end

/-- A survey comes to an end, whatever the bound on the nesting of visits. -/
theorem surveyed_surveyed (tree : FileTree) (roots : List Path) {depth : Nat}
    (hdepth : tree.entries.length < depth) :
    Surveyed tree roots (surveyed tree roots) ∧ Survey.within tree roots depth = surveyed tree roots := by
  rw [surveyed, Survey.within, Survey.within]
  rcases hadded : addRoots tree (parsedRoots tree roots) start with ⟨ids, discovery⟩
  have hregistered : Registered tree roots ids discovery := addRoots_registered hadded
  have hroots : HasRoots tree roots discovery.files := hregistered.hasRoots
  obtain ⟨⟨hfaithful, hgrown, hids⟩, hother⟩ := hregistered.walks_end hdepth rfl
  refine ⟨⟨hfaithful, fun herror => hgrown.errors herror, fun f hf => ?_, hroots.kept hgrown.kept⟩,
    hother⟩
  have hvisited := (hgrown.found f hf).elim (fun hold => hids f ((hregistered.ids f).1 hold)) id
  refine (((hregistered.awaits _).1.grown hgrown).all f hvisited).resolve_right ?_
  simp

/-- What holds of a program that is loaded: it is surveyed, and nothing has failed. -/
def Discovery.Loaded (tree : FileTree) (roots : List Path) (discovery : Discovery) : Prop :=
  Surveyed tree roots ⟨discovery, []⟩

/-- What is loaded has been discovered. -/
theorem Modules.exists_loaded {modules : Modules} (h : Modules.load tree roots = .ok modules) :
    ∃ discovery, Loaded tree roots discovery ∧
      modules = ⟨discovery.files, discovery.finished.reverse⟩ := by
  rw [Modules.load_eq] at h
  have hsurveyed := (surveyed_surveyed tree roots (Nat.lt_succ_self _)).1
  rcases houtcome : (surveyed tree roots).outcome with error | discovery
  · rw [houtcome] at h
    cases h
  · rw [houtcome] at h
    rw [Survey.outcome_eq_ok houtcome] at hsurveyed
    exact ⟨discovery, hsurveyed, (Except.ok.inj h).symm⟩

/-! ## Files that the roots lead to -/

section

variable {survey : Survey} {discovery : Discovery} {f g : ModuleId}

/-- Every specifier that leads to a file is among the dependencies, unless that file cannot be
parsed. -/
theorem Surveyed.exists_dependency (h : Surveyed tree roots survey) {file : ModuleFile}
    (hfile : survey.discovery.files[f.index]? = some file) {specifier : String}
    (hs : specifier ∈ file.tree.specifiers) {found : Path}
    (hfound : resolveImport tree file.path specifier = .ok (some found))
    (hat : tree.FileAt found location) :
    (∃ g, (specifier, g) ∈ file.dependencies ∧ StandsAt tree survey.discovery.files g location) ∨
      ∃ error ∈ survey.errors, parseFile tree found = .error error := by
  have hlt := (Array.getElem?_eq_some_iff.1 hfile).1
  obtain ⟨file', hfile', hfollowed⟩ := h.settled.followed f (h.all f hlt) hfile specifier hs
  obtain rfl := Option.some.inj (hfile.symm.trans hfile')
  rcases hfollowed with ⟨error, herror, hresolved | ⟨found', hfound', hparse⟩⟩ | ⟨target, htarget, hall⟩
  · rw [hfound] at hresolved
    cases hresolved
  · obtain rfl := Option.some.inj (Except.ok.inj (hfound.symm.trans hfound'))
    exact .inr ⟨error, herror, hparse⟩
  · obtain ⟨g, -, hdependency⟩ := hall found (Except.ok.inj (htarget.symm.trans hfound))
    obtain ⟨-, found', location', hfound', hat', hg⟩ := h.sound.dependencies hfile hdependency
    obtain rfl := Option.some.inj (Except.ok.inj (hfound.symm.trans hfound'))
    obtain rfl := hat.unique hat'
    exact .inl ⟨g, hdependency, hg⟩

/-- Whatever the roots lead to is found, or it cannot be parsed. -/
theorem Surveyed.standsAt_of_reachable (hrooted : tree.IsRooted) (h : Surveyed tree roots survey)
    (hpath : Reachable tree roots path) :
    (∃ location id, tree.FileAt path location ∧ StandsAt tree survey.discovery.files id location) ∨
      survey.errors ≠ [] ∧ ∃ error, parseFile tree path = .error error := by
  induction hpath with
  | @root path hroot =>
    rcases hparsed : parseFile tree path with error | source
    · have herror := h.failed (mem_rootErrors.2 ⟨path, hroot, hparsed⟩)
      exact .inr ⟨List.ne_nil_of_mem herror, error, rfl⟩
    · obtain ⟨location, hat⟩ := fileAt_of_parseFile hparsed
      obtain ⟨first, hfirst⟩ := exists_firstAt hroot hat
      obtain ⟨i, file, hfile, rfl⟩ :=
        h.hasRoots hfirst (parseFile_spelling hrooted hat hfirst.fileAt hparsed)
      exact .inl ⟨location, ⟨i⟩, hat, file, hfile, hfirst.fileAt⟩
  | @leads path found _ hleads ih =>
    obtain ⟨parsed, hparsed, specifier, hs, hresolved⟩ := hleads
    rcases ih with ⟨location, id, hat, file, hfile, hfileAt⟩ | ⟨-, error, herror⟩
    · have hsame := parseFile_spelling hrooted hat hfileAt hparsed
      obtain rfl := Except.ok.inj ((h.sound.parsed hfile).symm.trans hsame)
      obtain ⟨found', target, hresolved', htarget, htarget'⟩ :=
        resolveImport_spelling hrooted hat hfileAt hresolved
      rcases h.exists_dependency hfile hs hresolved' htarget' with ⟨g, -, hg⟩ | ⟨error, herror, hparse⟩
      · exact .inl ⟨target, g, htarget, hg⟩
      · refine .inr ⟨List.ne_nil_of_mem herror, ?_⟩
        rcases hfound : parseFile tree found with error' | source
        · exact ⟨error', rfl⟩
        · rw [parseFile_spelling hrooted htarget htarget' hfound] at hparse
          cases hparse
    · rw [hparsed] at herror
      cases herror

end

/-! ## Loaded files -/

/-- A loaded file imports another. -/
def Imports (tree : FileTree) (files : Array ModuleFile) (f g : ModuleId) : Prop :=
  ∃ file found location, files[f.index]? = some file ∧ Leads tree file.path found ∧
    tree.FileAt found location ∧ StandsAt tree files g location

section

variable {discovery : Discovery} {f g : ModuleId}

theorem Discovery.Loaded.sound (h : Loaded tree roots discovery) : Sound tree roots discovery :=
  Surveyed.toFaithful h |>.sound

theorem Discovery.Loaded.settled (h : Loaded tree roots discovery) :
    Survey.Settled tree ⟨discovery, []⟩ :=
  Surveyed.toFaithful h |>.settled

/-- Every specifier that leads to a file is among the dependencies. -/
theorem Discovery.Loaded.exists_dependency (h : Loaded tree roots discovery) {file : ModuleFile}
    (hfile : discovery.files[f.index]? = some file) {specifier : String}
    (hs : specifier ∈ file.tree.specifiers) {found : Path}
    (hfound : resolveImport tree file.path specifier = .ok (some found))
    (hat : tree.FileAt found location) :
    ∃ g, (specifier, g) ∈ file.dependencies ∧ StandsAt tree discovery.files g location := by
  refine (Surveyed.exists_dependency h hfile hs hfound hat).resolve_right ?_
  simp

/-- The dependencies of a file are its imports. -/
theorem Discovery.Loaded.imports_iff (h : Loaded tree roots discovery) :
    Imports tree discovery.files f g ↔ DependsOn discovery.files f g := by
  constructor
  · rintro ⟨file, found, location, hfile, ⟨parsed, hparsed, specifier, hs, hfound⟩, hat, hg⟩
    obtain rfl := Except.ok.inj ((h.sound.parsed hfile).symm.trans hparsed)
    obtain ⟨g', hdependency, hg'⟩ := h.exists_dependency hfile hs hfound hat
    obtain rfl := h.sound.injective hg hg'
    exact ⟨file, hfile, specifier, hdependency⟩
  · rintro ⟨file, hfile, specifier, hdependency⟩
    obtain ⟨hs, found, location, hfound, hat, hg⟩ := h.sound.dependencies hfile hdependency
    exact ⟨file, found, location, hfile, ⟨_, h.sound.parsed hfile, specifier, hs, hfound⟩, hat, hg⟩

/-- Whatever the roots lead to is loaded. -/
theorem Discovery.Loaded.standsAt_of_reachable (hrooted : tree.IsRooted)
    (h : Loaded tree roots discovery) (hpath : Reachable tree roots path) :
    ∃ location id, tree.FileAt path location ∧ StandsAt tree discovery.files id location :=
  (Surveyed.standsAt_of_reachable hrooted h hpath).resolve_right fun hfailed => hfailed.1 rfl

/-- What is in the order has been loaded. -/
theorem Discovery.Loaded.lt_size (h : Loaded tree roots discovery) {f : ModuleId}
    (hf : f ∈ discovery.finished) : f.index < discovery.files.size :=
  h.settled.visited f (h.settled.subset hf)

/-- The modules that are put in order are modules of the program. -/
theorem Modules.lt_of_mem_order {modules : Modules} (h : Modules.load tree roots = .ok modules)
    {f : ModuleId} (hf : f ∈ modules.order) : f.index < modules.files.size := by
  obtain ⟨discovery, hloaded, rfl⟩ := Modules.exists_loaded h
  exact hloaded.lt_size (List.mem_reverse.1 hf)

/-- Every file has its place in the order, and just one. -/
theorem Discovery.Loaded.order_perm (h : Loaded tree roots discovery) :
    discovery.finished.reverse.Perm ((List.range discovery.files.size).map ModuleId.mk) := by
  refine (List.perm_ext_iff_of_nodup (List.nodup_reverse.2 h.settled.nodup)
    (List.nodup_range.map fun a b hab => congrArg ModuleId.index hab)).2 fun f => ?_
  rw [List.mem_reverse, List.mem_map]
  constructor
  · intro hf
    exact ⟨f.index, List.mem_range.2 (h.lt_size hf), rfl⟩
  · rintro ⟨i, hi, rfl⟩
    exact h.all ⟨i⟩ (List.mem_range.1 hi)

end

/-- Loading ends however deep visits may nest; each file that the roots lead to is loaded once, and
no other; and a file comes after those that it imports, if these do not lead back to it. -/
theorem Modules.load_order {modules : Modules} (hrooted : tree.IsRooted)
    (h : Modules.load tree roots = .ok modules) :
    (∀ depth, tree.entries.length < depth → Modules.loadWithin tree roots depth = .ok modules) ∧
    modules.order.Perm ((List.range modules.files.size).map ModuleId.mk) ∧
    (∀ location, (∃ id, StandsAt tree modules.files id location) ↔
      ∃ path, Reachable tree roots path ∧ tree.FileAt path location) ∧
    (∀ id : ModuleId, id.index < modules.files.size →
      ∃ location, StandsAt tree modules.files id location) ∧
    (∀ f g location, StandsAt tree modules.files f location →
      StandsAt tree modules.files g location → f = g) ∧
    ∀ f g, Imports tree modules.files f g →
      (∃ before after, modules.order = before ++ f :: after ∧ g ∈ before) ∨
        TransGen (Imports tree modules.files) g f ∨ g = f := by
  obtain ⟨discovery, hloaded, rfl⟩ := Modules.exists_loaded h
  refine ⟨?_, ?_, ?_, fun id => hloaded.sound.standsAt, fun f g location => hloaded.sound.injective,
    ?_⟩
  · intro depth hdepth
    rw [Modules.loadWithin_eq, (surveyed_surveyed tree roots hdepth).2, ← Modules.load_eq, h]
  · exact hloaded.order_perm
  · intro location
    constructor
    · rintro ⟨id, file, hfile, hat⟩
      exact ⟨file.path, hloaded.sound.reachable hfile, hat⟩
    · rintro ⟨path, hpath, hat⟩
      obtain ⟨location', id, hat', hid⟩ := hloaded.standsAt_of_reachable hrooted hpath
      obtain rfl := hat.unique hat'
      exact ⟨id, hid⟩
  · intro f g himports
    have hiff : Imports tree discovery.files = DependsOn discovery.files := by
      funext f g
      exact propext hloaded.imports_iff
    rw [hiff] at himports ⊢
    have hf : f ∈ discovery.finished := by
      obtain ⟨file, hfile, -⟩ := himports
      exact hloaded.all f (Array.getElem?_eq_some_iff.1 hfile).1
    obtain ⟨before, after, hsplit⟩ := List.append_of_mem hf
    refine (hloaded.settled.ordered rfl hsplit himports).imp_left fun hg => ?_
    refine ⟨after.reverse, before.reverse, ?_, List.mem_reverse.2 hg⟩
    simp [hsplit]

/-- Two files that import each other, one of them by two spellings. -/
def circleTree : FileTree where
  entries := [(["a.ts"], .file "import './b';\n"), (["b.ts"], .file "import './lib/../a';\n"),
    (["lib"], .directory)]
  current := []

set_option maxRecDepth 100000 in
theorem order_circleTree : (Modules.load circleTree [⟨"a.ts"⟩, ⟨"./a.ts"⟩]).toOption.map (·.order) =
    some [⟨1⟩, ⟨0⟩] := by
  decide +kernel

/-- The file that was found second comes first; it imports the other, and is imported by it. -/
theorem Modules.load_order_circleTree : ∃ modules,
    Modules.load circleTree [⟨"a.ts"⟩, ⟨"./a.ts"⟩] = .ok modules ∧ modules.order = [⟨1⟩, ⟨0⟩] ∧
      ∀ f g, Imports circleTree modules.files f g →
        (∃ before after, modules.order = before ++ f :: after ∧ g ∈ before) ∨
          TransGen (Imports circleTree modules.files) g f ∨ g = f := by
  obtain ⟨modules, hload, horder⟩ := Modules.exists_load order_circleTree
  obtain ⟨-, -, -, -, -, himports⟩ := Modules.load_order (by decide) hload
  exact ⟨modules, hload, horder, himports⟩

end ComponentSchema
