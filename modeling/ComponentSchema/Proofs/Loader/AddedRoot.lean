import ComponentSchema.Proofs.Loader.SharedFiles

/-!
# Listing a file again

A root is added to a program that has loaded its file already. The file then has its id before the walk
starts, so all that are found after it have other ids, and it is read at the path of the new root, from
where its imports, and theirs, are spelled. The walks of the two programs still go the same way from
file to file.

Only a specifier that names no more than the directory of its file may tell the paths apart: it is
passed over where this directory is spelled with an extension, and is an error where it is not.

Hypothesis. `FileTree.IsRooted`: every entry stands in a directory.

Results.
* `follow_inStep`, `visit_inStep`: two walks stay in step, by induction on how deep visits nest.
* `Modules.load_append`: the same files are loaded in the same order, or such a specifier is to blame.
-/
namespace ComponentSchema

open Syntax Discovery

/-! ## The same files -/

section

variable {tree : FileTree} {roots roots' : List Path} {files₁ files₂ files₁' files₂' : Array ModuleFile}
  {g h : ModuleId}

theorem SameFile.kept (hsame : SameFile tree files₁ files₂ g h) (hkept₁ : Kept files₁ files₁')
    (hkept₂ : Kept files₂ files₂') : SameFile tree files₁' files₂' g h := by
  obtain ⟨location, hg, hh⟩ := hsame
  exact ⟨location, hkept₁.standsAt hg, hkept₂.standsAt hh⟩

/-- No module is the same file as two modules of another program. -/
theorem Discovery.Sound.sameFile_biUnique {first second : Discovery} (hfirst : Sound tree roots first)
    (hsecond : Sound tree roots' second) :
    Relator.BiUnique (SameFile tree first.files second.files) := by
  constructor
  · rintro g g' h ⟨location, hg, hh⟩ ⟨location', hg', hh'⟩
    obtain rfl := hh.unique hh'
    exact hfirst.injective hg hg'
  · rintro g h h' ⟨location, hg, hh⟩ ⟨location', hg', hh'⟩
    obtain rfl := hg.unique hg'
    exact hsecond.injective hh hh'

end

/-! ## Two walks -/

/-- A specifier that names the directory of its file, and is passed over at the path by which the roots
lead to the file, but is an error at another path. -/
structure Misspelt (tree : FileTree) (roots : List Path) (specifier : String) (importer : Path) :
    Prop where
  namesDirectory : NamesDirectory specifier
  unresolvable : Unresolvable tree importer specifier
  passedOver : ∃ path location, Reachable tree roots path ∧ tree.FileAt path location ∧
    tree.FileAt importer location ∧ resolveImport tree path specifier = .ok none

/-- Of two computations the first one fails, or a misspelt specifier stops the second, or both have
answers for which `Q` holds. -/
inductive Outcomes {α β : Type} (tree : FileTree) (roots : List Path) (Q : α → β → Prop) :
    Except LoadError α → Except LoadError β → Prop
  | failed (cause : LoadError) (second : Except LoadError β) :
    Outcomes tree roots Q (.error cause) second
  | stopped (first : Except LoadError α) {specifier : String} {importer : Path}
    (h : Misspelt tree roots specifier importer) :
    Outcomes tree roots Q first (.error (.unresolved specifier importer))
  | done {a : α} {b : β} (h : Q a b) : Outcomes tree roots Q (.ok a) (.ok b)

namespace Outcomes

variable {α β γ δ ι : Type} {tree : FileTree} {roots : List Path} {Q : α → β → Prop} {S : γ → δ → Prop}

theorem bind {first : Except LoadError α} {second : Except LoadError β} {next : α → Except LoadError γ}
    {next' : β → Except LoadError δ} (h : Outcomes tree roots Q first second)
    (hnext : ∀ a b, Q a b → Outcomes tree roots S (next a) (next' b)) :
    Outcomes tree roots S (first >>= next) (second >>= next') := by
  cases h with
  | failed cause second => exact .failed cause _
  | stopped first hmisspelt => exact .stopped _ hmisspelt
  | done hq => exact hnext _ _ hq

theorem imp {R : α → β → Prop} {first : Except LoadError α} {second : Except LoadError β}
    (h : Outcomes tree roots Q first second) (himp : ∀ a b, Q a b → R a b) :
    Outcomes tree roots R first second := by
  cases h with
  | failed cause second => exact .failed cause _
  | stopped first hmisspelt => exact .stopped _ hmisspelt
  | done hq => exact .done (himp _ _ hq)

theorem foldlM {step : α → ι → Except LoadError α} {step' : β → ι → Except LoadError β}
    {items : List ι} {start : α} {start' : β}
    (hstep : ∀ a b, Q a b → ∀ item ∈ items, Outcomes tree roots Q (step a item) (step' b item))
    (h : Q start start') :
    Outcomes tree roots Q (items.foldlM step start) (items.foldlM step' start') := by
  induction items generalizing start start' with
  | nil => exact .done h
  | cons item rest ih =>
    rw [List.foldlM_cons, List.foldlM_cons]
    refine (hstep _ _ h item (List.mem_cons_self ..)).bind fun _ _ hq => ih ?_ hq
    exact fun a b hab other ho => hstep a b hab other (List.mem_cons_of_mem _ ho)

end Outcomes

/-- Two walks that have visited the same files in the same order. All that the first has found the
second has found too. -/
structure InStep (tree : FileTree) (roots roots' : List Path) (first second : Discovery) : Prop where
  sound₁ : Sound tree roots first
  sound₂ : Sound tree roots' second
  found : ∀ {id : ModuleId} {location : Location}, StandsAt tree first.files id location →
    ∃ id', StandsAt tree second.files id' location
  visited : List.Forall₂ (SameFile tree first.files second.files) first.visited second.visited
  finished : List.Forall₂ (SameFile tree first.files second.files) first.finished second.finished
  ended : second.finished ⊆ second.visited

/-- Two walks have gone on in step. -/
structure Onward (tree : FileTree) (roots roots' : List Path)
    (first second first' second' : Discovery) : Prop extends InStep tree roots roots' first' second' where
  kept₁ : Kept first.files first'.files
  kept₂ : Kept second.files second'.files
  grown : second.visited ⊆ second'.visited

section

variable {tree : FileTree} {roots roots' : List Path} {first second first' second' : Discovery}
  {f g h : ModuleId}

theorem InStep.onward (hstep : InStep tree roots roots' first second) :
    Onward tree roots roots' first second first second :=
  ⟨hstep, Kept.refl _, Kept.refl _, fun _ => id⟩

theorem Onward.trans {first'' second'' : Discovery}
    (hon : Onward tree roots roots' first second first' second')
    (hon' : Onward tree roots roots' first' second' first'' second'') :
    Onward tree roots roots' first second first'' second'' :=
  ⟨hon'.toInStep, hon.kept₁.trans hon'.kept₁, hon.kept₂.trans hon'.kept₂,
    fun _ hid => hon'.grown (hon.grown hid)⟩

/-- More has been found, and nothing visited. -/
theorem InStep.of_kept (hstep : InStep tree roots roots' first second)
    (hsound₁ : Sound tree roots first') (hsound₂ : Sound tree roots' second')
    (hkept₁ : Kept first.files first'.files) (hkept₂ : Kept second.files second'.files)
    (hfound : ∀ {id : ModuleId} {location : Location}, StandsAt tree first'.files id location →
      ∃ id', StandsAt tree second'.files id' location)
    (hvisited₁ : first'.visited = first.visited) (hvisited₂ : second'.visited = second.visited)
    (hfinished₁ : first'.finished = first.finished) (hfinished₂ : second'.finished = second.finished) :
    Onward tree roots roots' first second first' second' where
  sound₁ := hsound₁
  sound₂ := hsound₂
  found := hfound
  visited := by
    rw [hvisited₁, hvisited₂]
    exact hstep.visited.imp fun _ _ hsame => hsame.kept hkept₁ hkept₂
  finished := by
    rw [hfinished₁, hfinished₂]
    exact hstep.finished.imp fun _ _ hsame => hsame.kept hkept₁ hkept₂
  ended := by
    rw [hvisited₂, hfinished₂]
    exact hstep.ended
  kept₁ := hkept₁
  kept₂ := hkept₂
  grown := hvisited₂ ▸ fun _ => id

/-- A file has been visited by both walks or by none. -/
theorem InStep.visited_iff (hstep : InStep tree roots roots' first second)
    (hsame : SameFile tree first.files second.files g h) : g ∈ first.visited ↔ h ∈ second.visited :=
  List.rel_mem (hstep.sound₁.sameFile_biUnique hstep.sound₂) hsame hstep.visited

theorem require_eq_ok (discovery : Discovery) {path : Path} {parsed : SourceTree}
    (h : parseFile tree path = .ok parsed) :
    ∃ id discovery', discovery.require tree path = .ok (id, discovery') := by
  unfold Discovery.require
  split
  · exact ⟨_, _, rfl⟩
  · rw [h]
    exact ⟨_, _, rfl⟩

/-- Both walks require the same file. -/
theorem require_inStep (hrooted : tree.IsRooted) (hstep : InStep tree roots roots' first second)
    {found found' : Path} {location : Location} (hreach : Reachable tree roots found)
    (hreach' : Reachable tree roots' found') (hat : tree.FileAt found location)
    (hat' : tree.FileAt found' location) :
    Outcomes tree roots (fun answer answer' =>
        Onward tree roots roots' first second answer.2 answer'.2 ∧
          StandsAt tree answer.2.files answer.1 location ∧
            StandsAt tree answer'.2.files answer'.1 location)
      (first.require tree found) (second.require tree found') := by
  rcases hrequire : first.require tree found with cause | ⟨g, first'⟩
  · exact .failed cause _
  · obtain ⟨hsound₁, hrequired₁⟩ := hstep.sound₁.require hreach hat hrequire
    obtain ⟨file, hfile, hfileAt⟩ := hrequired₁.standsAt
    have hparsed := parseFile_spelling hrooted hfileAt hat' (hsound₁.parsed hfile)
    obtain ⟨h, second', hrequire'⟩ := require_eq_ok second hparsed
    obtain ⟨hsound₂, hrequired₂⟩ := hstep.sound₂.require hreach' hat' hrequire'
    rw [hrequire']
    refine .done ⟨?_, hrequired₁.standsAt, hrequired₂.standsAt⟩
    refine hstep.of_kept hsound₁ hsound₂ hrequired₁.kept hrequired₂.kept ?_ hrequired₁.visited
      hrequired₂.visited hrequired₁.finished hrequired₂.finished
    intro id location' hid
    rcases hrequired₁.standsAt_cases hid with hold | ⟨-, rfl⟩
    · obtain ⟨id', hid'⟩ := hstep.found hold
      exact ⟨id', hrequired₂.kept.standsAt hid'⟩
    · exact ⟨h, hrequired₂.standsAt⟩

/-- The visits of a file, which both walks have found, go the same way. -/
def VisitsInStep (tree : FileTree) (roots roots' : List Path)
    (visit : ModuleId → Discovery → Except LoadError Discovery) : Prop :=
  ∀ {g h : ModuleId} {first second : Discovery}, InStep tree roots roots' first second →
    SameFile tree first.files second.files g h →
      Outcomes tree roots (Onward tree roots roots' first second) (visit g first) (visit h second)

/-- A specifier that is passed over under one name of a file stops the walk under another only where it
is misspelt. -/
theorem misspelt_of_passedOver (hrooted : tree.IsRooted) {path path' : Path} {location : Location}
    (hreach : Reachable tree roots path) (hat : tree.FileAt path location)
    (hat' : tree.FileAt path' location) {specifier : String} {cause : LoadError}
    (hresolved : resolveImport tree path specifier = .ok none)
    (hresolved' : resolveImport tree path' specifier = .error cause) :
    cause = .unresolved specifier path' ∧ Misspelt tree roots specifier path' := by
  obtain ⟨hunresolvable, rfl⟩ := resolveImport_eq_error_iff.1 hresolved'
  refine ⟨rfl, ?_, hunresolvable, path, location, hreach, hat, hat', hresolved⟩
  by_contra hnames
  have herror := resolveImport_eq_error_iff.2
    ⟨unresolvable_spelling hrooted hat' hat hnames hunresolvable, rfl⟩
  rw [hresolved] at herror
  cases herror

/-- Both walks note that a file depends on another. -/
theorem InStep.addDependency (hstep : InStep tree roots roots' first second)
    {file file' : ModuleFile} {found found' : Path} {location : Location} {specifier : String}
    (hfile : first.files[g.index]? = some file) (hfile' : second.files[h.index]? = some file')
    (hs : specifier ∈ file.tree.specifiers) (hs' : specifier ∈ file'.tree.specifiers)
    (hresolved : resolveImport tree file.path specifier = .ok (some found))
    (hresolved' : resolveImport tree file'.path specifier = .ok (some found'))
    (hat : tree.FileAt found location) (hat' : tree.FileAt found' location) {d e : ModuleId}
    (hd : StandsAt tree first.files d location) (he : StandsAt tree second.files e location) :
    Onward tree roots roots' first second (first.addDependency g specifier d)
      (second.addDependency h specifier e) := by
  refine hstep.of_kept (hstep.sound₁.addDependency hfile hs hresolved hat hd)
    (hstep.sound₂.addDependency hfile' hs' hresolved' hat' he)
    (kept_addDependency first g d specifier) (kept_addDependency second h e specifier) ?_
    rfl rfl rfl rfl
  simp only [standsAt_addDependency]
  exact hstep.found

/-- Both walks follow a specifier to the same file. -/
theorem follow_inStep (hrooted : tree.IsRooted)
    {visit : ModuleId → Discovery → Except LoadError Discovery}
    (hvisit : VisitsInStep tree roots roots' visit) (hstep : InStep tree roots roots' first second)
    {file file' : ModuleFile} {location : Location} (hfile : first.files[g.index]? = some file)
    (hfile' : second.files[h.index]? = some file') (hat : tree.FileAt file.path location)
    (hat' : tree.FileAt file'.path location) {specifier : String}
    (hs : specifier ∈ file.tree.specifiers) (hs' : specifier ∈ file'.tree.specifiers) :
    Outcomes tree roots (Onward tree roots roots' first second)
      (follow tree visit g file.path first specifier)
      (follow tree visit h file'.path second specifier) := by
  have hreach := hstep.sound₁.reachable hfile
  have hreach' := hstep.sound₂.reachable hfile'
  unfold follow
  rcases hresolved : resolveImport tree file.path specifier with cause | _ | found
  · exact .failed cause _
  · rcases hresolved' : resolveImport tree file'.path specifier with cause | _ | found'
    · obtain ⟨rfl, hmisspelt⟩ :=
        misspelt_of_passedOver hrooted hreach hat hat' hresolved hresolved'
      exact .stopped _ hmisspelt
    · exact .done hstep.onward
    · obtain ⟨found, -, hfound, -⟩ := resolveImport_spelling hrooted hat' hat hresolved'
      rw [hresolved] at hfound
      cases hfound
  · obtain ⟨found', target, hresolved', htarget, htarget'⟩ :=
      resolveImport_spelling hrooted hat hat' hresolved
    rw [hresolved']
    refine (require_inStep hrooted hstep
      (hreach.leads ⟨_, hstep.sound₁.parsed hfile, specifier, hs, hresolved⟩)
      (hreach'.leads ⟨_, hstep.sound₂.parsed hfile', specifier, hs', hresolved'⟩)
      htarget htarget').bind ?_
    rintro ⟨dependency, required⟩ ⟨dependency', required'⟩ ⟨hon, hstands, hstands'⟩
    obtain ⟨kept, hkept, hpath, htree, -⟩ := hon.kept₁ _ _ hfile
    obtain ⟨kept', hkept', hpath', htree', -⟩ := hon.kept₂ _ _ hfile'
    have hadded := hon.toInStep.addDependency hkept hkept' (htree ▸ hs) (htree' ▸ hs')
      (hpath ▸ hresolved) (hpath' ▸ hresolved') htarget htarget' hstands hstands'
    have hsame : SameFile tree (required.addDependency g specifier dependency).files
        (required'.addDependency h specifier dependency').files dependency dependency' :=
      ⟨target, standsAt_addDependency.2 hstands, standsAt_addDependency.2 hstands'⟩
    exact (hvisit hadded.toInStep hsame).imp fun _ _ hon' => (hon.trans hadded).trans hon'

/-- Visits go the same way, however deep they nest. -/
theorem visit_inStep (hrooted : tree.IsRooted) (depth : Nat) :
    VisitsInStep tree roots roots' (visit tree depth) := by
  induction depth with
  | zero => exact fun hstep _ => .done hstep.onward
  | succ depth ih =>
    intro g h first second hstep hsame
    rw [visit, visit]
    by_cases hg : g ∈ first.visited
    · rw [if_pos hg, if_pos ((hstep.visited_iff hsame).1 hg)]
      exact .done hstep.onward
    · rw [if_neg hg, if_neg (mt (hstep.visited_iff hsame).2 hg)]
      obtain ⟨location, ⟨file, hfile, hat⟩, file', hfile', hat'⟩ := id hsame
      have hparsed := parseFile_spelling hrooted hat hat' (hstep.sound₁.parsed hfile)
      have htree : file.tree = file'.tree :=
        Except.ok.inj (hparsed.symm.trans (hstep.sound₂.parsed hfile'))
      rw [hfile, hfile']
      simp only [← htree]
      have hbegun : InStep tree roots roots' { first with visited := g :: first.visited }
          { second with visited := h :: second.visited } :=
        { hstep with
          sound₁ := hstep.sound₁.walked _ _
          sound₂ := hstep.sound₂.walked _ _
          visited := .cons hsame hstep.visited
          ended := fun _ hid => List.mem_cons_of_mem _ (hstep.ended hid) }
      refine (Outcomes.foldlM (fun now now' hon specifier hs => ?_) hbegun.onward).bind
        fun ended ended' hon => .done ?_
      · obtain ⟨kept, hkept, hpath, hkeptTree, -⟩ := hon.kept₁ _ _ hfile
        obtain ⟨kept', hkept', hpath', hkeptTree', -⟩ := hon.kept₂ _ _ hfile'
        rw [← hpath, ← hpath']
        exact (follow_inStep hrooted ih hon.toInStep hkept hkept' (hpath ▸ hat) (hpath' ▸ hat')
          (hkeptTree ▸ hs) (hkeptTree' ▸ htree ▸ hs)).imp fun _ _ hon' => hon.trans hon'
      · have hvisited : h ∈ ended'.visited := hon.grown (List.mem_cons_self ..)
        exact { hon with
          sound₁ := hon.sound₁.walked _ _
          sound₂ := hon.sound₂.walked _ _
          finished := .cons (hsame.kept hon.kept₁ hon.kept₂) hon.finished
          ended := List.cons_subset.2 ⟨hvisited, hon.ended⟩
          grown := fun _ hid => hon.grown (List.mem_cons_of_mem _ hid) }

end

/-! ## One more root -/

section

variable {tree : FileTree} {roots : List Path} {extra : Path} {location : Location}

/-- A root that is added last is registered last, unless its file is there already. -/
theorem Discovery.addRoots_append (parsed : List (Path × SourceTree)) (source : SourceTree)
    (discovery : Discovery) : addRoots tree (parsed ++ [(extra, source)]) discovery =
      match (addRoots tree parsed discovery).2.known? tree extra with
      | some _ => addRoots tree parsed discovery
      | none =>
        let (id, registered) := (addRoots tree parsed discovery).2.register tree extra source
        ((addRoots tree parsed discovery).1 ++ [id], registered) := by
  induction parsed generalizing discovery with
  | nil =>
    cases hknown : discovery.known? tree extra <;> simp [addRoots, hknown]
  | cons root rest ih =>
    obtain ⟨path, parsed⟩ := root
    simp only [List.cons_append, addRoots]
    cases discovery.known? tree path with
    | some => exact ih discovery
    | none =>
      simp only [ih]
      cases (addRoots tree rest _).2.known? tree extra <;> rfl

/-- Visits some files, one after the other. -/
def Discovery.visitAll (tree : FileTree) (ids : List ModuleId) (discovery : Discovery) :
    Except LoadError Discovery :=
  ids.foldlM (fun discovery id => discovery.visit tree (tree.entries.length + 1) id) discovery

theorem parseRoots_eq_ok {parsed : List (Path × SourceTree)}
    (h : parseRoots tree roots = .ok parsed) : parsed = parsedRoots tree roots := by
  rw [parseRoots_eq] at h
  split at h
  · exact (Except.ok.inj h).symm
  · cases h

theorem parseRoots_append {parsed : List (Path × SourceTree)} {source : SourceTree}
    (hparsed : parseRoots tree roots = .ok parsed) (hsource : parseFile tree extra = .ok source) :
    parseRoots tree (roots ++ [extra]) = .ok (parsed ++ [(extra, source)]) := by
  unfold parseRoots at hparsed ⊢
  rw [List.mapM_append, hparsed, List.mapM_cons, hsource]
  rfl

/-- The walks of both programs start in step, from the same roots but for the one that was added. -/
theorem addRoots_inStep {parsed : List (Path × SourceTree)} {source : SourceTree}
    (hparsed : parseRoots tree roots = .ok parsed) (hsource : parseFile tree extra = .ok source)
    (hat : tree.FileAt extra location) {added added' : List ModuleId × Discovery}
    (hadded : addRoots tree parsed start = added)
    (hadded' : addRoots tree (parsed ++ [(extra, source)]) start = added') :
    InStep tree roots (roots ++ [extra]) added.2 added'.2 ∧
      (∀ id ∈ added.1, SameFile tree added.2.files added'.2.files id id) ∧
        (added'.1 = added.1 ∨ ∃ new, added'.1 = added.1 ++ [new] ∧
          StandsAt tree added'.2.files new location) := by
  have hfirst : Registered tree roots added.1 added.2 :=
    addRoots_registered (parseRoots_eq_ok hparsed ▸ hadded)
  have hsecond : Registered tree (roots ++ [extra]) added'.1 added'.2 :=
    addRoots_registered (parseRoots_eq_ok (parseRoots_append hparsed hsource) ▸ hadded')
  have hkept : Kept added.2.files added'.2.files ∧ (added'.1 = added.1 ∨
      ∃ new, added'.1 = added.1 ++ [new] ∧ StandsAt tree added'.2.files new location) := by
    rw [addRoots_append, hadded, known?_eq hat] at hadded'
    cases hknown : added.2.known.lookup location with
    | none =>
      rw [hknown] at hadded'
      subst hadded'
      have hkept := kept_push added.2.files ⟨extra, source, []⟩
      exact ⟨hkept, .inr ⟨_, rfl, _, Array.getElem?_push_size, hat⟩⟩
    | some id =>
      rw [hknown] at hadded'
      subst hadded'
      exact ⟨Kept.refl _, .inl rfl⟩
  obtain ⟨hkept, hids⟩ := hkept
  refine ⟨⟨hfirst.sound, hsecond.sound, fun hid => ⟨_, hkept.standsAt hid⟩, ?_, ?_, ?_⟩,
    fun id hid => ?_, hids⟩
  · rw [hfirst.visited, hsecond.visited]
    exact .nil
  · rw [hfirst.finished, hsecond.finished]
    exact .nil
  · rw [hsecond.finished]
    exact List.nil_subset _
  · obtain ⟨target, hstands⟩ := hfirst.sound.standsAt ((hfirst.ids id).2 hid)
    exact ⟨target, hstands, hkept.standsAt hstands⟩

theorem Modules.load_eq_error {cause : LoadError} (hparsed : parseRoots tree roots = .error cause) :
    Modules.load tree roots = .error cause := by
  have hload : Modules.load tree roots = Modules.loadWithin tree roots (tree.entries.length + 1) := rfl
  rw [hload, Modules.loadWithin, hparsed]
  rfl

theorem Modules.load_eq_visitAll {parsed : List (Path × SourceTree)}
    (hparsed : parseRoots tree roots = .ok parsed) : Modules.load tree roots =
      (visitAll tree (addRoots tree parsed start).1 (addRoots tree parsed start).2).map
        fun ended => ⟨ended.files, ended.finished.reverse⟩ := by
  have hload : Modules.load tree roots = Modules.loadWithin tree roots (tree.entries.length + 1) := rfl
  rw [hload, Modules.loadWithin, hparsed]
  rfl

theorem visitAll_inStep (hrooted : tree.IsRooted) {roots' : List Path} {first second : Discovery}
    (hstep : InStep tree roots roots' first second) {ids : List ModuleId}
    (hids : ∀ id ∈ ids, SameFile tree first.files second.files id id) :
    Outcomes tree roots (Onward tree roots roots' first second) (visitAll tree ids first)
      (visitAll tree ids second) :=
  .foldlM (fun _ _ hon id hid => (visit_inStep hrooted _ hon.toInStep
    ((hids id hid).kept hon.kept₁ hon.kept₂)).imp fun _ _ hon' => hon.trans hon') hstep.onward

theorem visitAll_append_error {ids : List ModuleId} {first : Discovery} {cause : LoadError}
    (hvisit : visitAll tree ids first = .error cause) (others : List ModuleId) :
    visitAll tree (ids ++ others) first = .error cause := by
  unfold visitAll at hvisit ⊢
  rw [List.foldlM_append, hvisit]
  rfl

/-- A file that was visited is not visited again. -/
theorem visitAll_append_visited {ids : List ModuleId} {new : ModuleId} {first ended : Discovery}
    (hvisit : visitAll tree ids first = .ok ended) (hvisited : new ∈ ended.visited) :
    visitAll tree (ids ++ [new]) first = .ok ended := by
  unfold visitAll at hvisit ⊢
  rw [List.foldlM_append, hvisit]
  simp only [bind, Except.bind, List.foldlM_cons, visit, if_pos hvisited]
  rfl

/-- A root whose file has been visited in the one program need not be visited in the other. -/
theorem Onward.visitAll_append {roots' : List Path} {first second ended ended' : Discovery}
    {ids : List ModuleId} {id new : ModuleId}
    (hon : Onward tree roots roots' first second ended ended')
    (hvisits : visitAll tree ids second = .ok ended') (hid : id ∈ ended.finished)
    (hstands : StandsAt tree ended.files id location) (hnew : StandsAt tree second.files new location) :
    visitAll tree (ids ++ [new]) second = .ok ended' := by
  have hsame : SameFile tree ended.files ended'.files id new :=
    ⟨location, hstands, hon.kept₂.standsAt hnew⟩
  have hunique := hon.sound₁.sameFile_biUnique hon.sound₂
  have hfinished := (List.rel_mem hunique hsame hon.finished).1 hid
  exact visitAll_append_visited hvisits (hon.ended hfinished)

/-- If the file of a root has been loaded before, the same files are loaded with that root, in the same
order, unless loading ends at a specifier that names the directory of its file. -/
theorem Modules.load_append {modules : Modules} (hrooted : tree.IsRooted)
    (hload : Modules.load tree roots = .ok modules)
    (hloaded : ∃ id, StandsAt tree modules.files id location) (hat : tree.FileAt extra location) :
    (∃ modules', Modules.load tree (roots ++ [extra]) = .ok modules' ∧
      List.Forall₂ (SameFile tree modules.files modules'.files) modules.order modules'.order) ∨
    ∃ specifier importer, Misspelt tree roots specifier importer ∧
      Modules.load tree (roots ++ [extra]) = .error (.unresolved specifier importer) := by
  obtain ⟨discovery, hdiscovery, rfl⟩ := Modules.exists_loaded hload
  obtain ⟨id, file, hfile, hfileAt⟩ := id hloaded
  have hsource := parseFile_spelling hrooted hfileAt hat (hdiscovery.sound.parsed hfile)
  rcases hparsed : parseRoots tree roots with cause | parsed
  · rw [Modules.load_eq_error hparsed] at hload
    cases hload
  · rw [Modules.load_eq_visitAll hparsed] at hload
    rw [Modules.load_eq_visitAll (parseRoots_append hparsed hsource)]
    obtain ⟨hstart, hids, hnew⟩ := addRoots_inStep hparsed hsource hat rfl rfl
    have houtcomes := visitAll_inStep hrooted hstart hids
    generalize addRoots tree parsed start = added at *
    generalize addRoots tree (parsed ++ [(extra, _)]) start = added' at *
    rcases hfirst : visitAll tree added.1 added.2 with cause | ended
    · rw [hfirst] at hload
      cases hload
    · rw [hfirst] at hload houtcomes
      obtain ⟨hfiles, hfinished⟩ := Modules.mk.inj (Except.ok.inj hload)
      rcases hsecond : visitAll tree added.1 added'.2 with cause | ended'
      · rw [hsecond] at houtcomes
        cases houtcomes with
        | stopped _ hmisspelt =>
          refine .inr ⟨_, _, hmisspelt, ?_⟩
          rcases hnew with hsame | ⟨new, happend, -⟩
          · rw [hsame, hsecond]
            rfl
          · rw [happend, visitAll_append_error hsecond]
            rfl
      · rw [hsecond] at houtcomes
        cases houtcomes with
        | done hon =>
          have hvisit : visitAll tree added'.1 added'.2 = .ok ended' := by
            rcases hnew with hsame | ⟨new, happend, hstands⟩
            · rw [hsame, hsecond]
            · have hid := hdiscovery.all id (Array.getElem?_eq_some_iff.1 hfile).1
              rw [← List.reverse_injective hfinished] at hid
              rw [happend]
              exact hon.visitAll_append hsecond hid ⟨file, hfiles ▸ hfile, hfileAt⟩ hstands
          rw [hvisit]
          refine .inl ⟨_, rfl, ?_⟩
          rw [← hfiles, ← hfinished]
          exact List.rel_reverse hon.finished

end

end ComponentSchema
