import ComponentSchema.Proofs.Loader.Discovery

/-!
# Survey

A visit ends with the first file that cannot be loaded. Here it is the start of a longer walk, which
keeps the error and goes on. This walk comes to every file that the roots lead to, and finds it by
one path, whatever becomes of the others.

Visits end in the order in which they nest: whatever the walk comes upon and does not visit has been
visited before, and is either ended or still under way. The visits under way form a chain of imports
of different files, which bounds how deep they nest.

Results.
* `outcome_walk`: a visit is the walk up to its first error.
* `walk_brings`: what holds when the walk from a file ends, and that beyond the number of entries the
  bound on the nesting of visits is of no influence.
-/
namespace ComponentSchema

open Relation Discovery

/-- A discovery that goes on where a file cannot be loaded. -/
structure Survey where
  discovery : Discovery
  /-- Why files could not be loaded, in the order in which the walk came upon them. -/
  errors : List LoadError

namespace Survey

def fail (survey : Survey) (error : LoadError) : Survey :=
  { survey with errors := survey.errors ++ [error] }

def begin (survey : Survey) (id : ModuleId) : Survey :=
  { survey with discovery := { survey.discovery with visited := id :: survey.discovery.visited } }

def finish (survey : Survey) (id : ModuleId) : Survey :=
  { survey with discovery := { survey.discovery with finished := id :: survey.discovery.finished } }

/-- Pursues one specifier of a module; `walk` goes on from the file it leads to. -/
def pursue (tree : FileTree) (walk : ModuleId → Survey → Survey) (id : ModuleId) (path : Path)
    (survey : Survey) (specifier : String) : Survey :=
  match resolveImport tree path specifier with
  | .error error => survey.fail error
  | .ok none => survey
  | .ok (some found) =>
    match survey.discovery.require tree found with
    | .error error => survey.fail error
    | .ok (dependency, discovery) =>
      walk dependency { survey with discovery := discovery.addDependency id specifier dependency }

/-- The walk from a module, past what cannot be loaded. -/
def walk (tree : FileTree) : Nat → ModuleId → Survey → Survey
  | 0, _, survey => survey
  | depth + 1, id, survey =>
    if id ∈ survey.discovery.visited then survey
    else
      match survey.discovery.files[id.index]? with
      | none => survey
      | some file =>
        (file.tree.specifiers.foldl (pursue tree (walk tree depth) id file.path)
          (survey.begin id)).finish id

/-- What a survey comes to if its first error ends it. -/
def outcome (survey : Survey) : Except LoadError Discovery :=
  match survey.errors with
  | [] => .ok survey.discovery
  | error :: _ => .error error

/-! ## Errors -/

section

variable {tree : FileTree} {survey survey' : Survey} {α : Type}

theorem outcome_eq_ok {discovery : Discovery} (h : survey.outcome = .ok discovery) :
    survey = ⟨discovery, []⟩ := by
  obtain ⟨found, errors⟩ := survey
  cases errors with
  | nil => exact congrArg (Survey.mk · []) (Except.ok.inj h)
  | cons error errors => cases h

theorem outcome_eq_error_iff {error : LoadError} :
    survey.outcome = .error error ↔ survey.errors.head? = some error := by
  unfold outcome
  cases survey.errors <;> simp

/-- The first error stays the first. -/
theorem outcome_of_prefix {error : LoadError} (h : survey.outcome = .error error)
    (hkept : survey.errors <+: survey'.errors) : survey'.outcome = .error error := by
  rw [outcome_eq_error_iff] at *
  obtain ⟨later, hlater⟩ := hkept
  rw [← hlater, List.head?_append, h, Option.some_or]

/-- Where nothing has failed a step does what another does that may fail; then it always does. -/
theorem outcome_step {f : Survey → Survey} {stops : Discovery → Except LoadError Discovery}
    (hkept : ∀ survey, survey.errors <+: (f survey).errors)
    (h : ∀ discovery, (f ⟨discovery, []⟩).outcome = stops discovery) (survey : Survey) :
    (f survey).outcome = survey.outcome >>= stops := by
  rcases houtcome : survey.outcome with error | discovery
  · exact outcome_of_prefix houtcome (hkept survey)
  · rw [outcome_eq_ok houtcome]
    exact h discovery

theorem outcome_finish (survey : Survey) (id : ModuleId) :
    (survey.finish id).outcome = survey.outcome >>= fun ended =>
      pure { ended with finished := id :: ended.finished } := by
  obtain ⟨discovery, errors⟩ := survey
  cases errors <;> rfl

theorem errors_foldl {step : Survey → α → Survey}
    (hstep : ∀ survey x, survey.errors <+: (step survey x).errors) (survey : Survey) (xs : List α) :
    survey.errors <+: (xs.foldl step survey).errors := by
  induction xs generalizing survey with
  | nil => exact List.prefix_rfl
  | cons x rest ih => exact (hstep survey x).trans (ih (step survey x))

theorem outcome_foldl {step : Survey → α → Survey}
    {stops : Discovery → α → Except LoadError Discovery}
    (hstep : ∀ survey x, (step survey x).outcome = survey.outcome >>= fun discovery =>
      stops discovery x) (survey : Survey) (xs : List α) :
    (xs.foldl step survey).outcome = survey.outcome >>= fun discovery => xs.foldlM stops discovery := by
  induction xs generalizing survey with
  | nil => cases h : survey.outcome <;> exact h
  | cons x rest ih =>
    rw [List.foldl_cons, ih, hstep]
    cases survey.outcome <;> rfl

theorem pursue_errors {walk : ModuleId → Survey → Survey}
    (hwalk : ∀ id survey, survey.errors <+: (walk id survey).errors) (id : ModuleId) (path : Path)
    (survey : Survey) (specifier : String) :
    survey.errors <+: (pursue tree walk id path survey specifier).errors := by
  unfold pursue
  split
  · exact List.prefix_append _ _
  · exact List.prefix_rfl
  · split
    · exact List.prefix_append _ _
    · rename_i dependency discovery _
      exact hwalk dependency ⟨discovery.addDependency id specifier dependency, survey.errors⟩

theorem walk_errors (depth : Nat) (id : ModuleId) (survey : Survey) :
    survey.errors <+: (walk tree depth id survey).errors := by
  induction depth generalizing id survey with
  | zero => exact List.prefix_rfl
  | succ depth ih =>
    unfold walk
    split
    · exact List.prefix_rfl
    · split
      · exact List.prefix_rfl
      · exact errors_foldl (pursue_errors ih id _) (survey.begin id) _

theorem outcome_pursue {walk : ModuleId → Survey → Survey}
    {visit : ModuleId → Discovery → Except LoadError Discovery}
    (hwalk : ∀ id survey, survey.errors <+: (walk id survey).errors)
    (h : ∀ id survey, (walk id survey).outcome = survey.outcome >>= visit id) (id : ModuleId)
    (path : Path) (survey : Survey) (specifier : String) :
    (pursue tree walk id path survey specifier).outcome =
      survey.outcome >>= fun discovery => follow tree visit id path discovery specifier := by
  refine outcome_step (f := fun survey => pursue tree walk id path survey specifier)
    (fun survey => pursue_errors hwalk id path survey specifier) (fun discovery => ?_) survey
  unfold pursue follow
  rcases resolveImport tree path specifier with error | _ | found
  · rfl
  · rfl
  · simp only [bind, Except.bind]
    rcases discovery.require tree found with error | ⟨dependency, discovery'⟩
    · rfl
    · exact h _ _

/-- A visit is the walk up to its first error. -/
theorem outcome_walk (tree : FileTree) (depth : Nat) (id : ModuleId) (survey : Survey) :
    (walk tree depth id survey).outcome = survey.outcome >>= visit tree depth id := by
  induction depth generalizing id survey with
  | zero => cases h : survey.outcome <;> exact h
  | succ depth ih =>
    refine outcome_step (walk_errors (depth + 1) id) (fun discovery => ?_) survey
    rw [walk, visit]
    split
    · rfl
    · rcases discovery.files[id.index]? with _ | file
      · rfl
      · refine (outcome_finish _ id).trans ?_
        rw [outcome_foldl (outcome_pursue (walk_errors depth) ih id file.path)]
        rfl

end

/-! ## What the walk keeps -/

/-- A specifier fails: it leads nowhere, or to a file that cannot be parsed. -/
def Fails (tree : FileTree) (path : Path) (specifier : String) (error : LoadError) : Prop :=
  resolveImport tree path specifier = .error error ∨
    ∃ found, resolveImport tree path specifier = .ok (some found) ∧ parseFile tree found = .error error

/-- The walk is done with a specifier of a module: it has failed, or leads nowhere, or leads to a module
that has been visited. -/
def Followed (tree : FileTree) (survey : Survey) (f : ModuleId) (specifier : String) : Prop :=
  ∃ file, survey.discovery.files[f.index]? = some file ∧
    ((∃ error ∈ survey.errors, Fails tree file.path specifier error) ∨
      ∃ target, resolveImport tree file.path specifier = .ok target ∧
        ∀ found, target = some found →
          ∃ g ∈ survey.discovery.visited, (specifier, g) ∈ file.dependencies)

/-- What holds of the visits that have begun, and of those that have ended. Their order is that of the
imports if nothing has failed. -/
structure Settled (tree : FileTree) (survey : Survey) : Prop where
  visited : ∀ f ∈ survey.discovery.visited, f.index < survey.discovery.files.size
  nodup : survey.discovery.finished.Nodup
  subset : survey.discovery.finished ⊆ survey.discovery.visited
  followed : ∀ f ∈ survey.discovery.finished, ∀ {file : ModuleFile},
    survey.discovery.files[f.index]? = some file → ∀ specifier ∈ file.tree.specifiers,
      Followed tree survey f specifier
  ordered : survey.errors = [] → ∀ {before after : List ModuleId} {f : ModuleId},
    survey.discovery.finished = before ++ f :: after →
      ∀ {g : ModuleId}, DependsOn survey.discovery.files f g →
        g ∈ after ∨ TransGen (DependsOn survey.discovery.files) g f ∨ g = f

/-- An error comes from a root, or from a specifier of a file that was found. -/
def Blamed (tree : FileTree) (roots : List Path) (files : Array ModuleFile) (error : LoadError) : Prop :=
  (∃ root ∈ roots, parseFile tree root = .error error) ∨
    ∃ (i : Nat) (file : ModuleFile), files[i]? = some file ∧
      ∃ specifier ∈ file.tree.specifiers, Fails tree file.path specifier error

/-- What holds of a survey. -/
structure Faithful (tree : FileTree) (roots : List Path) (survey : Survey) : Prop where
  sound : Sound tree roots survey.discovery
  settled : Settled tree survey
  blamed : ∀ error ∈ survey.errors, Blamed tree roots survey.discovery.files error

/-- What a visit changes: it ends every visit that it begins. -/
structure Grown (survey survey' : Survey) : Prop where
  kept : Kept survey.discovery.files survey'.discovery.files
  errors : survey.errors ⊆ survey'.errors
  frozen : ∀ f ∈ survey.discovery.finished,
    survey'.discovery.files[f.index]? = survey.discovery.files[f.index]?
  visited : survey.discovery.visited ⊆ survey'.discovery.visited
  finished : survey.discovery.finished <:+ survey'.discovery.finished
  ended : ∀ f ∈ survey'.discovery.visited,
    f ∈ survey.discovery.visited ∨ f ∈ survey'.discovery.finished
  begun : ∀ f ∈ survey'.discovery.finished,
    f ∈ survey.discovery.finished ∨ f ∉ survey.discovery.visited
  found : ∀ f : ModuleId, f.index < survey'.discovery.files.size →
    f.index < survey.discovery.files.size ∨ f ∈ survey'.discovery.visited

/-- The visits that are under way. -/
structure UnderWay (active : List ModuleId) (survey : Survey) : Prop where
  nodup : active.Nodup
  begun : ∀ f ∈ active, f ∈ survey.discovery.visited ∧ f ∉ survey.discovery.finished
  all : ∀ f ∈ survey.discovery.visited, f ∈ survey.discovery.finished ∨ f ∈ active

section

variable {tree : FileTree} {roots : List Path} {survey survey' survey'' : Survey}
  {active : List ModuleId} {f g : ModuleId} {specifier : String}

theorem Followed.mono (h : Followed tree survey f specifier)
    (hkept : Kept survey.discovery.files survey'.discovery.files)
    (herrors : survey.errors ⊆ survey'.errors)
    (hvisited : survey.discovery.visited ⊆ survey'.discovery.visited) :
    Followed tree survey' f specifier := by
  obtain ⟨file, hfile, hcases⟩ := h
  obtain ⟨file', hfile', hpath, -, hdependencies⟩ := hkept _ _ hfile
  refine ⟨file', hfile', ?_⟩
  rw [hpath]
  rcases hcases with ⟨error, herror, hfails⟩ | ⟨target, htarget, hfound⟩
  · exact .inl ⟨error, herrors herror, hfails⟩
  · refine .inr ⟨target, htarget, fun found hf => ?_⟩
    obtain ⟨g, hg, hd⟩ := hfound found hf
    exact ⟨g, hvisited hg, hdependencies hd⟩

theorem Blamed.mono {files files' : Array ModuleFile} {error : LoadError}
    (h : Blamed tree roots files error) (hkept : Kept files files') :
    Blamed tree roots files' error := by
  refine h.imp_right ?_
  rintro ⟨i, file, hfile, specifier, hs, hfails⟩
  obtain ⟨file', hfile', hpath, htree, -⟩ := hkept _ _ hfile
  exact ⟨i, file', hfile', specifier, htree ▸ hs, hpath ▸ hfails⟩

theorem Grown.refl (survey : Survey) : Grown survey survey where
  kept := Kept.refl _
  errors _ := id
  frozen _ _ := rfl
  visited _ := id
  finished := List.suffix_rfl
  ended _ := .inl
  begun _ := .inl
  found _ := .inl

theorem Grown.trans (h : Grown survey survey') (h' : Grown survey' survey'') :
    Grown survey survey'' where
  kept := h.kept.trans h'.kept
  errors _ he := h'.errors (h.errors he)
  frozen f hf := (h'.frozen f (h.finished.subset hf)).trans (h.frozen f hf)
  visited _ hf := h'.visited (h.visited hf)
  finished := h.finished.trans h'.finished
  ended f hf := by
    rcases h'.ended f hf with hf | hf
    · exact (h.ended f hf).imp_right fun hf => h'.finished.subset hf
    · exact .inr hf
  begun f hf := by
    rcases h'.begun f hf with hf | hf
    · exact h.begun f hf
    · exact .inr fun hv => hf (h.visited hv)
  found f hf := by
    rcases h'.found f hf with hf | hf
    · exact (h.found f hf).imp_right fun hf => h'.visited hf
    · exact .inr hf

theorem UnderWay.grown (h : UnderWay active survey) (hgrown : Grown survey survey') :
    UnderWay active survey' where
  nodup := h.nodup
  begun f hf := by
    obtain ⟨hvisited, hfinished⟩ := h.begun f hf
    exact ⟨hgrown.visited hvisited,
      fun hf => (hgrown.begun f hf).elim hfinished fun hnew => hnew hvisited⟩
  all f hf := by
    rcases hgrown.ended f hf with hf | hf
    · exact (h.all f hf).imp_left fun hf => hgrown.finished.subset hf
    · exact .inl hf

theorem UnderWay.begin (h : UnderWay active survey) (hnew : f ∉ survey.discovery.visited)
    (hunfinished : f ∉ survey.discovery.finished) : UnderWay (f :: active) (survey.begin f) where
  nodup := List.nodup_cons.2 ⟨fun hf => hnew (h.begun f hf).1, h.nodup⟩
  begun := by
    intro e he
    rcases List.mem_cons.1 he with rfl | he
    · exact ⟨List.mem_cons_self .., hunfinished⟩
    · exact ⟨List.mem_cons_of_mem _ (h.begun e he).1, (h.begun e he).2⟩
  all := by
    intro e he
    rcases List.mem_cons.1 he with rfl | he
    · exact .inr (List.mem_cons_self ..)
    · exact (h.all e he).imp_right (List.mem_cons_of_mem _)

theorem Grown.finish (hnew : f ∉ survey.discovery.visited) (h : Grown (survey.begin f) survey') :
    Grown survey (survey'.finish f) where
  kept := h.kept
  errors := h.errors
  frozen := h.frozen
  visited _ he := h.visited (List.mem_cons_of_mem _ he)
  finished := h.finished.trans (List.suffix_cons _ _)
  ended e he := by
    rcases h.ended e he with he | he
    · rcases List.mem_cons.1 he with rfl | he
      · exact .inr (List.mem_cons_self ..)
      · exact .inl he
    · exact .inr (List.mem_cons_of_mem _ he)
  begun := by
    intro e he
    rcases List.mem_cons.1 he with rfl | he
    · exact .inr hnew
    · exact (h.begun e he).imp_right fun hb hv => hb (List.mem_cons_of_mem _ hv)
  found := h.found

theorem Grown.fail (survey : Survey) (error : LoadError) : Grown survey (survey.fail error) where
  kept := Kept.refl _
  errors := List.subset_append_left _ _
  frozen _ _ := rfl
  visited _ := id
  finished := List.suffix_rfl
  ended _ := .inl
  begun _ := .inl
  found _ := .inl

/-- The ended visits are not touched. -/
theorem Settled.of_kept (h : Settled tree survey)
    (hkept : Kept survey.discovery.files survey'.discovery.files)
    (hfrozen : ∀ f ∈ survey.discovery.finished,
      survey'.discovery.files[f.index]? = survey.discovery.files[f.index]?)
    (herrors : survey.errors ⊆ survey'.errors)
    (hfinished : survey'.discovery.finished = survey.discovery.finished)
    (hvisited : survey.discovery.visited ⊆ survey'.discovery.visited)
    (hlt : ∀ f ∈ survey'.discovery.visited, f.index < survey'.discovery.files.size) :
    Settled tree survey' where
  visited := hlt
  nodup := hfinished ▸ h.nodup
  subset := hfinished ▸ fun _ hf => hvisited (h.subset hf)
  followed f hf file hfile specifier hs := by
    rw [hfinished] at hf
    rw [hfrozen f hf] at hfile
    exact (h.followed f hf hfile specifier hs).mono hkept herrors hvisited
  ordered hclean before after f hsplit g hg := by
    have hearlier : survey.errors = [] := List.subset_nil.1 (hclean ▸ herrors)
    rw [hfinished] at hsplit
    obtain ⟨file, hfile, hdependency⟩ := hg
    rw [hfrozen _ (by simp [hsplit])] at hfile
    exact (h.ordered hearlier hsplit ⟨file, hfile, hdependency⟩).imp_right
      (Or.imp_left hkept.transGen)

/-- A visit begins. -/
theorem Faithful.begin (h : Faithful tree roots survey)
    (hlt : f.index < survey.discovery.files.size) : Faithful tree roots (survey.begin f) where
  sound := h.sound.walked _ _
  settled := by
    refine h.settled.of_kept (Kept.refl _) (fun _ _ => rfl) (fun _ => id) rfl
      (List.subset_cons_self _ _) fun e he => ?_
    rcases List.mem_cons.1 he with rfl | he
    · exact hlt
    · exact h.settled.visited e he
  blamed := h.blamed

/-- A visit ends. -/
theorem Faithful.finish (h : Faithful tree roots survey) (hvisited : f ∈ survey.discovery.visited)
    (hnew : f ∉ survey.discovery.finished)
    (hfollowed : ∀ {file : ModuleFile}, survey.discovery.files[f.index]? = some file →
      ∀ specifier ∈ file.tree.specifiers, Followed tree survey f specifier)
    (hordered : survey.errors = [] → ∀ {g : ModuleId}, DependsOn survey.discovery.files f g →
      g ∈ survey.discovery.finished ∨ TransGen (DependsOn survey.discovery.files) g f ∨ g = f) :
    Faithful tree roots (survey.finish f) where
  sound := h.sound.walked _ _
  settled :=
    { visited := h.settled.visited
      nodup := List.nodup_cons.2 ⟨hnew, h.settled.nodup⟩
      subset := List.cons_subset.2 ⟨hvisited, h.settled.subset⟩
      followed := by
        intro g hg file hfile
        rcases List.mem_cons.1 hg with rfl | hg
        · exact hfollowed hfile
        · exact h.settled.followed g hg hfile
      ordered := by
        intro hclean before after g hsplit
        rcases before with _ | ⟨first, before⟩
        · obtain ⟨rfl, rfl⟩ := List.cons.inj hsplit
          exact hordered hclean
        · exact h.settled.ordered hclean (List.cons.inj hsplit).2 }
  blamed := h.blamed

/-- Something cannot be loaded. -/
theorem Faithful.fail (h : Faithful tree roots survey) {error : LoadError}
    (herror : Blamed tree roots survey.discovery.files error) :
    Faithful tree roots (survey.fail error) where
  sound := h.sound
  settled := h.settled.of_kept (Kept.refl _) (fun _ _ => rfl) (List.subset_append_left _ _) rfl
    (List.Subset.refl _) h.settled.visited
  blamed e he := by
    rcases List.mem_append.1 he with he | he
    · exact h.blamed e he
    · rwa [List.mem_singleton.1 he]

end

/-! ## One specifier -/

section

variable {tree : FileTree} {roots : List Path} {survey survey'' : Survey} {discovery' : Discovery}
  {active : List ModuleId} {f g : ModuleId} {specifier : String} {path : Path} {location : Location}

/-- The dependency is recorded of a specifier that leads to a module. -/
def recorded (survey : Survey) (discovery : Discovery) (f : ModuleId) (specifier : String)
    (g : ModuleId) : Survey :=
  { survey with discovery := discovery.addDependency f specifier g }

/-- With a dependency recorded for a module whose visit has not ended, the ended visits are not
touched. -/
theorem frozen_recorded (h : Required tree survey.discovery discovery' g location)
    (hsettled : Settled tree survey) (hf : f ∉ survey.discovery.finished) (specifier : String) :
    ∀ e ∈ survey.discovery.finished,
      (survey.recorded discovery' f specifier g).discovery.files[e.index]? =
        survey.discovery.files[e.index]? := by
  intro e he
  have hne : f.index ≠ e.index := by
    intro heq
    obtain rfl : f = e := congrArg ModuleId.mk heq
    exact hf he
  rw [recorded, getElem?_addDependency, if_neg hne,
    h.files _ (hsettled.visited e (hsettled.subset he))]

theorem Faithful.recorded (hfaithful : Faithful tree roots survey)
    (h : Required tree survey.discovery discovery' g location)
    (hsound : Sound tree roots (discovery'.addDependency f specifier g))
    (hf : f ∉ survey.discovery.finished) :
    Faithful tree roots (survey.recorded discovery' f specifier g) where
  sound := hsound
  settled := by
    have hkept := h.keptFiles f specifier
    refine hfaithful.settled.of_kept hkept (frozen_recorded h hfaithful.settled hf specifier)
      (fun _ => id) h.finished (h.visited ▸ List.Subset.refl survey.discovery.visited) fun e he => ?_
    rw [Survey.recorded, Discovery.addDependency, h.visited] at he
    exact Nat.lt_of_lt_of_le (hfaithful.settled.visited e he) hkept.size
  blamed error herror := (hfaithful.blamed error herror).mono (h.keptFiles f specifier)

theorem UnderWay.recorded (hunderWay : UnderWay active survey)
    (h : Required tree survey.discovery discovery' g location) (f : ModuleId) (specifier : String) :
    UnderWay active (survey.recorded discovery' f specifier g) where
  nodup := hunderWay.nodup
  begun := by
    simpa only [Survey.recorded, Discovery.addDependency, h.visited, h.finished]
      using hunderWay.begun
  all := by
    simpa only [Survey.recorded, Discovery.addDependency, h.visited, h.finished] using hunderWay.all

/-- The modules that led to `f` lead to the required one. -/
theorem chain_recorded (h : Required tree survey.discovery discovery' g location) {file : ModuleFile}
    (hfile : discovery'.files[f.index]? = some file) (specifier : String)
    (hchain : ∀ e ∈ active, TransGen (DependsOn survey.discovery.files) e f) :
    ∀ e ∈ f :: active,
      TransGen (DependsOn (survey.recorded discovery' f specifier g).discovery.files) e g := by
  have hedge := dependsOn_addDependency hfile specifier g
  intro e he
  rcases List.mem_cons.1 he with rfl | he
  · exact .single hedge
  · exact ((h.keptFiles f specifier).transGen (hchain e he)).tail hedge

/-- A visit that starts after a file was required changes as much as one that finds the file. -/
theorem Grown.required (hgrown : Grown (survey.recorded discovery' f specifier g) survey'')
    (h : Required tree survey.discovery discovery' g location) (hsettled : Settled tree survey)
    (hf : f ∉ survey.discovery.finished) (hg : g ∈ survey''.discovery.visited) :
    Grown survey survey'' where
  kept := (h.keptFiles f specifier).trans hgrown.kept
  errors := hgrown.errors
  frozen e he :=
    (hgrown.frozen e (h.finished.symm ▸ he)).trans (frozen_recorded h hsettled hf specifier e he)
  visited := by
    rw [← h.visited]
    exact hgrown.visited
  finished := by
    rw [← h.finished]
    exact hgrown.finished
  ended := by
    rw [← h.visited]
    exact hgrown.ended
  begun := by
    rw [← h.visited, ← h.finished]
    exact hgrown.begun
  found e he := by
    rcases hgrown.found e he with he | he
    · rw [Survey.recorded, Discovery.addDependency, Array.size_modify] at he
      rcases h.found e he with he | rfl
      · exact .inl he
      · exact .inr hg
    · exact .inr he

/-- A part of the walk brings something about. -/
structure Brings (tree : FileTree) (roots : List Path) (survey : Survey) (goal : Survey → Prop)
    (survey' : Survey) : Prop where
  faithful : Faithful tree roots survey'
  grown : Grown survey survey'
  reached : goal survey'

/-- One part after the other: each starts from what the parts before it leave behind, and what they
brought about stays. -/
theorem foldl_brings {α : Type} {step other : Survey → α → Survey} {goal : α → Survey → Prop}
    {ready : Survey → Prop} {xs : List α}
    (hstep : ∀ x ∈ xs, ∀ {survey : Survey}, Faithful tree roots survey → ready survey →
      Brings tree roots survey (goal x) (step survey x) ∧ other survey x = step survey x)
    (hready : ∀ {survey survey' : Survey}, ready survey → Grown survey survey' → ready survey')
    (hgoal : ∀ {x : α} {survey survey' : Survey}, goal x survey → Grown survey survey' →
      goal x survey')
    (hfaithful : Faithful tree roots survey) (h : ready survey) :
    Brings tree roots survey (fun survey' => ∀ x ∈ xs, goal x survey') (xs.foldl step survey) ∧
      xs.foldl other survey = xs.foldl step survey := by
  induction xs generalizing survey with
  | nil => exact ⟨⟨hfaithful, Grown.refl _, by simp⟩, rfl⟩
  | cons x rest ih =>
    obtain ⟨hfirst, hother⟩ := hstep x (List.mem_cons_self ..) hfaithful h
    obtain ⟨hrest, hotherRest⟩ := ih (fun y hy => hstep y (List.mem_cons_of_mem _ hy))
      hfirst.faithful (hready h hfirst.grown)
    rw [List.foldl_cons, List.foldl_cons, hother]
    refine ⟨⟨hrest.faithful, hfirst.grown.trans hrest.grown, fun y hy => ?_⟩, hotherRest⟩
    rcases List.mem_cons.1 hy with rfl | hy
    · exact hgoal hfirst.reached hrest.grown
    · exact hrest.reached y hy

/-- What the walk from a module is to bring about, given the visits that are under way. Another walk
is as good. -/
def Walks (tree : FileTree) (roots : List Path) (active : List ModuleId)
    (next other : ModuleId → Survey → Survey) : Prop :=
  ∀ {g : ModuleId} {survey : Survey}, Faithful tree roots survey → UnderWay active survey →
    g.index < survey.discovery.files.size →
    (∀ f ∈ active, TransGen (DependsOn survey.discovery.files) f g) →
    Brings tree roots survey (fun survey' => g ∈ survey'.discovery.visited) (next g survey) ∧
      other g survey = next g survey

/-- A specifier that fails is done with. -/
theorem Faithful.brings_fail (hfaithful : Faithful tree roots survey) {file : ModuleFile}
    (hfile : survey.discovery.files[f.index]? = some file) (hs : specifier ∈ file.tree.specifiers)
    {error : LoadError} (hfails : Fails tree file.path specifier error) :
    Brings tree roots survey (fun survey' => Followed tree survey' f specifier)
      (survey.fail error) where
  faithful := hfaithful.fail (.inr ⟨f.index, file, hfile, specifier, hs, hfails⟩)
  grown := Grown.fail survey error
  reached := ⟨file, hfile, .inl ⟨error, List.mem_append_right _ (List.mem_singleton_self _), hfails⟩⟩

/-- With the visit of the required file the specifier that required it is done with. -/
theorem Brings.followed (hbrings : Brings tree roots (survey.recorded discovery' f specifier g)
      (fun survey' => g ∈ survey'.discovery.visited) survey'')
    (h : Required tree survey.discovery discovery' g location) (hsettled : Settled tree survey)
    (hf : f ∉ survey.discovery.finished) {file : ModuleFile}
    (hfile : discovery'.files[f.index]? = some file) {found : Path}
    (hresolved : resolveImport tree file.path specifier = .ok (some found)) :
    Brings tree roots survey (fun survey' => Followed tree survey' f specifier) survey'' := by
  have hadded : (discovery'.addDependency f specifier g).files[f.index]? =
      some { file with dependencies := (specifier, g) :: file.dependencies } := by
    rw [getElem?_addDependency, if_pos rfl, hfile]
    rfl
  obtain ⟨file', hfile', hpath, -, hdependencies⟩ := hbrings.grown.kept _ _ hadded
  refine ⟨hbrings.faithful, hbrings.grown.required h hsettled hf hbrings.reached, file', hfile',
    .inr ⟨some found, hpath ▸ hresolved, fun _ _ => ?_⟩⟩
  exact ⟨g, hbrings.reached, hdependencies (List.mem_cons_self ..)⟩

theorem pursue_brings {next other : ModuleId → Survey → Survey}
    (hnext : Walks tree roots (f :: active) next other) (hfaithful : Faithful tree roots survey)
    (hunderWay : UnderWay (f :: active) survey)
    (hchain : ∀ e ∈ active, TransGen (DependsOn survey.discovery.files) e f) {file : ModuleFile}
    (hfile : survey.discovery.files[f.index]? = some file) (hs : specifier ∈ file.tree.specifiers) :
    Brings tree roots survey (fun survey' => Followed tree survey' f specifier)
      (pursue tree next f file.path survey specifier) ∧
    pursue tree other f file.path survey specifier =
      pursue tree next f file.path survey specifier := by
  have hsound := hfaithful.sound
  unfold pursue
  rcases hresolved : resolveImport tree file.path specifier with error | _ | found
  · exact ⟨hfaithful.brings_fail hfile hs (.inl hresolved), rfl⟩
  · exact ⟨⟨hfaithful, Grown.refl _, file, hfile, .inr ⟨none, hresolved, by simp⟩⟩, rfl⟩
  · obtain ⟨location, hat⟩ := FileTree.isFile_iff.1 (resolveImport_isFile hresolved)
    have hreach : Reachable tree roots found :=
      (hsound.reachable hfile).leads ⟨_, hsound.parsed hfile, specifier, hs, hresolved⟩
    rcases hrequire : survey.discovery.require tree found with error | ⟨g, required⟩
    · simp only [hrequire]
      exact ⟨hfaithful.brings_fail hfile hs (.inr ⟨found, hresolved, require_eq_error hrequire⟩),
        trivial⟩
    · simp only [hrequire]
      obtain ⟨hsound', hrequired⟩ := hsound.require hreach hat hrequire
      have hunfinished := (hunderWay.begun f (List.mem_cons_self ..)).2
      have hfile' : required.files[f.index]? = some file :=
        (hrequired.files _ (Array.getElem?_eq_some_iff.1 hfile).1).trans hfile
      have hadded := hsound'.addDependency hfile' hs hresolved hat hrequired.standsAt
      obtain ⟨hbrings, hother⟩ := hnext (hfaithful.recorded hrequired hadded hunfinished)
        (hunderWay.recorded hrequired f specifier)
        (standsAt_addDependency.2 hrequired.standsAt).lt
        (chain_recorded hrequired hfile' specifier hchain)
      exact ⟨hbrings.followed hrequired hfaithful.settled hunfinished hfile' hresolved, hother⟩

theorem pursueAll_brings {next other : ModuleId → Survey → Survey}
    (hnext : Walks tree roots (f :: active) next other) {file : ModuleFile}
    (hfaithful : Faithful tree roots survey) (hunderWay : UnderWay (f :: active) survey)
    (hchain : ∀ e ∈ active, TransGen (DependsOn survey.discovery.files) e f)
    (hfile : survey.discovery.files[f.index]? = some file) :
    Brings tree roots survey
      (fun survey' => ∀ specifier ∈ file.tree.specifiers, Followed tree survey' f specifier)
      (file.tree.specifiers.foldl (pursue tree next f file.path) survey) ∧
    file.tree.specifiers.foldl (pursue tree other f file.path) survey =
      file.tree.specifiers.foldl (pursue tree next f file.path) survey := by
  let ready (survey : Survey) : Prop := UnderWay (f :: active) survey ∧
    (∀ e ∈ active, TransGen (DependsOn survey.discovery.files) e f) ∧
    ∃ kept, survey.discovery.files[f.index]? = some kept ∧ kept.path = file.path ∧
      kept.tree = file.tree
  have hready : ready survey := ⟨hunderWay, hchain, file, hfile, rfl, rfl⟩
  refine foldl_brings ?_ ?_ ?_ hfaithful hready
  · intro specifier hs survey hfaithful ⟨hunderWay, hchain, kept, hkept, hpath, htree⟩
    rw [← hpath]
    exact pursue_brings hnext hfaithful hunderWay hchain hkept (htree ▸ hs)
  · intro survey survey' ⟨hunderWay, hchain, kept, hkept, hpath, htree⟩ hgrown
    obtain ⟨kept', hkept', hpath', htree', -⟩ := hgrown.kept _ _ hkept
    exact ⟨hunderWay.grown hgrown, fun e he => hgrown.kept.transGen (hchain e he), kept', hkept',
      hpath'.trans hpath, htree'.trans htree⟩
  · exact fun hfollowed hgrown => hfollowed.mono hgrown.kept hgrown.errors hgrown.visited

/-! ## One visit -/

/-- Where nothing has failed, the dependencies of a module whose specifiers are done with are ended, or
under way. -/
theorem Faithful.dependsOn_visited (h : Faithful tree roots survey) (hclean : survey.errors = [])
    {file : ModuleFile}
    (hfile : survey.discovery.files[f.index]? = some file)
    (hfollowed : ∀ specifier ∈ file.tree.specifiers, Followed tree survey f specifier)
    (hg : DependsOn survey.discovery.files f g) : g ∈ survey.discovery.visited := by
  obtain ⟨file', hfile', specifier, hspecifier⟩ := hg
  obtain rfl := Option.some.inj (hfile.symm.trans hfile')
  obtain ⟨hs, found, location, hfound, hat, hgAt⟩ := h.sound.dependencies hfile hspecifier
  obtain ⟨file', hfile', ⟨error, herror, -⟩ | ⟨target, htarget, hall⟩⟩ := hfollowed specifier hs
  · simp [hclean] at herror
  · obtain rfl := Option.some.inj (hfile.symm.trans hfile')
    obtain ⟨g', hg', hspecifier'⟩ := hall found (Except.ok.inj (htarget.symm.trans hfound))
    obtain ⟨-, found', location', hfound', hat', hgAt'⟩ := h.sound.dependencies hfile hspecifier'
    obtain rfl := Option.some.inj (Except.ok.inj (hfound.symm.trans hfound'))
    obtain rfl := hat.unique hat'
    obtain rfl := h.sound.injective hgAt hgAt'
    exact hg'

/-- A visit ends when all specifiers of its module are done with. -/
theorem Brings.finish (hnew : f ∉ survey.discovery.visited)
    (hunfinished : f ∉ survey.discovery.finished) (hunderWay : UnderWay active survey)
    (hchain : ∀ e ∈ active, TransGen (DependsOn survey.discovery.files) e f) {file : ModuleFile}
    (hfile : survey.discovery.files[f.index]? = some file) {survey' : Survey}
    (hbrings : Brings tree roots (survey.begin f)
      (fun survey' => ∀ specifier ∈ file.tree.specifiers, Followed tree survey' f specifier)
      survey') :
    Brings tree roots survey (fun survey' => f ∈ survey'.discovery.visited) (survey'.finish f) := by
  obtain ⟨hfaithful, hgrown, hfollowed⟩ := hbrings
  have hunderWay' := (hunderWay.begin hnew hunfinished).grown hgrown
  have hvisited : f ∈ survey'.discovery.visited := hgrown.visited (List.mem_cons_self ..)
  obtain ⟨file', hfile', -, htree, -⟩ := hgrown.kept _ _ hfile
  rw [← htree] at hfollowed
  refine ⟨hfaithful.finish hvisited (hunderWay'.begun f (List.mem_cons_self ..)).2 ?_ ?_,
    hgrown.finish hnew, hvisited⟩
  · intro file'' hfile''
    obtain rfl := Option.some.inj (hfile'.symm.trans hfile'')
    exact hfollowed
  · -- a dependency that is under way, and not the module itself, has led to it
    intro hclean g hg
    rcases hunderWay'.all g (hfaithful.dependsOn_visited hclean hfile' hfollowed hg) with hg | hg
    · exact .inl hg
    · rcases List.mem_cons.1 hg with rfl | hg
      · exact .inr (.inr rfl)
      · exact .inr (.inl (hgrown.kept.transGen (hchain g hg)))

/-- What holds when the walk from a module ends, if visits may nest deep enough. How deep is of no
influence then. -/
theorem walk_brings (tree : FileTree) (roots : List Path) {depth depth' : Nat}
    {active : List ModuleId} (hdepth : tree.entries.length < active.length + depth)
    (hdepth' : tree.entries.length < active.length + depth') :
    Walks tree roots active (walk tree depth) (walk tree depth') := by
  induction depth generalizing active depth' with
  | zero =>
    intro g survey hfaithful hunderWay
    have hlength := hfaithful.sound.length_le hunderWay.nodup fun f hf =>
      hfaithful.settled.visited f (hunderWay.begun f hf).1
    omega
  | succ depth ih =>
    intro f survey hfaithful hunderWay hlt hchain
    have hlength := hfaithful.sound.length_le hunderWay.nodup fun f hf =>
      hfaithful.settled.visited f (hunderWay.begun f hf).1
    obtain ⟨depth', rfl⟩ : ∃ rest, depth' = rest + 1 := ⟨depth' - 1, by omega⟩
    rw [walk, walk]
    split
    · refine ⟨?_, rfl⟩
      exact ⟨hfaithful, Grown.refl _, ‹_›⟩
    · rename_i hnew
      have hfile := Array.getElem?_eq_getElem hlt
      generalize survey.discovery.files[f.index] = file at hfile
      rw [hfile]
      have hunfinished : f ∉ survey.discovery.finished :=
        fun hf => hnew (hfaithful.settled.subset hf)
      have hnext : Walks tree roots (f :: active) (walk tree depth) (walk tree depth') :=
        ih (by rw [List.length_cons]; omega) (by rw [List.length_cons]; omega)
      obtain ⟨hbrings, hother⟩ := pursueAll_brings hnext (hfaithful.begin hlt)
        (hunderWay.begin hnew hunfinished) hchain hfile
      simp only [hother]
      exact ⟨hbrings.finish hnew hunfinished hunderWay hchain hfile, trivial⟩

end

end Survey

end ComponentSchema
