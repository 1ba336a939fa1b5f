import ComponentSchema.Proofs.Comparison.RenumberedModules
import ComponentSchema.Proofs.Loader.AddedRoot
import ComponentSchema.Proofs.Loader.LoadFailures

/-!
# The document when a file is listed again

A root is added whose file is loaded already. The same files are loaded in the same order under other
ids, so the two programs have the same document; a class may only be shown under another path of its
file. Or loading ends at a specifier that names the directory of its file and nothing in it.

Hypothesis. `FileTree.IsRooted`: every entry stands in a directory.

Results.
* `Renumbered.of_load`: two programs with the same files in the same order.
* `documentFiles_append`: the document with one more root.
-/
namespace ComponentSchema

open Syntax Discovery

variable {tree : FileTree} {roots roots₁ roots₂ : List Path} {extra : Path} {location : Location}

/-- Two paths of the same file. -/
def SamePlace (tree : FileTree) (path path' : String) : Prop :=
  ∃ location, tree.FileAt ⟨path⟩ location ∧ tree.FileAt ⟨path'⟩ location

theorem filterMap_range_getElem? {α : Type} (items : List α) :
    (List.range items.length).filterMap (fun i => items[i]?) = items := by
  induction items with
  | nil => rfl
  | cons item rest ih =>
    rw [List.length_cons, List.range_succ_eq_map, List.filterMap_cons]
    simpa [List.filterMap_map, Function.comp_def] using ih

/-- In the order of a program each of its files is counted once. -/
theorem Discovery.Loaded.countP_files {discovery : Discovery} (h : Loaded tree roots discovery)
    (p : ModuleFile → Bool) : discovery.files.toList.countP p =
      (discovery.finished.reverse.filterMap fun id => discovery.files[id.index]?).countP p := by
  have hfiles : ((List.range discovery.files.size).map ModuleId.mk).filterMap
      (fun id => discovery.files[id.index]?) = discovery.files.toList := by
    rw [List.filterMap_map, ← Array.length_toList]
    simpa [Function.comp_def] using filterMap_range_getElem? discovery.files.toList
  rw [(h.order_perm.filterMap _).countP_eq p, hfiles]

/-- Two programs that have loaded the same files in the same order differ by ids and paths. -/
theorem Renumbered.of_load {first second : Modules} (hrooted : tree.IsRooted)
    (hfirst : Modules.load tree roots₁ = .ok first) (hsecond : Modules.load tree roots₂ = .ok second)
    (horder : List.Forall₂ (SameFile tree first.files second.files) first.order second.order) :
    Renumbered (SameFile tree first.files second.files) (SamePlace tree) first second := by
  obtain ⟨discovery₁, hloaded₁, rfl⟩ := Modules.exists_loaded hfirst
  obtain ⟨discovery₂, hloaded₂, rfl⟩ := Modules.exists_loaded hsecond
  have hfiles : ∀ {g h : ModuleId}, SameFile tree discovery₁.files discovery₂.files g h → Option.Rel
      (fun file file' => file.hasScope = file'.hasScope ∧ ∀ t : Twins,
        t.module = SameFile tree discovery₁.files discovery₂.files →
          t.SameBinding (SamePlace tree) file file')
      discovery₁.files[g.index]? discovery₂.files[h.index]? := by
    intro g h hsame
    obtain ⟨location, ⟨file, hfile, hat⟩, file', hfile', hat'⟩ := id hsame
    obtain ⟨htree, hdependencies⟩ := hloaded₁.sameFile hrooted hloaded₂ hsame hfile hfile'
    rw [hfile, hfile']
    refine .some ⟨congrArg (fun tree : SourceTree => !tree.isScript) htree, fun t ht =>
      ⟨⟨location, hat, hat'⟩, fun hagree hxy => ?_⟩⟩
    have hmodules : ∀ source,
        Option.Rel t.module (file.dependency? source) (file'.dependency? source) := by
      rw [ht]
      exact hdependencies
    rw [← htree]
    exact Pairing.bindBody_both (p := t.pairing) hmodules (.items file.tree.items)
      (fun _ => t.sharesGlobal) hagree hxy
  refine ⟨hloaded₁.sound.sameFile_biUnique hloaded₂.sound, hfiles, horder, ?_⟩
  rw [hloaded₁.countP_files, hloaded₂.countP_files]
  refine countP_of_forall₂ (R := fun file file' => file.hasScope = file'.hasScope) ?_ fun _ _ h => h
  exact List.rel_filterMap (fun _ _ hsame => rel_mono (fun _ _ h => h.1) (hfiles hsame)) horder

/-- With a file listed again the document is the same, but for the paths that the classes are shown
under, and the files are visited in the same order. Or loading ends at a specifier that names the
directory of its file. -/
theorem documentFiles_append {modules : Modules} (hrooted : tree.IsRooted)
    (hload : Modules.load tree roots = .ok modules)
    (hloaded : ∃ id, StandsAt tree modules.files id location) (hat : tree.FileAt extra location) :
    (∃ modules', Modules.load tree (roots ++ [extra]) = .ok modules' ∧
      List.Forall₂ (SameFile tree modules.files modules'.files) modules.order modules'.order ∧
      ∀ mode, ∃ document document', documentFiles tree roots mode = .ok document ∧
        documentFiles tree (roots ++ [extra]) mode = .ok document' ∧
          document.Alike (SamePlace tree) document') ∨
    ∃ specifier importer, Misspelt tree roots specifier importer ∧ ∀ mode,
      documentFiles tree (roots ++ [extra]) mode = .error (.unresolved specifier importer) := by
  have hdocument : ∀ {roots modules}, Modules.load tree roots = .ok modules → ∀ mode,
      documentFiles tree roots mode = .ok (modules.program.document mode) := by
    intro roots modules hload mode
    rw [documentFiles, Program.load_eq, hload]
    rfl
  rcases Modules.load_append hrooted hload hloaded hat with
    ⟨modules', hload', horder⟩ | ⟨specifier, importer, hmisspelt, herror⟩
  · refine .inl ⟨modules', hload', horder, fun mode => ?_⟩
    have hsame := Renumbered.of_load hrooted hload hload' horder
    exact ⟨_, _, hdocument hload mode, hdocument hload' mode, hsame.document_alike mode⟩
  · refine .inr ⟨specifier, importer, hmisspelt, fun mode => ?_⟩
    rw [documentFiles, Program.load_eq, herror]
    rfl

theorem exists_standsAt {modules : Modules} {paths : List Path} {path : Path}
    (hpaths : modules.files.toList.map (·.path) = paths) (hpath : path ∈ paths)
    (hat : tree.FileAt path location) : ∃ id, StandsAt tree modules.files id location := by
  rw [← hpaths] at hpath
  obtain ⟨file, hfile, rfl⟩ := List.mem_map.1 hpath
  obtain ⟨i, hi⟩ := List.getElem?_of_mem hfile
  exact ⟨⟨i⟩, file, by rwa [Array.getElem?_toList] at hi, hat⟩

/-- A file that imports one with a class. -/
def listedTree : FileTree where
  entries := [(["a.ts"], .file "import './b';\n"), (["b.ts"], .file "export class B {}\n"),
    (["lib"], .directory)]
  current := []

set_option maxRecDepth 100000 in
theorem loads_listedTree :
    (Modules.load listedTree [⟨"a.ts"⟩]).toOption.map
        (fun modules => modules.files.toList.map (·.path)) = some [⟨"a.ts"⟩, ⟨"b.ts"⟩] ∧
      (documentFiles listedTree [⟨"a.ts"⟩, ⟨"lib/../b.ts"⟩] .repeated).toOption.map
        (fun document => document.classes.map (·.fileName)) = some [some "lib/../b.ts"] := by
  decide +kernel

/-- The class is shown under the path that was listed; all else is the same. -/
theorem documentFiles_append_listedTree : ∃ modules modules',
    Modules.load listedTree [⟨"a.ts"⟩] = .ok modules ∧
    Modules.load listedTree [⟨"a.ts"⟩, ⟨"lib/../b.ts"⟩] = .ok modules' ∧
    List.Forall₂ (SameFile listedTree modules.files modules'.files) modules.order modules'.order ∧
    ∀ mode, ∃ document document', documentFiles listedTree [⟨"a.ts"⟩] mode = .ok document ∧
      documentFiles listedTree [⟨"a.ts"⟩, ⟨"lib/../b.ts"⟩] mode = .ok document' ∧
        document.Alike (SamePlace listedTree) document' := by
  have hrooted : listedTree.IsRooted := by decide
  have hb : listedTree.FileAt ⟨"b.ts"⟩ ["b.ts"] := ⟨by decide, _, rfl⟩
  have hextra : listedTree.FileAt ⟨"lib/../b.ts"⟩ ["b.ts"] := ⟨by decide, _, rfl⟩
  obtain ⟨hpaths, hclasses⟩ := loads_listedTree
  obtain ⟨modules, hload, hpaths⟩ := Modules.exists_load hpaths
  have hloaded := exists_standsAt hpaths (by simp) hb
  rcases documentFiles_append hrooted hload hloaded hextra with ⟨modules', hsame⟩ | ⟨_, _, -, herror⟩
  · exact ⟨modules, modules', hload, hsame⟩
  · rw [show [⟨"a.ts"⟩, ⟨"lib/../b.ts"⟩] = [(⟨"a.ts"⟩ : Path)] ++ [⟨"lib/../b.ts"⟩] from rfl,
      herror] at hclasses
    cases hclasses

/-- A file that imports another, which names its own directory. -/
def importingTree : FileTree where
  entries := (["app.ts"], .file "import './foo.css/x';\n") :: spelledTree.entries
  current := []

set_option maxRecDepth 100000 in
theorem loads_importingTree :
    (Modules.load importingTree [⟨"app.ts"⟩]).toOption.map
        (fun modules => modules.files.toList.map (·.path)) = some [⟨"app.ts"⟩, plainRoot] ∧
      (Modules.load importingTree [⟨"app.ts"⟩, roundaboutRoot]).toOption.map (·.order) = none := by
  decide +kernel

/-- With a file listed again, a program that could be loaded may not be loaded any more. -/
theorem not_documentFiles_append : ¬ ∀ (tree : FileTree) (roots : List Path) (extra : Path)
    (location : Location) (modules : Modules), tree.IsRooted → Modules.load tree roots = .ok modules →
    (∃ id, StandsAt tree modules.files id location) → tree.FileAt extra location →
    ∃ modules', Modules.load tree (roots ++ [extra]) = .ok modules' ∧
      List.Forall₂ (SameFile tree modules.files modules'.files) modules.order modules'.order ∧
      ∀ mode, ∃ document document', documentFiles tree roots mode = .ok document ∧
        documentFiles tree (roots ++ [extra]) mode = .ok document' ∧
          document.Alike (fun _ _ => True) document' := by
  intro hclaim
  have hplain : importingTree.FileAt plainRoot ["foo.css", "x.ts"] := ⟨by decide, _, rfl⟩
  have hextra : importingTree.FileAt roundaboutRoot ["foo.css", "x.ts"] := ⟨by decide, _, rfl⟩
  obtain ⟨hpaths, hfails⟩ := loads_importingTree
  obtain ⟨modules, hload, hpaths⟩ := Modules.exists_load hpaths
  have hloaded := exists_standsAt hpaths (by simp) hplain
  obtain ⟨modules', hload', -⟩ := hclaim _ _ _ _ _ (by decide) hload hloaded hextra
  rw [show [⟨"app.ts"⟩, roundaboutRoot] = [⟨"app.ts"⟩] ++ [roundaboutRoot] from rfl, hload'] at hfails
  cases hfails

end ComponentSchema
