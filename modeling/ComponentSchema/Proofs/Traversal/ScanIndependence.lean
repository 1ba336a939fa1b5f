import ComponentSchema.Proofs.Comparison.CounterpartContributions
import ComponentSchema.Proofs.Comparison.RestatedDocuments
import ComponentSchema.Proofs.Loader.SharedFiles

/-!
# What else is scanned

A file may be documented along with others: by other roots, with other files before and after it, and
under other ids. What it contributes is the same. The two programs are not compared run against run:
what each run adds for the file is what the file contributes by the index alone, and the indices are
alike.

Hypotheses. `Modules.NothingGlobal`: there is no script and no `declare global` block, by which one file
could be seen from another that does not import it. `Index.Straight`: no declaration that was asked for
refers to itself, since of a circle of aliases the one asked for first is another type than when it is
asked for last.

Results.
* `Modules.contribution_eq`: a file that two programs load adds the same to both documents.
-/
namespace ComponentSchema

namespace Modules

variable {tree : FileTree} {roots₁ roots₂ : List Path} {modules₁ modules₂ : Modules} {g h : ModuleId}
  {location : Location}

/-- A file that is loaded stands at one place of the order. -/
theorem BoundAt.order_iff {modules : Modules} (hbindable : modules.Bindable)
    (hvalid : ∀ id ∈ modules.order, id.index < modules.files.size) {k : Nat} {file : ModuleFile}
    (hk : modules.BoundAt k g file) (k' : Nat) : modules.order[k']? = some g ↔ k' = k := by
  rw [← map_fst_bound hvalid, List.getElem?_map, Option.map_eq_some_iff]
  constructor
  · rintro ⟨⟨g', file'⟩, hk', rfl⟩
    exact hbindable.once hk' hk
  · rintro rfl
    exact ⟨(g, file), hk, rfl⟩

/-- A file that two programs load adds the same to both documents: the components that are found while
it is visited, and in `repeated` mode the schemas. -/
theorem contribution_eq (hrooted : tree.IsRooted) (hload₁ : Modules.load tree roots₁ = .ok modules₁)
    (hload₂ : Modules.load tree roots₂ = .ok modules₂) (hlocal₁ : modules₁.NothingGlobal)
    (hlocal₂ : modules₂.NothingGlobal) (mode : SchemaMode)
    (hmet₁ : modules₁.program.index.NoneMet (modules₁.program.documented mode))
    (hmet₂ : modules₂.program.index.NoneMet (modules₂.program.documented mode))
    (hg : StandsAt tree modules₁.files g location) (hh : StandsAt tree modules₂.files h location) :
    ∃ i j, (∀ k, modules₁.order[k]? = some g ↔ k = i) ∧ (∀ k, modules₂.order[k]? = some h ↔ k = j) ∧
      (∃ components,
        (modules₁.program.traversal mode (i + 1)).document.components =
          (modules₁.program.traversal mode i).document.components ++ components ∧
        (modules₂.program.traversal mode (j + 1)).document.components =
          (modules₂.program.traversal mode j).document.components ++ components) ∧
      (mode = .repeated → ∃ schemas,
        (modules₁.program.traversal mode (i + 1)).document.types =
          (modules₁.program.traversal mode i).document.types ++ schemas ∧
        (modules₂.program.traversal mode (j + 1)).document.types =
          (modules₂.program.traversal mode j).document.types ++ schemas) := by
  obtain ⟨discovery₁, hloaded₁, rfl⟩ := exists_loaded hload₁
  obtain ⟨discovery₂, hloaded₂, rfl⟩ := exists_loaded hload₂
  have hsharing := Sharing.of_loaded hrooted hloaded₁ hloaded₂ hlocal₁ hlocal₂
  have hsame : SameFile tree discovery₁.files discovery₂.files g h := ⟨location, hg, hh⟩
  obtain ⟨file₁, hfile₁, -⟩ := hg
  obtain ⟨file₂, hfile₂, -⟩ := hh
  obtain ⟨i, hi⟩ := hsharing.bindable₁.all hfile₁
  obtain ⟨j, hj⟩ := hsharing.bindable₂.all hfile₂
  obtain ⟨b, n, -, view₁, view₂, hview₁, hview₂, hviews⟩ := hsharing.bindFile hi hj hsame
  have hfound₁ := Program.traversal_succ hmet₁ hview₁
  have hfound₂ := Program.traversal_succ hmet₂ hview₂
  have halike := hsharing.alike.adjoin hsharing.node_lt
  obtain ⟨hcomponents, hschemas⟩ := halike.contributions (.site (.inr ⟨rfl, rfl⟩))
    (hviews.mono (Counterparts.within_adjoin ..))
  refine ⟨i, j, hi.order_iff hsharing.bindable₁ fun _ => lt_of_mem_order hload₁,
    hj.order_iff hsharing.bindable₂ fun _ => lt_of_mem_order hload₂,
    ⟨_, hfound₁.components, ?_⟩, fun hmode => ⟨_, hfound₁.types hmode, ?_⟩⟩
  · exact hfound₂.components.trans (congrArg (_ ++ ·) hcomponents.symm)
  · exact (hfound₂.types hmode).trans (congrArg (_ ++ ·) hschemas.symm)

/-- A component whose props are declared in another file, and a file that declares a type of the same
name. -/
def propsTree : FileTree where
  entries := [(["a.tsx"], .file "import { P } from './p';\nexport const A = (p: P) => <a />;\n"),
    (["p.ts"], .file "export type P = { q: Q };\ntype Q = { n: string };\n"),
    (["z.ts"], .file "export type P = { z: any };\n")]
  current := []

/-- What is asked of a program of that tree, and the paths of its files. -/
def sharingChecks (roots : List Path) : Option (Bool × Bool × List Path) :=
  (Modules.load propsTree roots).toOption.map fun modules =>
    (decide modules.NothingGlobal,
      decide (modules.program.index.NoneMet (modules.program.documented .repeated)),
      modules.files.toList.map (·.path))

set_option maxRecDepth 100000 in
theorem sharingChecks_propsTree :
    sharingChecks [⟨"a.tsx"⟩] = some (true, true, [⟨"a.tsx"⟩, ⟨"p.ts"⟩]) ∧
      sharingChecks [⟨"z.ts"⟩, ⟨"./a.tsx"⟩] =
        some (true, true, [⟨"z.ts"⟩, ⟨"./a.tsx"⟩, ⟨"./p.ts"⟩]) := by
  decide +kernel

theorem loads_of_sharingChecks {roots paths : List Path}
    (h : sharingChecks roots = some (true, true, paths)) :
    ∃ modules, Modules.load propsTree roots = .ok modules ∧ modules.NothingGlobal ∧
      modules.program.index.NoneMet (modules.program.documented .repeated) ∧
        modules.files.toList.map (·.path) = paths := by
  obtain ⟨modules, hload, h⟩ := Modules.exists_load h
  obtain ⟨hlocal, h⟩ := Prod.mk.inj h
  obtain ⟨hmet, hpaths⟩ := Prod.mk.inj h
  exact ⟨modules, hload, of_decide_eq_true hlocal, of_decide_eq_true hmet, hpaths⟩

theorem standsAt_of_paths {files : Array ModuleFile} {paths : List Path} {path : Path} {i : Nat}
    (h : files.toList.map (·.path) = paths) (hpath : paths[i]? = some path)
    (hat : propsTree.FileAt path location) : StandsAt propsTree files ⟨i⟩ location := by
  rw [← h, List.getElem?_map, Option.map_eq_some_iff] at hpath
  obtain ⟨file, hfile, rfl⟩ := hpath
  exact ⟨file, by simpa using hfile, hat⟩

/-- The component is documented the same alone and after the other file. -/
theorem contribution_eq_propsTree : ∃ modules₁ modules₂,
    Modules.load propsTree [⟨"a.tsx"⟩] = .ok modules₁ ∧
      Modules.load propsTree [⟨"z.ts"⟩, ⟨"./a.tsx"⟩] = .ok modules₂ ∧
        ∃ i j components, (∀ k, modules₁.order[k]? = some ⟨0⟩ ↔ k = i) ∧
          (∀ k, modules₂.order[k]? = some ⟨1⟩ ↔ k = j) ∧
            (modules₁.program.traversal .repeated (i + 1)).document.components =
              (modules₁.program.traversal .repeated i).document.components ++ components ∧
            (modules₂.program.traversal .repeated (j + 1)).document.components =
              (modules₂.program.traversal .repeated j).document.components ++ components := by
  obtain ⟨halone, hafter⟩ := sharingChecks_propsTree
  obtain ⟨modules₁, hload₁, hlocal₁, hmet₁, hpaths₁⟩ := loads_of_sharingChecks halone
  obtain ⟨modules₂, hload₂, hlocal₂, hmet₂, hpaths₂⟩ := loads_of_sharingChecks hafter
  have hat₁ : propsTree.FileAt ⟨"a.tsx"⟩ ["a.tsx"] := ⟨by decide, _, rfl⟩
  have hat₂ : propsTree.FileAt ⟨"./a.tsx"⟩ ["a.tsx"] := ⟨by decide, _, rfl⟩
  obtain ⟨i, j, hi, hj, ⟨components, hcomponents⟩, -⟩ := contribution_eq (by decide) hload₁ hload₂
    hlocal₁ hlocal₂ .repeated hmet₁ hmet₂ (standsAt_of_paths (i := 0) hpaths₁ rfl hat₁)
    (standsAt_of_paths (i := 1) hpaths₂ rfl hat₂)
  exact ⟨modules₁, modules₂, hload₁, hload₂, i, j, components, hi, hj, hcomponents⟩

end Modules

end ComponentSchema
