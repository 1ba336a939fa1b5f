import ComponentSchema.Proofs.Comparison.RenumberedModules
import ComponentSchema.Proofs.Lookup.NameDerivations
import ComponentSchema.Proofs.Lookup.ReadingScopes

/-!
# Names are lexically scoped

Whatever a file writes outside of `declare global` blocks is read in a scope from which the way outward
leads through the namespaces around it to the scope of the file. So what a name leads to at the top level
of the file it leads to from anywhere inside, unless it leads somewhere in a namespace on the way: never
past the file to a global declaration of the same name, and whoever asks.

From within a `declare global` block the way outward does not lead through the file.

Results.
* `Index.Nested.sees`: what a name leads to in the outermost scope it leads to from inside.
* `Modules.references_lexical`: types are read where they are written, and there the names that a file
  declares and imports lead where they lead at its top level.
* `Modules.references_notLexical`: not so in `declare global` blocks.
-/
namespace ComponentSchema

open Syntax

/-! ## Spots of a file -/

theorem Spot.root_of_mem_holding {spot : Spot} {pieces : List Piece} {written : Spot × Piece}
    (h : written ∈ spot.holding pieces) : written.1.root = spot.root := by
  obtain ⟨piece, -, rfl⟩ := List.mem_map.1 h
  rfl

section

variable {file : ModuleFile}

mutual

theorem Syntax.Decl.writes_root : ∀ (decl : Decl) (spot : Spot), ∀ written ∈ decl.writes file spot,
    written.1.root = spot.root ∨ written.1.root = globalScope
  | .function _ definition, spot => fun written h => by
    rw [Decl.writes] at h
    exact .inl (Spot.root_of_mem_holding h)
  | .variables declarators, spot => fun written h => by
    rw [Decl.writes] at h
    exact .inl (Spot.root_of_mem_holding h)
  | .classDecl _ _, spot | .interface _ _, spot | .typeAlias _ _, spot | .enum _, spot =>
    fun written h => by
      rw [Decl.writes, List.mem_singleton] at h
      exact .inl (congrArg (·.1.root) h)
  | .namespaceDecl .global body, spot => fun written h => by
    rw [Decl.writes] at h
    exact .inr ((body.writes_root _ written h).elim id id)
  | .namespaceDecl (.identifier name) body, spot | .namespaceDecl (.string name) body, spot =>
    fun written h => by
      rw [Decl.writes] at h
      exact body.writes_root (spot.enter name) written h
  | .other, spot => fun written h => by
    rw [Decl.writes] at h
    cases h

theorem Syntax.NamespaceBody.writes_root : ∀ (body : NamespaceBody) (spot : Spot),
    ∀ written ∈ body.writes file spot, written.1.root = spot.root ∨ written.1.root = globalScope
  | .absent, spot => fun written h => by
    rw [NamespaceBody.writes] at h
    cases h
  | .nested name body, spot => fun written h => by
    rw [NamespaceBody.writes] at h
    exact body.writes_root (spot.enter name) written h
  | .items items, spot => fun written h => by
    rw [NamespaceBody.writes] at h
    exact writesAll_root items spot written h

theorem Syntax.writesAll_root : ∀ (items : List Item) (spot : Spot),
    ∀ written ∈ writesAll file spot items, written.1.root = spot.root ∨ written.1.root = globalScope
  | [], spot => fun written h => by
    rw [writesAll] at h
    cases h
  | item :: rest, spot => fun written h => by
    rw [writesAll, List.mem_append] at h
    exact h.elim (item.writes_root spot written) (writesAll_root rest spot written)

theorem Syntax.Item.writes_root : ∀ (item : Item) (spot : Spot), ∀ written ∈ item.writes file spot,
    written.1.root = spot.root ∨ written.1.root = globalScope
  | ⟨_, .declaration decl⟩, spot | ⟨_, .exportDecl decl⟩, spot => fun written h => by
    rw [Item.writes] at h
    exact decl.writes_root spot written h
  | ⟨_, .exportDefaultFunction _ definition⟩, spot => fun written h => by
    rw [Item.writes] at h
    exact .inl (Spot.root_of_mem_holding h)
  | ⟨_, .exportDefaultClass (some name) _⟩, spot | ⟨_, .exportDefaultInterface name _⟩, spot =>
    fun written h => by
      rw [Item.writes, List.mem_singleton] at h
      exact .inl (congrArg (·.1.root) h)
  | ⟨_, .imports source specifiers⟩, spot => fun written h => by
    rw [Item.writes] at h
    exact .inl (Spot.root_of_mem_holding h)
  | ⟨_, .exportDefaultClass none _⟩, spot | ⟨_, .exportDefaultExpr _⟩, spot | ⟨_, .statement _⟩, spot
  | ⟨_, .exportNamed _ _⟩, spot | ⟨_, .exportAll _⟩, spot | ⟨_, .otherModule⟩, spot =>
    fun written h => by
      simp [Item.writes] at h

end

end

/-! ## The way outward -/

namespace Index

variable {index : Index} {x y root : ScopeId} {spot spot' : Spot} {segments rest : List String}
  {name first : String} {d : DeclId}

/-- From the scope of a spot the way outward leads through the scopes of the namespaces around it. -/
theorem At.outward (h : index.At spot x) : ∃ inner, index.Outward x (inner ++ [spot.root]) ∧
    inner.map (fun y => (index.scope y).name) = spot.blocks.map some := by
  induction h with
  | top _ hparent => exact ⟨[], .last hparent, rfl⟩
  | @enter spot name parent x _ hname hparent _ ih =>
    obtain ⟨inner, houtward, hnames⟩ := ih
    exact ⟨x :: inner, .step hparent houtward, congrArg₂ List.cons hname hnames⟩

/-- There is one way outward. -/
theorem Outward.unique {outward outward' : List ScopeId} (h : index.Outward x outward)
    (h' : index.Outward x outward') : outward = outward' := by
  induction h generalizing outward' with
  | last hparent =>
    cases h' with
    | last => rfl
    | step hparent' => exact absurd (hparent.symm.trans hparent') (by simp)
  | step hparent _ ih =>
    cases h' with
    | last hparent' => exact absurd (hparent'.symm.trans hparent) (by simp)
    | step hparent' houtward' =>
      obtain rfl := Option.some.inj (hparent.symm.trans hparent')
      exact congrArg _ (ih houtward')

/-- A scope stands at one spot. -/
theorem At.unique (h : index.At spot x) (h' : index.At spot' x) : spot = spot' := by
  induction h generalizing spot' with
  | top _ hparent =>
    cases h' with
    | top => rfl
    | enter _ _ hparent' => exact absurd (hparent.symm.trans hparent') (by simp)
  | enter _ hname hparent _ ih =>
    cases h' with
    | top _ hparent' => exact absurd (hparent'.symm.trans hparent) (by simp)
    | enter _ hname' hparent' houter' =>
      obtain rfl := Option.some.inj (hparent.symm.trans hparent')
      obtain rfl := Option.some.inj (hname.symm.trans hname')
      rw [ih houter']

theorem At.eq_root (h : index.At (.top root) x) : x = root := by
  generalize hspot : Spot.top root = spot at h
  cases h with
  | top => exact congrArg Spot.root hspot.symm
  | enter => exact absurd (congrArg Spot.blocks hspot) (by simp [Spot.top, Spot.enter])

/-- From every spot whose outermost scope this is, a name leads to a declaration, unless it leads
somewhere from the scope of a namespace around the spot. -/
def Sees (index : Index) (root : ScopeId) (segments : List String) (d : DeclId) : Prop :=
  ∀ spot x, spot.root = root → index.At spot x →
    (∀ inner, index.Outward x (inner ++ [root]) → ∀ y ∈ inner, ∀ e, ¬ index.Derives 0 y segments e) →
      index.lookup x segments = some d

/-- What a name leads to in the outermost scope it leads to from inside. -/
theorem Nested.sees (h : index.Nested) (hroot : index.lookupIn exportBudget root segments = some d) :
    index.Sees root segments d := by
  rintro spot x rfl hat hfree
  obtain ⟨inner, houtward, -⟩ := hat.outward
  rw [lookup_eq, (h.outward x).unique houtward, List.append_assoc, List.findSome?_append]
  have hnone : inner.findSome? (fun scope => index.lookupIn exportBudget scope segments) = none := by
    refine List.findSome?_eq_none_iff.2 fun y hy => ?_
    rw [← Option.not_isSome_iff_eq_none, lookupIn_isSome_iff (Nat.add_zero exportBudget)]
    rintro ⟨e, he⟩
    exact hfree inner houtward y hy e he
  simp [hnone, hroot]

/-! ## Imports -/

/-- The declaration that an import leads to, by the rest of a qualified name. -/
def follow (index : Index) : ImportBinding → List String → Option DeclId
  | .named g name, rest => index.lookupExport maxExportDepth g name rest
  | .all g, name :: rest => index.lookupExport maxExportDepth g name rest
  | .all _, [] => none

theorem Holds.lookupDeclared (h : index.Holds x segments d) :
    index.lookupDeclared x segments = some d :=
  (lookupDeclared_eq index x segments).trans (holds_iff.1 h)

theorem lookupDeclared_eq_none (hnone : ∀ e, ¬ index.Holds x segments e) :
    index.lookupDeclared x segments = none := by
  rw [lookupDeclared_eq]
  exact Option.eq_none_iff_forall_not_mem.2 fun e he => hnone e (holds_iff.2 he)

/-- What is declared in a scope a name leads to, however deep the search is. -/
theorem Holds.lookupIn (h : index.Holds x segments d) (budget : Nat) :
    index.lookupIn budget x segments = some d := by
  cases budget <;> simp only [Index.lookupIn, h.lookupDeclared]

theorem lookupIn_holds (h : index.Holds x segments d) :
    index.lookupIn exportBudget x segments = some d :=
  h.lookupIn exportBudget

/-- Where nothing is declared a name leads where its import does. -/
theorem lookupIn_import (hnone : ∀ e, ¬ index.Holds x (first :: rest) e) {binding : ImportBinding}
    (himport : (index.scope x).imports.lookup first = some binding) :
    index.lookupIn exportBudget x (first :: rest) = index.follow binding rest := by
  rw [exportBudget_eq, lookupIn, lookupDeclared_eq_none hnone]
  simp only [himport]
  cases binding with
  | named => rfl
  | all => cases rest <;> rfl

/-- The declaration that a file makes of a name at its top level: whatever it is merged from is declared
there. -/
def IsOwn (index : Index) (file : ModuleFile) (root : ScopeId) (name : String) (d : DeclId) : Prop :=
  ∃ decl, index.decls[d.index]? = some decl ∧ decl.name = name ∧ decl.scope = root ∧
    ∀ part ∈ decl.kind.parts, (.top root, .declares name part) ∈ file.writes root

end Index

/-! ## The top level of a file -/

namespace Modules

open Index

variable {modules : Modules} {entry other : ModuleId × ModuleFile} {spot : Spot} {piece : Piece}
  {name : String}

theorem bind_bound (modules : Modules) : Bound (fun _ => True) modules.bind.2 :=
  (bind_changes modules.within_true).bound (.empty _)

theorem at_root (hentry : entry ∈ modules.bound) : modules.bind.2.At
    (.top (modules.bind.2.moduleScope entry.1)) (modules.bind.2.moduleScope entry.1) := by
  rw [(moduleScope_bound hentry).2]
  exact (bound_changes modules.within_true).at (modules.at_unbound entry.1)

/-- A scope of its own belongs to one file. -/
theorem eq_of_moduleScope (hentry : entry ∈ modules.bound) (hscope : entry.2.hasScope = true)
    (hother : other ∈ modules.bound)
    (h : modules.bind.2.moduleScope other.1 = modules.bind.2.moduleScope entry.1) : other = entry := by
  rw [(moduleScope_bound hentry).2, (moduleScope_bound hother).2] at h
  rcases moduleScope_eq_iff.1 h with ⟨-, hnone⟩ | hid
  · rw [Modules.hasScope, exists_of_mem_bound hentry] at hnone
    exact absurd hnone (by simp [hscope])
  · have hfile := exists_of_mem_bound hother
    rw [hid, exists_of_mem_bound hentry] at hfile
    exact Prod.ext hid (Option.some.inj hfile).symm

/-- A scope of its own is not the global scope. -/
theorem moduleScope_ne_global (hentry : entry ∈ modules.bound) (hscope : entry.2.hasScope = true) :
    globalScope ≠ modules.bind.2.moduleScope entry.1 := by
  intro h
  rw [(moduleScope_bound hentry).2] at h
  have hnone := moduleScope_eq_global_iff.1 h.symm
  rw [Modules.hasScope, exists_of_mem_bound hentry] at hnone
  exact absurd hnone (by simp [hscope])

/-- What is written in a spot of a file with a scope of its own is written in this file. -/
theorem eq_of_root (hentry : entry ∈ modules.bound) (hscope : entry.2.hasScope = true)
    (hother : other ∈ modules.bound)
    (hwritten : (spot, piece) ∈ other.2.writes (modules.bind.2.moduleScope other.1))
    (hroot : spot.root = modules.bind.2.moduleScope entry.1) : other = entry := by
  have hplace := writesAll_root other.2.tree.items _ _ hwritten
  rw [hroot] at hplace
  rcases hplace with hsame | hglobal
  · exact eq_of_moduleScope hentry hscope hother hsame.symm
  · exact absurd hglobal.symm (moduleScope_ne_global hentry hscope)

/-- What is kept with the scope of a file is written at its top level. -/
theorem written_of_keeps (hentry : entry ∈ modules.bound) (hscope : entry.2.hasScope = true)
    (h : modules.bind.2.Keeps (modules.bind.2.moduleScope entry.1) piece) :
    (.top (modules.bind.2.moduleScope entry.1), piece) ∈
      entry.2.writes (modules.bind.2.moduleScope entry.1) := by
  obtain ⟨other, hother, spot, hwritten, hat⟩ := modules.kept_iff_written.1 _ _ h
  obtain rfl := hat.unique (at_root hentry)
  obtain rfl := eq_of_root hentry hscope hother hwritten rfl
  exact hwritten

/-- What is written at the top level of a file is kept with its scope, if it is not given up. -/
theorem keeps_of_written (hentry : entry ∈ modules.bound)
    (h : (.top (modules.bind.2.moduleScope entry.1), piece) ∈
      entry.2.writes (modules.bind.2.moduleScope entry.1)) :
    modules.bind.2.Keeps (modules.bind.2.moduleScope entry.1) piece ∨
      modules.bind.2.GivesUp (modules.bind.2.moduleScope entry.1) piece := by
  obtain ⟨x, hat, hsettled⟩ := modules.kept_iff_written.2 entry hentry _ piece h
  exact hat.eq_root ▸ hsettled

/-- A name that is declared at the top level of a file leads to the declaration that the file makes of
it. -/
theorem exists_isOwn (hentry : entry ∈ modules.bound) (hscope : entry.2.hasScope = true)
    {kind : TypeDeclKind} (h : (.top (modules.bind.2.moduleScope entry.1), .declares name kind) ∈
      entry.2.writes (modules.bind.2.moduleScope entry.1)) :
    ∃ d, (∀ d', modules.bind.2.IsOwn entry.2 (modules.bind.2.moduleScope entry.1) name d' ↔ d' = d) ∧
      modules.bind.2.Holds (modules.bind.2.moduleScope entry.1) [name] d := by
  have hregistered := modules.bind_bound.registered
  obtain ⟨decl, hdecl, hname, hroot⟩ := exists_decl (keeps_of_written hentry h)
  obtain ⟨i, hi⟩ := Array.mem_iff_getElem?.1 hdecl
  have hlook := (hregistered.entered ⟨i⟩ decl hi).2
  rw [hname, hroot] at hlook
  refine ⟨⟨i⟩, fun d' => ⟨fun ⟨decl', hdecl', hname', hroot', _⟩ => ?_, ?_⟩, .type hlook⟩
  · have hlook' := (hregistered.entered d' decl' hdecl').2
    rw [hname', hroot', hlook] at hlook'
    exact (Option.some.inj hlook').symm
  · rintro rfl
    exact ⟨decl, hi, hname, hroot, fun part hpart =>
      written_of_keeps hentry hscope ⟨decl, hdecl, hname, hroot, hpart⟩⟩

/-- Of the imports of a name at the top level of a file, the name is bound to one. -/
theorem exists_import (hentry : entry ∈ modules.bound) (hscope : entry.2.hasScope = true)
    {binding : ImportBinding} (h : (.top (modules.bind.2.moduleScope entry.1), .imports name binding) ∈
      entry.2.writes (modules.bind.2.moduleScope entry.1)) :
    ∃ binding, (.top (modules.bind.2.moduleScope entry.1), .imports name binding) ∈
        entry.2.writes (modules.bind.2.moduleScope entry.1) ∧
      (modules.bind.2.scope (modules.bind.2.moduleScope entry.1)).imports.lookup name = some binding := by
  have hkept := (keeps_of_written hentry h).resolve_right id
  rcases hlook : (modules.bind.2.scope (modules.bind.2.moduleScope entry.1)).imports.lookup name with
    _ | binding'
  · exact absurd (List.lookup_eq_none_iff.1 hlook _ hkept) (by simp)
  · exact ⟨binding', written_of_keeps hentry hscope (mem_of_lookup hlook), rfl⟩

end Modules

/-! ## Where names are declared -/

/-- The names that are declared, and where. -/
def declaredNames (written : List (Spot × Piece)) : List (Spot × String) :=
  written.filterMap fun
    | (spot, .declares name _) => some (spot, name)
    | _ => none

theorem exists_of_mem_declaredNames {written : List (Spot × Piece)} {spot : Spot} {name : String}
    (h : (spot, name) ∈ declaredNames written) : ∃ kind, (spot, .declares name kind) ∈ written := by
  obtain ⟨⟨spot', piece⟩, hmem, hname⟩ := List.mem_filterMap.1 h
  cases piece with
  | declares name' kind =>
    obtain ⟨rfl, rfl⟩ := Prod.mk.inj (Option.some.inj hname)
    exact ⟨kind, hmem⟩
  | type | body | imports => cases hname

/-- The names of all declarations, with their scopes. -/
def Index.declPlaces (index : Index) : List (String × ScopeId) :=
  index.decls.toList.map fun decl => (decl.name, decl.scope)

theorem Index.mem_declPlaces {index : Index} {x : ScopeId} {name : String} {kind : TypeDeclKind}
    (h : index.Keeps x (.declares name kind) ∨ index.GivesUp x (.declares name kind)) :
    (name, x) ∈ index.declPlaces := by
  obtain ⟨decl, hdecl, rfl, rfl⟩ := exists_decl h
  exact List.mem_map_of_mem (Array.mem_toList_iff.2 hdecl)

/-! ## The result -/

open Index in
/-- Whatever has been asked, a type is read in the scope of a spot in which a file writes it, and
whatever is written is kept with the scope of its spot. From all spots of a file with a scope of its own,
in whatever namespaces and `declare module` blocks, a name that is declared at the top level of the file
leads to this declaration, a qualified one to the declaration in the namespaces of the file, and one that
is imported to what the import leads to, if the file does not declare it. -/
theorem Modules.references_lexical (modules : Modules) :
    let index := modules.bind.2
    (∀ queries scope type, (Program.mk modules.bind.1 index).Reads queries scope type →
      ∃ entry ∈ modules.bound, ∃ written ∈ entry.2.writes (index.moduleScope entry.1),
        written.2.Contains type ∧ index.At written.1 scope) ∧
    ∀ entry ∈ modules.bound,
      let root := index.moduleScope entry.1
      (∀ written ∈ entry.2.writes root, ∃ x, index.At written.1 x ∧
        (index.Keeps x written.2 ∨ index.GivesUp x written.2)) ∧
      (entry.2.hasScope = true →
        (∀ name kind, (.top root, .declares name kind) ∈ entry.2.writes root →
          ∃ d, (∀ d', index.IsOwn entry.2 root name d' ↔ d' = d) ∧ index.Sees root [name] d) ∧
        (∀ segments d, index.Holds root segments d → index.Sees root segments d) ∧
        ∀ name imported, (.top root, .imports name imported) ∈ entry.2.writes root →
          ∃ binding, (.top root, .imports name binding) ∈ entry.2.writes root ∧
            ∀ rest d, (∀ e, ¬ index.Holds root (name :: rest) e) → index.follow binding rest = some d →
              index.Sees root (name :: rest) d) := by
  refine ⟨fun queries scope type hreads => ?_, fun entry hentry => ⟨fun written hwritten => ?_,
    fun hscope => ⟨fun name kind hwritten => ?_, fun segments d hholds => ?_,
      fun name imported hwritten => ?_⟩⟩⟩
  · obtain ⟨piece, hkeeps, hcontains⟩ := hreads.holding
    obtain ⟨entry, hentry, spot, hwritten, hat⟩ := modules.kept_iff_written.1 scope piece hkeeps
    exact ⟨entry, hentry, _, hwritten, hcontains, hat⟩
  · exact modules.kept_iff_written.2 entry hentry _ _ hwritten
  · obtain ⟨d, hown, hholds⟩ := exists_isOwn hentry hscope hwritten
    exact ⟨d, hown, modules.bind_nested.sees (lookupIn_holds hholds)⟩
  · exact modules.bind_nested.sees (lookupIn_holds hholds)
  · obtain ⟨binding, hwritten, himport⟩ := exists_import hentry hscope hwritten
    refine ⟨binding, hwritten, fun rest d hnone hfollow => modules.bind_nested.sees ?_⟩
    rw [lookupIn_import hnone himport, hfollow]

/-- A module that mentions an interface of its own in a namespace, and a script that declares one of the
same name. -/
def namespaceTree : FileTree where
  entries := [(["a.ts"], .file ("interface P \x7b x: string \x7d\n" ++
      "export namespace N \x7b interface G \x7b p: P \x7d \x7d\n")),
    (["b.ts"], .file "interface P \x7b y: string \x7d\n")]
  current := []

set_option maxRecDepth 100000 in
theorem names_namespaceTree : (Modules.load namespaceTree [⟨"b.ts"⟩, ⟨"a.ts"⟩]).toOption.map (fun modules =>
      modules.bound.map fun entry => (entry.2.hasScope, modules.bind.2.moduleScope entry.1,
        declaredNames (entry.2.writes (modules.bind.2.moduleScope entry.1)))) =
    some [(false, globalScope, [(.top globalScope, "P")]),
      (true, ⟨1⟩, [(.top ⟨1⟩, "P"), (⟨⟨1⟩, ["N"]⟩, "G")])] := by
  decide +kernel

set_option maxRecDepth 100000 in
theorem decls_namespaceTree : (Modules.load namespaceTree [⟨"b.ts"⟩, ⟨"a.ts"⟩]).toOption.map (fun modules =>
      let index := modules.bind.2
      ((index.declPlaces, index.lookup globalScope ["P"]), index.enclosing index.scopes.size ⟨2⟩,
        index.lookupIn exportBudget ⟨2⟩ ["P"])) =
    some (([("P", globalScope), ("P", ⟨1⟩), ("G", ⟨2⟩)], some ⟨0⟩), [⟨2⟩, ⟨1⟩], none) := by
  decide +kernel

/-- In the namespace the interface leads to the one of the module, not to the one of the script. -/
theorem Modules.references_lexical_namespaceTree : ∃ modules,
    Modules.load namespaceTree [⟨"b.ts"⟩, ⟨"a.ts"⟩] = .ok modules ∧
    ∃ x d e, modules.bind.2.At ⟨⟨1⟩, ["N"]⟩ x ∧ modules.bind.2.lookup x ["P"] = some d ∧
      modules.bind.2.lookup globalScope ["P"] = some e ∧ d ≠ e := by
  obtain ⟨modules, hload, hnames⟩ := Modules.exists_load names_namespaceTree
  have hfacts := decls_namespaceTree
  rw [hload] at hfacts
  obtain ⟨hfacts, hnamespace⟩ := Prod.mk.inj (Option.some.inj hfacts)
  obtain ⟨hdecls, hglobal⟩ := Prod.mk.inj hfacts
  obtain ⟨henclosing, hfree⟩ := Prod.mk.inj hnamespace
  obtain ⟨script, rest, hbound, -, hrest⟩ := List.map_eq_cons_iff.1 hnames
  obtain ⟨entry, rfl, hentry⟩ := List.map_eq_singleton_iff.1 hrest
  obtain ⟨hscope, hwritten⟩ := Prod.mk.inj hentry
  obtain ⟨hroot, hwritten⟩ := Prod.mk.inj hwritten
  obtain ⟨kind, hown⟩ := exists_of_mem_declaredNames
    (show (.top ⟨1⟩, "P") ∈ declaredNames _ by rw [hwritten]; decide)
  obtain ⟨kind', hinner⟩ := exists_of_mem_declaredNames
    (show (⟨⟨1⟩, ["N"]⟩, "G") ∈ declaredNames _ by rw [hwritten]; decide)
  obtain ⟨hplaces, hlexical⟩ := modules.references_lexical.2 entry (by simp [hbound])
  obtain ⟨x, hat, hkept⟩ := hplaces _ hinner
  obtain ⟨d, hmade, hsees⟩ := (hlexical hscope).1 "P" kind (hroot ▸ hown)
  have hx : ("G", x) ∈ modules.bind.2.declPlaces := Index.mem_declPlaces hkept
  rw [hdecls] at hx
  obtain rfl : x = ⟨2⟩ := by simpa using hx
  refine ⟨modules, hload, ⟨2⟩, d, ⟨0⟩, hat, ?_, hglobal, ?_⟩
  · refine hsees _ _ hroot.symm hat fun inner houtward y hy e he => ?_
    have hway := (modules.bind_nested.outward ⟨2⟩).unique houtward
    rw [henclosing, hroot] at hway
    obtain rfl : [⟨2⟩] = inner := List.append_cancel_right hway
    obtain rfl := List.mem_singleton.1 hy
    have hsome := he.isSome (Nat.add_zero exportBudget)
    rw [hfree] at hsome
    cases hsome
  · rintro rfl
    obtain ⟨decl, hdecl, -, hplace, -⟩ := (hmade _).2 rfl
    have hfirst := congrArg (·[0]?) hdecls
    simp only [Index.declPlaces, List.getElem?_map, Array.getElem?_toList, hdecl] at hfirst
    obtain ⟨-, hfirst⟩ := Prod.mk.inj (Option.some.inj hfirst)
    rw [hplace, hroot] at hfirst
    cases hfirst

/-! ## `declare global` -/

/-- A module that mentions an interface of its own in a `declare global` block. -/
def globalTree : FileTree where
  entries := [(["a.ts"], .file ("interface P \x7b x: string \x7d\n" ++
    "declare global \x7b interface G \x7b p: P \x7d \x7d\nexport declare const g: G;\n"))]
  current := []

set_option maxRecDepth 100000 in
theorem names_globalTree : (Modules.load globalTree [⟨"a.ts"⟩]).toOption.map (fun modules =>
      modules.bound.map fun entry => (entry.2.hasScope, modules.bind.2.moduleScope entry.1,
        declaredNames (entry.2.writes (modules.bind.2.moduleScope entry.1)))) =
    some [(true, ⟨1⟩, [(.top ⟨1⟩, "P"), (.top globalScope, "G")])] := by
  decide +kernel

set_option maxRecDepth 100000 in
theorem decls_globalTree : (Modules.load globalTree [⟨"a.ts"⟩]).toOption.map (fun modules =>
      (modules.bind.2.declPlaces, modules.bind.2.lookup globalScope ["P"])) =
    some ([("P", ⟨1⟩), ("G", globalScope)], none) := by
  decide +kernel

/-- A name that is declared at the top level of a file leads nowhere from a `declare global` block in it,
though no namespace is around. -/
theorem Modules.references_notLexical : ¬ ∀ (tree : FileTree) (roots : List Path) (modules : Modules),
    Modules.load tree roots = .ok modules → ∀ entry ∈ modules.bound, entry.2.hasScope = true →
      let index := modules.bind.2
      let root := index.moduleScope entry.1
      ∀ written ∈ entry.2.writes root,
        ∃ x, (index.Keeps x written.2 ∨ index.GivesUp x written.2) ∧
          ∀ name kind, (.top root, .declares name kind) ∈ entry.2.writes root →
            written.1.blocks = [] →
              ∃ d, index.IsOwn entry.2 root name d ∧ index.lookup x [name] = some d := by
  intro hclaim
  obtain ⟨modules, hload, hnames⟩ := Modules.exists_load names_globalTree
  have hdecls := decls_globalTree
  rw [hload] at hdecls
  obtain ⟨entry, hbound, hentry⟩ := List.map_eq_singleton_iff.1 hnames
  obtain ⟨hscope, hwritten⟩ := Prod.mk.inj hentry
  obtain ⟨hroot, hwritten⟩ := Prod.mk.inj hwritten
  obtain ⟨hdecls, hnowhere⟩ := Prod.mk.inj (Option.some.inj hdecls)
  obtain ⟨kind, hown⟩ := exists_of_mem_declaredNames
    (show (.top ⟨1⟩, "P") ∈ declaredNames _ by rw [hwritten]; decide)
  obtain ⟨kind', hglobal⟩ := exists_of_mem_declaredNames
    (show (.top globalScope, "G") ∈ declaredNames _ by rw [hwritten]; decide)
  have hmem : entry ∈ modules.bound := by simp [hbound]
  obtain ⟨x, hkept, hseen⟩ := hclaim _ _ _ hload entry hmem hscope _ hglobal
  -- The declaration in the block is the only one of its name, and it is global.
  have hx : ("G", x) ∈ modules.bind.2.declPlaces := Index.mem_declPlaces hkept
  rw [hdecls] at hx
  obtain rfl : x = globalScope := by simpa using hx
  obtain ⟨d, -, hlook⟩ := hseen "P" kind (hroot ▸ hown) rfl
  rw [hnowhere] at hlook
  cases hlook

end ComponentSchema
