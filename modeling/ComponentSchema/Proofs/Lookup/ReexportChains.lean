import ComponentSchema.Proofs.Binder.ModuleExports

/-!
# Chains of re-exports

A module passes on what another module exports in one of two ways: it exports the name from there, or
it first imports the name and then exports it. The two lead to the same declaration, but not equally far.
A re-export is one step into the exports of a module; an import that is exported is two, one to the local
name and one to its import, and `maxExportDepth` bounds the number of steps.

So a chain of re-exports may have `maxExportDepth` modules, and one of imports and exports half as many.

Results.
* `Modules.lookupExport_passesOn`: what one module of a chain adds to a search.
* `Modules.Passes.lookupExport`: what a whole chain does, by induction on it.
* `Modules.lookup_passedOn`: what a name leads to that is imported from a chain.
* `Modules.lookup_tooFar`: a chain of imports and exports that is not longer than `maxExportDepth` may lead
  nowhere.
-/
namespace ComponentSchema

open Syntax

/-! ## Chains -/

/-- How a module passes on a name that another one exports. -/
inductive Passage where
  /-- It exports the name from the other module. -/
  | reexport
  /-- It imports the name from the other module, and exports the local name. -/
  | importExport
  deriving DecidableEq, Repr

/-- The steps into exports that a passage takes. -/
def Passage.depth : Passage → Nat
  | reexport => 1
  | importExport => 2

/-- A file exports a name, and in no other way than as this. -/
structure ModuleFile.ExportsAs (file : ModuleFile) (name : String) (binding : ExportBinding) : Prop where
  exported : (name, binding) ∈ file.exports
  only : ∀ other, (name, other) ∈ file.exports → other = binding

/-- A file imports a name from a module, under some local name that nothing else is declared or imported
by. -/
structure ModuleFile.ImportsFrom (file : ModuleFile) (root : ScopeId) (localName : String) (g : ModuleId)
    (name : String) : Prop where
  imported : (.top root, .imports localName (.named g name)) ∈ file.writes root
  only : ∀ other, (.top root, .imports localName other) ∈ file.writes root → other = .named g name
  undeclared : ∀ kind, (.top root, .declares localName kind) ∉ file.writes root

/-- A file passes on a name that a module exports. -/
def ModuleFile.PassesOn (file : ModuleFile) (root : ScopeId) (name : String) (g : ModuleId) :
    Passage → Prop
  | .reexport => file.ExportsAs name (.reexport g name)
  | .importExport => file.ImportsFrom root name g name ∧ file.ExportsAs name (.own name)

/-- Modules that pass a name on, from the first, given by its id, to the last, which declares and exports
it. -/
inductive Modules.Passes (modules : Modules) (name : String) :
    List Passage → ModuleId → ModuleId × ModuleFile → Prop where
  | last {last : ModuleId × ModuleFile} {kind : TypeDeclKind} (hlast : last ∈ modules.bound)
    (hscope : last.2.hasScope = true) (hexport : last.2.ExportsAs name (.own name))
    (hdeclares : (.top (modules.bind.2.moduleScope last.1), .declares name kind) ∈
      last.2.writes (modules.bind.2.moduleScope last.1)) : Passes modules name [] last.1 last
  | step {entry last : ModuleId × ModuleFile} {passage : Passage} {passages : List Passage} {g : ModuleId}
    (hentry : entry ∈ modules.bound) (hscope : entry.2.hasScope = true)
    (hpasses : entry.2.PassesOn (modules.bind.2.moduleScope entry.1) name g passage)
    (hrest : Passes modules name passages g last) :
    Passes modules name (passage :: passages) entry.1 last

/-! ## Searches -/

namespace Index

variable {index : Index} {x : ScopeId} {rest : List String} {first name : String} {g : ModuleId}

/-- Where nothing is declared a name leads on through its import, one step deeper. -/
theorem lookupIn_named (hnone : ∀ e, ¬ index.Holds x (first :: rest) e)
    (himport : (index.scope x).imports.lookup first = some (.named g name)) (budget : Nat) :
    index.lookupIn budget x (first :: rest) = index.lookupExport (budget - 1) g name rest := by
  have hdeclared := lookupDeclared_eq_none hnone
  cases budget with
  | zero => rw [Index.lookupIn, hdeclared, Nat.zero_sub, lookupExport]
  | succ budget => simp only [Index.lookupIn, hdeclared, himport, Nat.add_sub_cancel]

/-- From an outermost scope a name is looked up there and then in the global scope. -/
theorem lookup_outermost (hnested : index.Nested) (hparent : (index.scope x).parent = none)
    (segments : List String) : index.lookup x segments =
      (index.lookupIn exportBudget x segments).or (index.lookupIn exportBudget globalScope segments) := by
  rw [lookup_eq, (hnested.outward x).unique (.last hparent)]
  simp only [List.singleton_append, List.findSome?_cons, List.findSome?_nil]
  rcases index.lookupIn exportBudget x segments with _ | d
  · rcases index.lookupIn exportBudget globalScope segments with _ | d <;> rfl
  · rfl

end Index

theorem ModuleFile.ExportsAs.lookup {file : ModuleFile} {name : String} {binding : ExportBinding}
    (h : file.ExportsAs name binding) : file.exports.lookup name = some binding := by
  rcases hlook : file.exports.lookup name with _ | other
  · exact absurd (List.lookup_eq_none_iff.1 hlook _ h.exported) (by simp)
  · rw [h.only other (mem_of_lookup hlook)]

namespace Modules

open Index

variable {modules : Modules} {entry last : ModuleId × ModuleFile} {name localName : String}
  {passage : Passage} {passages : List Passage} {g : ModuleId} {d : DeclId}

/-- A name that a file imports leads on to the module that it is imported from. -/
theorem lookupIn_importsFrom (hentry : entry ∈ modules.bound) (hscope : entry.2.hasScope = true)
    (h : entry.2.ImportsFrom (modules.bind.2.moduleScope entry.1) localName g name) (budget : Nat) :
    modules.bind.2.lookupIn budget (modules.bind.2.moduleScope entry.1) [localName] =
      modules.bind.2.lookupExport (budget - 1) g name [] := by
  obtain ⟨binding, hwritten, himport⟩ := exists_import hentry hscope h.imported
  rw [h.only binding hwritten] at himport
  refine lookupIn_named (fun e he => ?_) himport budget
  cases he with
  | type htype =>
    obtain ⟨kind, hdeclares⟩ := written_of_declared hentry hscope htype
    exact h.undeclared kind hdeclares

/-- What a module passes on is searched for in the next one, as many steps deeper as the passage takes. -/
theorem lookupExport_passesOn (hentry : entry ∈ modules.bound) (hscope : entry.2.hasScope = true)
    (h : entry.2.PassesOn (modules.bind.2.moduleScope entry.1) name g passage) (budget : Nat) :
    modules.bind.2.lookupExport budget entry.1 name [] =
      modules.bind.2.lookupExport (budget - passage.depth) g name [] := by
  cases budget with
  | zero => rw [Nat.zero_sub, lookupExport, lookupExport]
  | succ budget =>
    have hexports := exports_lookup hentry hscope name
    cases passage with
    | reexport =>
      rw [ModuleFile.ExportsAs.lookup h] at hexports
      simp only [Index.lookupExport, hexports, Passage.depth, Nat.add_sub_cancel]
    | importExport =>
      rw [h.2.lookup] at hexports
      simp only [Index.lookupExport, hexports]
      rw [lookupIn_importsFrom hentry hscope h.1, Passage.depth]
      rfl

/-- A chain leads to the declaration of its last module just if there is a step left for every module, and
another one for each that imports. -/
theorem Passes.lookupExport (h : modules.Passes name passages g last)
    (hholds : modules.bind.2.Holds (modules.bind.2.moduleScope last.1) [name] d) (budget : Nat) :
    modules.bind.2.lookupExport budget g name [] =
      if passages.length + 1 + passages.count .importExport ≤ budget then some d else none := by
  induction h generalizing budget with
  | last hlast hscope hexport =>
    cases budget with
    | zero => rfl
    | succ budget =>
      have hexports := exports_lookup hlast hscope name
      rw [hexport.lookup] at hexports
      simp [Index.lookupExport, hexports, hholds.lookupIn]
  | @step entry last passage passages g hentry hscope hpasses _ ih =>
    rw [lookupExport_passesOn hentry hscope hpasses, ih hholds]
    refine if_congr ?_ rfl rfl
    cases passage <;> simp [Passage.depth] <;> omega

theorem Passes.exists_isOwn (h : modules.Passes name passages g last) :
    ∃ d, (∀ d', modules.bind.2.IsOwn last.2 (modules.bind.2.moduleScope last.1) name d' ↔ d' = d) ∧
      modules.bind.2.Holds (modules.bind.2.moduleScope last.1) [name] d := by
  induction h with
  | last hlast hscope _ hdeclares => exact Modules.exists_isOwn hlast hscope hdeclares
  | step _ _ _ _ ih => exact ih

/-- A name that is imported from a chain of modules leads to the declaration of the last of them, however
they pass it on, if there are at most `maxExportDepth` of them, those that import and export counted
twice. In a longer chain it is not found, and looked up in the global scope. -/
theorem lookup_passedOn (modules : Modules) {name localName : String} {passages : List Passage}
    {g : ModuleId} {importer last : ModuleId × ModuleFile} (himporter : importer ∈ modules.bound)
    (hscope : importer.2.hasScope = true)
    (himport : importer.2.ImportsFrom (modules.bind.2.moduleScope importer.1) localName g name)
    (hchain : modules.Passes name passages g last) :
    ∃ d, (∀ d', modules.bind.2.IsOwn last.2 (modules.bind.2.moduleScope last.1) name d' ↔ d' = d) ∧
      modules.bind.2.lookup (modules.bind.2.moduleScope importer.1) [localName] =
        if passages.length + 1 + passages.count .importExport ≤ maxExportDepth then some d
        else modules.bind.2.lookupIn exportBudget globalScope [localName] := by
  obtain ⟨d, hown, hholds⟩ := hchain.exists_isOwn
  refine ⟨d, hown, ?_⟩
  have hparent := (at_root himporter).parent_eq_none
  rw [lookup_outermost modules.bind_nested hparent, lookupIn_importsFrom himporter hscope himport,
    hchain.lookupExport hholds, exportBudget_eq, Nat.add_sub_cancel]
  split <;> rfl

end Modules

/-! ## What a program passes on -/

/-- The names that are imported, with what they are bound to, and where. -/
def importedNames (written : List (Spot × Piece)) : List (Spot × String × ImportBinding) :=
  written.filterMap fun
    | (spot, .imports name binding) => some (spot, name, binding)
    | _ => none

/-- What a file imports, declares and exports, given its scope. -/
structure Traffic where
  root : ScopeId
  imports : List (Spot × String × ImportBinding)
  declares : List (Spot × String)
  exports : List (String × ExportBinding)
  deriving DecidableEq

def ModuleFile.traffic (file : ModuleFile) (root : ScopeId) : Traffic :=
  ⟨root, importedNames (file.writes root), declaredNames (file.writes root), file.exports⟩

/-- What the files of a program import, declare and export, those with scopes of their own. -/
def Modules.traffic (modules : Modules) : List (ModuleId × Bool × Traffic) :=
  modules.bound.map fun entry =>
    (entry.1, entry.2.hasScope, entry.2.traffic (modules.bind.2.moduleScope entry.1))

section

variable {modules : Modules} {file : ModuleFile} {root : ScopeId} {name localName : String} {g : ModuleId}
  {exports : List (String × ExportBinding)}

theorem Modules.exists_of_mem_traffic {data : Traffic} (h : (g, true, data) ∈ modules.traffic) :
    ∃ entry ∈ modules.bound, entry.1 = g ∧ entry.2.hasScope = true ∧
      entry.2.traffic (modules.bind.2.moduleScope entry.1) = data := by
  obtain ⟨entry, hentry, heq⟩ := List.mem_map.1 h
  obtain ⟨rfl, hfile⟩ := Prod.mk.inj heq
  obtain ⟨hscope, rfl⟩ := Prod.mk.inj hfile
  exact ⟨entry, hentry, rfl, hscope, rfl⟩

theorem ModuleFile.exportsAs_of_exports {binding : ExportBinding}
    (h : file.exports = [(name, binding)]) : file.ExportsAs name binding where
  exported := h ▸ List.mem_singleton_self _
  only other hother := by
    rw [h, List.mem_singleton] at hother
    exact (Prod.mk.inj hother).2

theorem ModuleFile.importsFrom_of_traffic
    (h : file.traffic root = ⟨root, [(.top root, localName, .named g name)], [], exports⟩) :
    file.ImportsFrom root localName g name := by
  obtain ⟨-, himports, hdeclares, -⟩ := Traffic.mk.inj h
  have himported : ∀ other, (.top root, .imports localName other) ∈ file.writes root →
      (.top root, localName, other) ∈ importedNames (file.writes root) :=
    fun other hmem => List.mem_filterMap.2 ⟨_, hmem, rfl⟩
  refine ⟨?_, fun other hother => ?_, fun kind hkind => ?_⟩
  · obtain ⟨⟨spot, piece⟩, hmem, hname⟩ := List.mem_filterMap.1
      (himports ▸ List.mem_singleton_self (Spot.top root, localName, ImportBinding.named g name))
    cases piece with
    | imports =>
      obtain ⟨rfl, hbinding⟩ := Prod.mk.inj (Option.some.inj hname)
      obtain ⟨rfl, rfl⟩ := Prod.mk.inj hbinding
      exact hmem
    | type | body | declares => cases hname
  · have hmem := himported other hother
    rw [himports, List.mem_singleton] at hmem
    exact (Prod.mk.inj (Prod.mk.inj hmem).2).2
  · have hmem : (.top root, localName) ∈ declaredNames (file.writes root) :=
      List.mem_filterMap.2 ⟨_, hkind, rfl⟩
    rw [hdeclares] at hmem
    cases hmem

namespace Modules

variable {passages : List Passage} {g' : ModuleId} {last : ModuleId × ModuleFile}
  {imports : List (Spot × String × ImportBinding)} {declares : List (Spot × String)}

theorem exists_importer (h : (g', true, ⟨root, [(.top root, localName, .named g name)], [], exports⟩) ∈
    modules.traffic) : ∃ importer ∈ modules.bound, importer.1 = g' ∧ importer.2.hasScope = true ∧
      importer.2.ImportsFrom (modules.bind.2.moduleScope importer.1) localName g name := by
  obtain ⟨importer, himporter, hid, hscope, hfile⟩ := exists_of_mem_traffic h
  obtain rfl : _ = root := congrArg Traffic.root hfile
  exact ⟨importer, himporter, hid, hscope, ModuleFile.importsFrom_of_traffic hfile⟩

theorem exists_last (h : (g', true, ⟨root, imports, [(.top root, name)], [(name, .own name)]⟩) ∈
    modules.traffic) : ∃ last ∈ modules.bound, modules.Passes name [] g' last := by
  obtain ⟨last, hlast, rfl, hscope, hfile⟩ := exists_of_mem_traffic h
  obtain ⟨rfl, -, hdeclares, hexports⟩ := Traffic.mk.inj hfile
  obtain ⟨kind, hdeclared⟩ := exists_of_mem_declaredNames (hdeclares ▸ List.mem_singleton_self _)
  exact ⟨last, hlast, .last hlast hscope (ModuleFile.exportsAs_of_exports hexports) hdeclared⟩

theorem Passes.reexport (h : modules.Passes name passages g last)
    (htraffic : (g', true, ⟨root, imports, declares, [(name, .reexport g name)]⟩) ∈ modules.traffic) :
    modules.Passes name (.reexport :: passages) g' last := by
  obtain ⟨entry, hentry, rfl, hscope, hfile⟩ := exists_of_mem_traffic htraffic
  exact .step hentry hscope (ModuleFile.exportsAs_of_exports (Traffic.mk.inj hfile).2.2.2) h

theorem Passes.importExport (h : modules.Passes name passages g last)
    (htraffic : (g', true, ⟨root, [(.top root, name, .named g name)], [], [(name, .own name)]⟩) ∈
      modules.traffic) : modules.Passes name (.importExport :: passages) g' last := by
  obtain ⟨entry, hentry, rfl, hscope, hfile⟩ := exists_of_mem_traffic htraffic
  obtain rfl : _ = root := congrArg Traffic.root hfile
  exact .step hentry hscope ⟨ModuleFile.importsFrom_of_traffic hfile,
    ModuleFile.exportsAs_of_exports (Traffic.mk.inj hfile).2.2.2⟩ h

end Modules

end

/-- A module that is given an interface by two others: the first re-exports it, the second has imported
it from the file that declares it. -/
def passageTree : FileTree where
  entries := [(["app.ts"], .file "import \x7b P as Q \x7d from './a';\nexport declare const q: Q;\n"),
    (["a.ts"], .file "export \x7b P \x7d from './b';\n"),
    (["b.ts"], .file "import \x7b P \x7d from './c';\nexport \x7b P \x7d;\n"),
    (["c.ts"], .file "export interface P \x7b x: string \x7d\n")]
  current := []

def passageTraffic : List (ModuleId × Bool × Traffic) := [
  (⟨3⟩, true, ⟨⟨4⟩, [], [(.top ⟨4⟩, "P")], [("P", .own "P")]⟩),
  (⟨2⟩, true, ⟨⟨3⟩, [(.top ⟨3⟩, "P", .named ⟨3⟩ "P")], [], [("P", .own "P")]⟩),
  (⟨1⟩, true, ⟨⟨2⟩, [], [], [("P", .reexport ⟨2⟩ "P")]⟩),
  (⟨0⟩, true, ⟨⟨1⟩, [(.top ⟨1⟩, "Q", .named ⟨1⟩ "P")], [], []⟩)]

set_option maxRecDepth 100000 in
theorem traffic_passageTree :
    (Modules.load passageTree [⟨"app.ts"⟩]).toOption.map Modules.traffic = some passageTraffic := by
  decide +kernel

/-- What is imported there leads through the modules in between to the declaration. -/
theorem Modules.lookup_passedOn_passageTree : ∃ modules,
    Modules.load passageTree [⟨"app.ts"⟩] = .ok modules ∧ ∃ last ∈ modules.bound, ∃ d,
      modules.bind.2.IsOwn last.2 (modules.bind.2.moduleScope last.1) "P" d ∧
        modules.bind.2.lookup (modules.bind.2.moduleScope ⟨0⟩) ["Q"] = some d := by
  obtain ⟨modules, hload, htraffic⟩ := Modules.exists_load traffic_passageTree
  have hin : ∀ line ∈ passageTraffic, line ∈ modules.traffic :=
    fun line hline => htraffic ▸ hline
  obtain ⟨last, hlast, hc⟩ := modules.exists_last (hin _ (List.mem_of_getElem? (i := 0) rfl))
  have hb := hc.importExport (hin _ (List.mem_of_getElem? (i := 1) rfl))
  have ha := hb.reexport (hin _ (List.mem_of_getElem? (i := 2) rfl))
  obtain ⟨importer, himporter, hid, hscope, himport⟩ :=
    modules.exists_importer (hin _ (List.mem_of_getElem? (i := 3) rfl))
  obtain ⟨d, hown, hlookup⟩ := modules.lookup_passedOn himporter hscope himport ha
  rw [hid] at hlookup
  exact ⟨modules, hload, last, hlast, d, (hown d).2 rfl, hlookup.trans (if_pos (by decide))⟩

/-! ## Too far -/

/-- The name of the file of a module in a chain. -/
def relayName (i : Nat) : String := String.ofList ('m' :: Nat.toDigits 10 i)

/-- A module that imports an interface from a chain of seventeen, all but the last of which import it from
the next one and export it. -/
def relayTree : FileTree where
  entries := (["app.ts"], .file "import \x7b P \x7d from './m1';\nexport declare const p: P;\n") ::
    (["m17.ts"], .file "export interface P \x7b x: string \x7d\n") ::
      (List.range' 1 16).map fun i => ([relayName i ++ ".ts"],
        .file ("import \x7b P \x7d from './" ++ relayName (i + 1) ++ "';\nexport \x7b P \x7d;\n"))
  current := []

/-- What one of the modules in between passes on. -/
def relayLine (i : Nat) : ModuleId × Bool × Traffic :=
  (⟨i⟩, true, ⟨⟨i + 1⟩, [(.top ⟨i + 1⟩, "P", .named ⟨i + 1⟩ "P")], [], [("P", .own "P")]⟩)

def relayTraffic : List (ModuleId × Bool × Traffic) :=
  (⟨17⟩, true, ⟨⟨18⟩, [], [(.top ⟨18⟩, "P")], [("P", .own "P")]⟩) ::
    (List.range' 1 16).reverse.map relayLine ++
      [(⟨0⟩, true, ⟨⟨1⟩, [(.top ⟨1⟩, "P", .named ⟨1⟩ "P")], [], []⟩)]

theorem relayLine_mem {i : Nat} (h : i < 16) : relayLine (i + 1) ∈ relayTraffic := by
  refine List.mem_append_left _ (List.mem_cons_of_mem _ (List.mem_map_of_mem ?_))
  rw [List.mem_reverse, List.mem_range'_1]
  omega

set_option maxRecDepth 100000 in
theorem lookup_relayTree : (Modules.load relayTree [⟨"app.ts"⟩]).toOption.map (fun modules =>
      (modules.traffic, modules.bind.2.lookup (modules.bind.2.moduleScope ⟨0⟩) ["P"])) =
    some (relayTraffic, none) := by
  decide +kernel

/-- A name that is imported from a chain of no more than `maxExportDepth` modules may lead nowhere, if
all of them but the last import it and export it. -/
theorem Modules.lookup_tooFar : ¬ ∀ (tree : FileTree) (roots : List Path) (modules : Modules),
    Modules.load tree roots = .ok modules →
      ∀ (name localName : String) (passages : List Passage) (g : ModuleId)
        (importer last : ModuleId × ModuleFile), importer ∈ modules.bound →
        importer.2.hasScope = true →
        importer.2.ImportsFrom (modules.bind.2.moduleScope importer.1) localName g name →
        modules.Passes name passages g last → passages.length + 1 ≤ maxExportDepth →
          ∃ d, modules.bind.2.IsOwn last.2 (modules.bind.2.moduleScope last.1) name d ∧
            modules.bind.2.lookup (modules.bind.2.moduleScope importer.1) [localName] = some d := by
  intro hclaim
  obtain ⟨modules, hload, hfacts⟩ := Modules.exists_load lookup_relayTree
  obtain ⟨htraffic, hnone⟩ := Prod.mk.inj hfacts
  have hin : ∀ line ∈ relayTraffic, line ∈ modules.traffic := fun line hline => htraffic ▸ hline
  obtain ⟨last, -, hlast⟩ := modules.exists_last (hin _ (List.mem_of_getElem? (i := 0) rfl))
  obtain ⟨importer, himporter, hid, hscope, himport⟩ :=
    modules.exists_importer (hin _ (List.mem_of_getElem? (i := 17) rfl))
  -- The chain from the end on, longer by one module at a time.
  have hchain : ∀ steps, steps ≤ 16 →
      modules.Passes "P" (List.replicate steps .importExport) ⟨17 - steps⟩ last := by
    intro steps hsteps
    induction steps with
    | zero => exact hlast
    | succ steps ih =>
      obtain ⟨i, hi, hnext⟩ : ∃ i, 17 - (steps + 1) = i + 1 ∧ 17 - steps = i + 1 + 1 :=
        ⟨15 - steps, by omega, by omega⟩
      rw [List.replicate_succ, hi]
      rw [hnext] at ih
      exact (ih (by omega)).importExport (hin _ (relayLine_mem (i := i) (by omega)))
  obtain ⟨d, -, hlookup⟩ := hclaim _ _ modules hload "P" "P" _ _ importer last himporter hscope himport
    (hchain 16 (Nat.le_refl _)) (by decide)
  rw [hid, hnone] at hlookup
  cases hlookup

end ComponentSchema
