import ComponentSchema.Proofs.Lookup.LexicalScoping

/-!
# What a module exports

A file exports what it writes at its top level: first the entries of its export clauses, then the types
and namespaces that carry an `export` modifier and the default exports, each in order. Whatever is written
in a namespace, in a `declare` block or in another file is exported from another scope.

A name that is exported more than once stands for its first entry.

Results.
* `Binding.act_adds`, `Binding.bindBody_adds`: what binding adds to the exports of one scope, act by act.
* `Modules.exports_lookup`, `Modules.written_of_declared`: what the scope of a module exports and declares
  is what its file writes.
-/
namespace ComponentSchema

open Syntax Relation

/-! ## What is written -/

/-- The entry of a specifier; `source` is the module that its clause exports from. -/
def Syntax.ExportSpecifier.exportOf? (source : Option ModuleId) :
    ExportSpecifier → Option (String × ExportBinding)
  | .named original exported => some (exported.getD original,
      match source with
      | some module => .reexport module original
      | none => .own original)
  | .all exported => source.map fun module => (exported, .all module)

/-- The entries of an export clause; there are none if its source is not known. -/
def ModuleFile.clauseExports (file : ModuleFile) : ItemKind → List (String × ExportBinding)
  | .exportNamed none specifiers => specifiers.filterMap (·.exportOf? none)
  | .exportNamed (some source) specifiers =>
    match file.dependency? source with
    | some module => specifiers.filterMap (·.exportOf? (some module))
    | none => []
  | _ => []

/-- A local name under itself, if it is exported. -/
def exportedIf (exported : Bool) (name : String) : List (String × ExportBinding) :=
  if exported then [(name, .own name)] else []

/-- The entry of a declaration with or without an `export` modifier; functions and variables are no
types. -/
def Syntax.Decl.exports (exported : Bool) : Decl → List (String × ExportBinding)
  | .classDecl name _ | .interface name _ | .typeAlias name _ | .enum name
  | .namespaceDecl (.identifier name) _ => exportedIf exported name
  | _ => []

/-- The entry of an item that is no export clause. -/
def Syntax.Item.exports : Item → List (String × ExportBinding)
  | ⟨_, .declaration decl⟩ => decl.exports false
  | ⟨_, .exportDecl decl⟩ => decl.exports true
  | ⟨_, .exportDefaultClass (some name) _⟩ | ⟨_, .exportDefaultInterface name _⟩
  | ⟨_, .exportDefaultExpr (.identifier name)⟩ => [(defaultExportName, .own name)]
  | _ => []

/-- The entries of the body of a namespace; clauses come before everything else. -/
def Syntax.NamespaceBody.exports (file : ModuleFile) : NamespaceBody → List (String × ExportBinding)
  | .absent => []
  | .nested name _ => exportedIf true name
  | .items body => body.flatMap (file.clauseExports ·.kind) ++ body.flatMap (·.exports)

/-- The entries of a file. -/
def ModuleFile.exports (file : ModuleFile) : List (String × ExportBinding) :=
  (NamespaceBody.items file.tree.items).exports file

/-! ## What is added -/

namespace Index

variable {index index' index'' : Index} {root x z : ScopeId} {spot : Spot}
  {entries entries' : List (String × ExportBinding)}

/-- Every declaration is merged from some that are written. -/
def Merged (index : Index) : Prop := ∀ decl ∈ index.decls, decl.kind.parts ≠ []

/-- From one index to another a scope exports some more names; of a name that it exports already, and of
several entries of one name, the first counts. -/
structure Exports (root : ScopeId) (index index' : Index) (entries : List (String × ExportBinding)) :
    Prop where
  changes : Changes (fun _ => True) index index'
  merged : index.Merged → index'.Merged
  lookup : ∀ name, (index'.scope root).exports.lookup name =
    ((index.scope root).exports.lookup name).or (entries.lookup name)

theorem Exports.refl (root : ScopeId) (index : Index) : Exports root index index [] :=
  ⟨.refl, id, fun _ => Option.or_none.symm⟩

theorem Exports.trans (h : Exports root index index' entries)
    (h' : Exports root index' index'' entries') : Exports root index index'' (entries ++ entries') where
  changes := h.changes.trans h'.changes
  merged := h'.merged ∘ h.merged
  lookup name := by rw [h'.lookup, h.lookup, Option.or_assoc, List.lookup_append]

/-- Changes after which a scope exports what it exported before. -/
theorem Exports.quiet (hchanges : Changes (fun _ => True) index index')
    (hmerged : index.Merged → index'.Merged)
    (h : (index'.scope root).exports = (index.scope root).exports) : Exports root index index' [] :=
  ⟨hchanges, hmerged, fun _ => by rw [h, List.lookup_nil, Option.or_none]⟩

theorem Changes.hasScope (h : Changes (fun _ => True) index index') (hx : index.HasScope x) :
    index'.HasScope x := Nat.lt_of_lt_of_le hx h.size

theorem exports_modifyScope (hx : index.HasScope x) {change : Scope → Scope}
    (hchange : ∀ data, (change data).exports = data.exports) (z : ScopeId) :
    ((index.modifyScope x change).scope z).exports = (index.scope z).exports := by
  rw [scope_modify index z change hx]
  split
  · rename_i hzx
    rw [hchange, hzx]
  · rfl

/-- A change to a scope that leaves its exports as they are. -/
theorem Exports.modifyScope (hx : index.HasScope x) {change : Scope → Scope}
    (hchange : Change (fun _ => True) index (index.modifyScope x change))
    (hsame : ∀ data, (change data).exports = data.exports) :
    Exports root index (index.modifyScope x change) [] :=
  .quiet (.single hchange) id (exports_modifyScope hx hsame root)

theorem Exports.declare {name : String} {kind : TypeDeclKind} (hx : index.HasScope x)
    (hnew : (index.scope x).types.lookup name = none) (hparts : kind.parts = [kind]) :
    Exports root index ({ index with decls := index.decls.push ⟨name, x, kind⟩ }.modifyScope x fun data =>
      { data with types := (name, ⟨index.decls.size⟩) :: data.types }) [] := by
  refine .quiet (.single (.declare hx hnew kind)) (fun hmerged decl hdecl => ?_)
    (exports_modifyScope hx ?_ root)
  · rcases Array.mem_push.1 hdecl with hdecl | rfl
    · exact hmerged decl hdecl
    · exact hparts ▸ List.cons_ne_nil _ _
  · exact fun _ => rfl

theorem Exports.addBody {id : DeclId} {decl decl' : TypeDecl} {members : List TypeMember}
    (hdecl : index.decls[id.index]? = some decl) (hbody : decl.addBody? members = some decl') :
    Exports root index { index with decls := index.decls.modify id.index fun _ => decl' } [] := by
  refine .quiet (.single (.addBody hdecl hbody)) (fun hmerged other hother => ?_) rfl
  obtain ⟨i, hi⟩ := Array.mem_iff_getElem?.1 hother
  rw [Array.getElem?_modify] at hi
  split at hi
  · obtain ⟨-, -, rfl⟩ := Option.map_eq_some_iff.1 hi
    rw [(addBody?_parts hbody).2]
    exact List.append_ne_nil_of_right_ne_nil _ (List.cons_ne_nil _ _)
  · exact hmerged other (Array.mem_of_getElem? hi)

theorem exports_pushScope {data : Scope} (hz : index.HasScope z) :
    ((index.pushScope data).scope z).exports = (index.scope z).exports := by
  rw [scope_push, if_neg (Nat.ne_of_lt hz)]

/-- Entries of a scope, seen from another one or from itself. -/
def entriesIn (root x : ScopeId) (entries : List (String × ExportBinding)) :
    List (String × ExportBinding) :=
  if x = root then entries else []

@[simp] theorem entriesIn_nil (root x : ScopeId) : entriesIn root x [] = [] := ite_self _

@[simp] theorem entriesIn_append (root x : ScopeId) (entries entries' : List (String × ExportBinding)) :
    entriesIn root x (entries ++ entries') = entriesIn root x entries ++ entriesIn root x entries' := by
  unfold entriesIn
  split <;> rfl

theorem entriesIn_of_ne (h : x ≠ root) : entriesIn root x entries = [] := if_neg h

theorem Exports.addExport (hx : index.HasScope x) (name : String) (binding : ExportBinding) :
    Exports root index (index.modifyScope x fun data =>
      match data.exports.lookup name with
      | some _ => data
      | none => { data with exports := (name, binding) :: data.exports })
      (entriesIn root x [(name, binding)]) := by
  refine ⟨.single (.addExport hx name binding fun _ _ => trivial), id, fun other => ?_⟩
  rw [scope_modify index root _ hx, entriesIn]
  by_cases hroot : x = root
  · subst hroot
    rw [if_pos rfl, if_pos rfl]
    rcases hlook : (index.scope x).exports.lookup name with _ | found
    · by_cases hother : other = name
      · simp [hother, hlook]
      · simp [List.lookup_cons, beq_eq_false_iff_ne.2 hother]
    · by_cases hother : other = name
      · simp [hother, hlook]
      · simp [List.lookup_cons, beq_eq_false_iff_ne.2 hother]
  · rw [if_neg (Ne.symm hroot), if_neg hroot, List.lookup_nil, Option.or_none]

theorem At.parent_eq_none (h : index.At (.top root) x) : (index.scope x).parent = none := by
  generalize hspot : Spot.top root = spot at h
  cases h with
  | top _ hparent => exact hparent
  | enter => exact absurd (congrArg Spot.blocks hspot) (by simp [Spot.top, Spot.enter])

end Index

open Index

namespace Binding

variable {α β : Type} {index : Index} {root x : ScopeId} {name : String} {exported : Bool}
  {entries entries' : List (String × ExportBinding)}

/-! ## Steps that leave the scopes as they are -/

/-- A step after which the scopes and the declarations are what they were. -/
def KeepsScopes (step : Binding α) : Prop := ∀ index,
  (step.run index).2.scopes = index.scopes ∧ (step.run index).2.decls = index.decls

theorem KeepsScopes.done (answer : α) : KeepsScopes (pure answer : Binding α) := fun _ => ⟨rfl, rfl⟩

theorem KeepsScopes.bind {first : Binding α} {next : α → Binding β} (h : KeepsScopes first)
    (hnext : ∀ answer, KeepsScopes (next answer)) : KeepsScopes (first >>= next) :=
  fun index => ⟨(hnext _ _).1.trans (h index).1, (hnext _ _).2.trans (h index).2⟩

theorem addTypeSite_keepsScopes (x : ScopeId) (type : TypeExpr) : KeepsScopes (addTypeSite x type) :=
  fun _ => ⟨rfl, rfl⟩

theorem addFunctionSite_keepsScopes (site : FunctionSite) : KeepsScopes (addFunctionSite site) :=
  fun _ => ⟨rfl, rfl⟩

/-- What is kept for a view leaves the scopes as they are. -/
def keepingScopes (x : ScopeId) : Keeping x where
  Holds step _ := KeepsScopes step
  done := .done
  bind hfirst hnext := hfirst.bind hnext
  typeSite := addTypeSite_keepsScopes x
  functionSite _ _ := addFunctionSite_keepsScopes _

theorem classView_keepsScopes (name : Option String) (members : List ClassMember) (exported : Bool)
    (leading : List Comment) : KeepsScopes (classView name members exported leading) :=
  fun _ => ⟨rfl, rfl⟩

/-! ## Steps that export -/

/-- A step that adds some entries to the exports of a scope that stands in no other, and its answer. -/
def Adds (root : ScopeId) (index : Index) (step : Binding α) (entries : List (String × ExportBinding))
    (Q : Index → α → Prop) : Prop :=
  Bound (fun _ => True) index → index.At (.top root) root →
    Exports root index (step.run index).2 entries ∧ Q (step.run index).2 (step.run index).1

/-- A step that exports some entries from a scope. -/
def AddsIn (root : ScopeId) (index : Index) (x : ScopeId) (step : Binding α)
    (entries : List (String × ExportBinding)) : Prop :=
  index.HasScope x → Adds root index step (entriesIn root x entries) fun _ _ => True

section

variable {first : Binding α} {Q : Index → α → Prop} {R : Index → β → Prop}

theorem Adds.done {answer : α}
    (hq : Bound (fun _ => True) index → index.At (.top root) root → Q index answer) :
    Adds root index (pure answer) [] Q :=
  fun hbound hroot => ⟨.refl root index, hq hbound hroot⟩

theorem Adds.nothing (answer : α) : Adds root index (pure answer) [] fun _ _ => True :=
  .done fun _ _ => trivial

theorem AddsIn.nothing (answer : α) : AddsIn root index x (pure answer) [] := by
  intro _
  rw [entriesIn_nil]
  exact .nothing answer

theorem Adds.bind {next : α → Binding β} (h : Adds root index first entries Q)
    (hnext : ∀ index' answer, Changes (fun _ => True) index index' → Q index' answer →
      Adds root index' (next answer) entries' R) :
    Adds root index (first >>= next) (entries ++ entries') R := by
  intro hbound hroot
  obtain ⟨hexports, hq⟩ := h hbound hroot
  obtain ⟨hexports', hr⟩ := hnext _ _ hexports.changes hq (hexports.changes.bound hbound)
    (hexports.changes.at hroot)
  exact ⟨hexports.trans hexports', hr⟩

/-- After a step that exports nothing. -/
theorem Adds.quietly {next : α → Binding β} (h : Adds root index first [] Q)
    (hnext : ∀ index' answer, Changes (fun _ => True) index index' → Q index' answer →
      Adds root index' (next answer) entries R) : Adds root index (first >>= next) entries R :=
  h.bind hnext

theorem Adds.bind_pure {f : α → β} (h : Adds root index first entries Q) :
    Adds root index (first >>= fun answer => pure (f answer)) entries fun _ _ => True := by
  rw [← List.append_nil entries]
  exact h.bind fun _ _ _ _ => .nothing _

theorem Adds.get_bind {next : Index → Binding β} (h : Adds root index (next index) entries R) :
    Adds root index (get >>= next) entries R := h

theorem Adds.of_bound (h : Bound (fun _ => True) index → Adds root index first entries Q) :
    Adds root index first entries Q :=
  fun hbound => h hbound hbound

theorem Adds.single {index' : Index} {step : Binding Unit} (hrun : (step.run index).2 = index')
    (hexports : Exports root index index' entries) : Adds root index step entries fun _ _ => True :=
  fun _ _ => ⟨hrun ▸ hexports, trivial⟩

/-- A step that leaves the scopes as they are exports nothing. -/
theorem Adds.of_keepsScopes {P : Index → α → Prop} (hmakes : Makes (fun _ => True) index first P)
    (hscopes : KeepsScopes first) : Adds root index first [] fun _ _ => True := by
  obtain ⟨hsame, hdecls⟩ := hscopes index
  refine fun hbound _ => ⟨.quiet (hmakes hbound.nested).1 (fun hmerged => ?_) ?_, trivial⟩
  · rwa [Merged, hdecls]
  · unfold Index.scope
    rw [hsame]

end

theorem addExport_adds (binding : ExportBinding) :
    AddsIn root index x (addExport x name binding) [(name, binding)] :=
  fun hx => .single rfl (.addExport hx name binding)

theorem exportIf_adds : AddsIn root index x (exportIf exported x name) (exportedIf exported name) := by
  cases exported with
  | true => exact addExport_adds _
  | false => exact .nothing ()

theorem declare_adds {kind : TypeDeclKind} (hparts : kind.parts = [kind]) :
    AddsIn root index x (declare x name kind exported) (exportedIf exported name) := by
  intro hx
  rw [← List.append_nil (entriesIn ..)]
  refine (exportIf_adds hx).bind fun index' _ hchanges _ => .get_bind ?_
  have hx' : index'.HasScope x := hchanges.hasScope hx
  rcases hlook : (index'.scope x).types.lookup name with _ | id
  · exact .single rfl (.declare hx' hlook hparts)
  · exact .nothing ()

theorem declareInterface_adds (members : List TypeMember) :
    AddsIn root index x (declareInterface x name members exported) (exportedIf exported name) := by
  refine fun hx => .get_bind ?_
  rcases hlook : (index.scope x).types.lookup name with _ | id
  · simp only [Option.bind_eq_bind, Option.bind_none]
    exact declare_adds rfl hx
  · rcases hdecl : index.decls[id.index]? with _ | decl
    · simp only [hdecl, Option.bind_eq_bind, Option.bind_some, Option.bind_none]
      exact declare_adds rfl hx
    · rcases hbody : decl.addBody? members with _ | decl'
      · simp only [hdecl, hbody, Option.bind_eq_bind, Option.bind_some, Option.bind_none]
        exact declare_adds rfl hx
      · simp only [hdecl, hbody, Option.bind_eq_bind, Option.bind_some]
        refine Adds.quietly (.single rfl (.addBody hdecl hbody)) fun _ _ hchanges _ => ?_
        exact exportIf_adds (hchanges.hasScope hx)

/-- A scope that is made stands in another one. -/
theorem newScope_adds (hx : index.HasScope x) :
    Adds root index (newScope (some name) (some x)) [] fun index' inner => index'.HasScope inner ∧
      (index'.scope inner).name = some name ∧ (index'.scope inner).parent = some x := by
  intro hbound hroot
  obtain ⟨hchanges, hinner⟩ := newScope_makes hx hbound.nested
  exact ⟨.quiet hchanges id (exports_pushScope hroot.hasScope), hinner⟩

/-- What stands in another scope is not outermost. -/
theorem ne_of_parent {inner : ScopeId} (hroot : index.At (.top root) root)
    (hparent : (index.scope inner).parent = some x) : inner ≠ root := by
  rintro rfl
  rw [hroot.parent_eq_none] at hparent
  cases hparent

theorem namespaceScope_adds (hx : index.HasScope x) :
    Adds root index (namespaceScope x name exported) (entriesIn root x (exportedIf exported name))
      fun index' inner => index'.HasScope inner ∧ inner ≠ root := by
  rw [← List.append_nil (entriesIn ..)]
  refine (exportIf_adds hx).bind fun index' _ hchanges _ => .get_bind ?_
  have hx' : index'.HasScope x := hchanges.hasScope hx
  rcases hlook : (index'.scope x).namespaces.lookup name with _ | inner
  · refine (newScope_adds hx').quietly fun index'' inner hchanges' ⟨hinner, hname, hparent⟩ => ?_
    have hx'' : index''.HasScope x := hchanges'.hasScope hx'
    have hentered : Adds root index'' (modifyScope x fun data =>
        { data with namespaces := (name, inner) :: data.namespaces }) [] fun index₃ _ =>
          index₃.HasScope inner ∧ inner ≠ root := by
      refine fun _ hroot => ⟨.modifyScope hx'' (.addNamespace hx'' hinner hname hparent) fun _ => rfl, ?_,
        ne_of_parent hroot hparent⟩
      exact Nat.lt_of_lt_of_le hinner (Nat.le_of_eq (Array.size_modify ..).symm)
    exact hentered.quietly fun _ _ _ hinner => .done fun _ _ => hinner
  · refine .done fun hbound hroot => ?_
    have hmem := mem_of_lookup hlook
    exact ⟨hbound.nested.namespaces hmem, ne_of_parent hroot (hbound.enters x _ hmem).2⟩

/-- The entry of a namespace in the scope around it. -/
def namespaceExports (exported : Bool) : NamespaceName → List (String × ExportBinding)
  | .identifier name => exportedIf exported name
  | .string _ | .global => []

/-- A namespace is bound in a scope that is not outermost. -/
theorem enter_adds (hglobal : globalScope ≠ root) (hx : index.HasScope x) (namespaceName : NamespaceName) :
    Adds root index (enter x exported namespaceName)
      (entriesIn root x (namespaceExports exported namespaceName))
      fun index' inner => index'.HasScope inner ∧ inner ≠ root := by
  cases namespaceName with
  | identifier name => exact namespaceScope_adds hx
  | string name =>
    rw [namespaceExports, entriesIn_nil]
    intro hbound hroot
    have hadds : Adds root index (newScope (some name) (some x)) [] _ := newScope_adds hx
    obtain ⟨hexports, hinner, -, hparent⟩ := hadds hbound hroot
    exact ⟨hexports, hinner, ne_of_parent (hexports.changes.at hroot) hparent⟩
  | global =>
    rw [namespaceExports, entriesIn_nil]
    exact .done fun hbound _ => ⟨hbound.nested.global, hglobal⟩

theorem forM_adds {ι : Type} {step : ι → Binding Unit}
    {written : ι → List (String × ExportBinding)} (items : List ι)
    (hstep : ∀ item (index' : Index), AddsIn root index' x (step item) (written item)) :
    AddsIn root index x (items.forM step) (items.flatMap written) := by
  induction items generalizing index with
  | nil => exact .nothing ()
  | cons item rest ih =>
    intro hx
    rw [List.flatMap_cons, entriesIn_append]
    exact (hstep item index hx).bind fun _ _ hchanges _ => ih (hchanges.hasScope hx)

/-! ## Clauses -/

section

variable {file : ModuleFile}

theorem bindImport_adds (source : StringLiteral) (specifiers : List ImportSpecifier) :
    AddsIn root index x (bindImport file x source specifiers) [] := by
  unfold bindImport
  rcases file.dependency? source with _ | g
  · exact .nothing ()
  · have hone : ∀ specifier (index' : Index), AddsIn root index' x
        (addImport x (importBinding g specifier).1 (importBinding g specifier).2) [] := by
      intro specifier index' hx
      rw [entriesIn_nil]
      exact .single rfl (.modifyScope hx (.addImport hx _ _ trivial) fun _ => rfl)
    have hall : AddsIn root index x _ _ := forM_adds specifiers hone
    rwa [List.flatMap_eq_nil_iff.2 fun _ _ => rfl] at hall

theorem bindExportEntry_adds (source : Option ModuleId) (specifier : ExportSpecifier) :
    AddsIn root index x (bindExportEntry x source specifier) (specifier.exportOf? source).toList := by
  cases specifier with
  | named original exported => cases source <;> exact addExport_adds _
  | all exported =>
    cases source with
    | none => exact .nothing ()
    | some g => exact addExport_adds _

theorem bindExportClause_adds (item : ItemKind) :
    AddsIn root index x (bindExportClause file x item) (file.clauseExports item) := by
  have hentries : ∀ (source : Option ModuleId) (specifiers : List ExportSpecifier),
      AddsIn root index x (specifiers.forM (bindExportEntry x source))
        (specifiers.filterMap (·.exportOf? source)) := by
    intro source specifiers
    rw [List.filterMap_eq_flatMap_toList]
    exact forM_adds specifiers fun specifier _ => bindExportEntry_adds source specifier
  cases item with
  | exportNamed source specifiers =>
    cases source with
    | none => exact hentries none specifiers
    | some source =>
      simp only [bindExportClause, ModuleFile.clauseExports]
      rcases file.dependency? source with _ | g
      · exact .nothing ()
      · exact hentries (some g) specifiers
  | exportAll source =>
    simp only [bindExportClause, ModuleFile.clauseExports]
    rcases file.dependency? source with _ | g
    · exact .nothing ()
    · intro hx
      rw [entriesIn_nil]
      exact .single rfl (.modifyScope hx (.addStarExport hx g trivial) fun _ => rfl)
  | _ => exact .nothing ()

/-! ## Items -/

theorem function_adds (definition : Function) (hx : index.HasScope x) :
    Adds root index (function x definition) [] fun _ _ => True :=
  .of_keepsScopes ((making _ x).function definition index hx) ((keepingScopes x).function definition)

theorem classView_adds (name : Option String) (members : List ClassMember) (exported : Bool)
    (leading : List Comment) :
    Adds root index (classView name members exported leading) [] fun _ _ => True :=
  .of_keepsScopes (classView_makes name members exported leading)
    (classView_keepsScopes name members exported leading)

theorem variableDecl_adds (aliases : List (String × String)) (declarator : Declarator)
    (hx : index.HasScope x) :
    Adds root index (variableDecl x exported aliases declarator) [] fun _ _ => True :=
  .of_keepsScopes ((making _ x).variableDecl exported aliases declarator index hx)
    ((keepingScopes x).variableDecl exported aliases declarator)

/-- The entries that an act adds to its scope. -/
def Act.exports (file : ModuleFile) : Act → List (String × ExportBinding)
  | .nominal name exported | .typeAlias name _ exported | .interface name _ exported =>
    exportedIf exported name
  | .exportDefault name => [(defaultExportName, .own name)]
  | .clause kind => file.clauseExports kind
  | .function .. | .declarator .. | .classView .. | .imports .. => []

theorem act_adds (act : Act) : AddsIn root index x (act.bind file x) (act.exports file) := by
  intro hx
  cases act with
  | function _ _ _ definition =>
    rw [Act.exports, entriesIn_nil]
    exact (function_adds definition hx).bind_pure
  | declarator aliases _ written =>
    rw [Act.exports, entriesIn_nil]
    exact (variableDecl_adds aliases written hx).bind_pure
  | classView name members exported leading =>
    rw [Act.exports, entriesIn_nil]
    exact (classView_adds name members exported leading).bind_pure
  | nominal => exact (declare_adds rfl hx).bind_pure
  | typeAlias => exact (declare_adds rfl hx).bind_pure
  | interface _ members => exact (declareInterface_adds members hx).bind_pure
  | exportDefault => exact (addExport_adds _ hx).bind_pure
  | imports source specifiers => exact (bindImport_adds source specifiers hx).bind_pure
  | clause kind => exact (bindExportClause_adds kind hx).bind_pure

omit file in
/-- What is bound in a scope adds some entries to its exports, and none to those of the outermost scope
from further inside. -/
def adding (hglobal : globalScope ≠ root) : Judgement where
  Account := List (String × ExportBinding)
  Holds x _ step _ entries := ∀ {index}, AddsIn root index x step entries
  nothing := []
  both entries entries' := entries ++ entries'
  within name exported _ := namespaceExports exported name
  holds_nothing := .nothing []
  holds_both h h' _ hx := by
    rw [entriesIn_append]
    exact (h hx).bind fun _ _ hchanges _ => (h' (hchanges.hasScope hx)).bind_pure
  holds_within h _ hx := by
    rw [← List.append_nil (entriesIn ..)]
    refine (enter_adds hglobal hx _).bind fun _ inner _ ⟨hinner, hne⟩ => ?_
    have hadds := h inner inner hinner
    rw [entriesIn_of_ne hne] at hadds
    exact hadds.bind_pure

theorem exports_of_decl {aliases : List (String × String)} {leading : List Comment} {decl : Decl}
    {acts : List Act} (h : decl.acts? aliases exported leading = some acts) :
    acts.flatMap (Act.exports file) = decl.exports exported := by
  cases decl with
  | namespaceDecl => cases h
  | _ =>
    cases h
    simp [Act.exports, Decl.exports]

theorem exports_of_item {item : Item} {acts : List Act} (h : item.acts? = some acts) :
    acts.flatMap (Act.exports file) = item.exports := by
  obtain ⟨leading, kind⟩ := item
  cases kind with
  | declaration | exportDecl => cases h
  | exportDefaultClass name => cases name <;> cases h <;> simp [Act.exports, Item.exports, exportedIf]
  | exportDefaultExpr value => cases value <;> cases h <;> simp [Act.exports, Item.exports]
  | _ =>
    cases h
    simp [Act.exports, Item.exports, exportedIf]

def addingLedger (file : ModuleFile) (hglobal : globalScope ≠ root) :
    (adding hglobal).Ledger file file where
  ofAct := Act.exports file
  ofDecl _ exported _ decl := decl.exports exported
  ofBody body := body.exports file
  ofItems _ items := items.flatMap (·.exports)
  ofItem _ item := item.exports
  act act _ _ _ := act_adds act
  decl_acts h := .of_eq ((Judgement.foldr_append ..).trans (exports_of_decl h))
  decl_namespaceDecl {_ _ _ name _} := .of_eq (by cases name <;> rfl)
  body_absent := .of_eq rfl
  body_nested := .of_eq rfl
  body_items := .of_eq (by
    refine congrArg (· ++ _) ((Judgement.foldr_append ..).trans ?_)
    rw [clauseActs, List.flatMap_map]
    rfl)
  items_nil := .of_eq rfl
  items_cons := .of_eq rfl
  item_acts h := .of_eq ((Judgement.foldr_append ..).trans (exports_of_item h))
  item_declaration := .of_eq rfl
  item_exportDecl := .of_eq rfl

theorem bindBody_adds (hglobal : globalScope ≠ root) (body : NamespaceBody) :
    AddsIn root index x (bindBody file x body) (body.exports file) :=
  (addingLedger file hglobal).bindBody body x x

/-- Files are bound one after the other; those of the scope export from it. -/
theorem mapM_bindEntry_adds (hglobal : globalScope ≠ root) (own : ModuleId → ScopeId)
    (files : List (ModuleId × ModuleFile))
    (h : ∀ entry ∈ files, index.HasModule entry.1 ∧ index.moduleScope entry.1 = own entry.1) :
    Adds root index (files.mapM bindEntry)
      (files.flatMap fun entry => entriesIn root (own entry.1) entry.2.exports) fun _ _ => True := by
  induction files generalizing index with
  | nil => exact .nothing _
  | cons entry rest ih =>
    obtain ⟨⟨hmodule, hown⟩, hrest⟩ := List.forall_mem_cons.1 h
    have hentry : Adds root index (bindEntry entry) (entriesIn root (own entry.1) entry.2.exports)
        fun _ _ => True := by
      refine .get_bind (Adds.bind_pure (Q := fun _ _ => True) (.of_bound fun hbound => ?_))
      rw [← hown]
      exact bindBody_adds hglobal (.items entry.2.tree.items) (hbound.nested.moduleScope_lt _)
    rw [List.mapM_cons, List.flatMap_cons]
    refine hentry.bind fun index' _ hchanges _ => (ih fun other hother => ?_).bind_pure
    obtain ⟨hmodule', hown'⟩ := hrest other hother
    exact ⟨Nat.lt_of_lt_of_le hmodule' hchanges.modulesSize,
      (hchanges.moduleScope_eq hmodule').trans hown'⟩

end

end Binding

/-! ## Programs -/

/-- Of several lists that are all the same, some of them left out, the first counts. -/
theorem lookup_flatMap {ι α : Type} {items : List ι} {item : ι} {entriesOf : ι → List (String × α)}
    (name : String) (hitem : item ∈ items)
    (h : ∀ other ∈ items, entriesOf other = [] ∨ entriesOf other = entriesOf item) :
    (items.flatMap entriesOf).lookup name = (entriesOf item).lookup name := by
  have habsorb : ∀ others : List ι, (∀ other ∈ others, other ∈ items) →
      ((others.flatMap entriesOf).lookup name).or ((entriesOf item).lookup name) =
        (entriesOf item).lookup name := by
    intro others hothers
    induction others with
    | nil => rfl
    | cons other rest ih =>
      obtain ⟨hother, hrest⟩ := List.forall_mem_cons.1 hothers
      rw [List.flatMap_cons, List.lookup_append, Option.or_assoc, ih hrest]
      rcases h other hother with hnil | hsame
      · rw [hnil]
        rfl
      · rw [hsame, Option.or_self]
  obtain ⟨before, after, rfl⟩ := List.append_of_mem hitem
  rw [List.flatMap_append, List.flatMap_cons, List.lookup_append, List.lookup_append, ← Option.or_assoc,
    habsorb before fun _ => List.mem_append_left _]
  rcases hlook : (entriesOf item).lookup name with _ | found
  · have hafter := habsorb after fun _ hmem => List.mem_append_right _ (List.mem_cons_of_mem _ hmem)
    rwa [hlook, Option.or_none] at hafter
  · rfl

namespace Modules

open Binding

variable {modules : Modules} {entry : ModuleId × ModuleFile}

/-- What binding the files adds to the exports of the scope of a module. -/
theorem bind_exports (hentry : entry ∈ modules.bound) (hscope : entry.2.hasScope = true) :
    Exports (modules.bind.2.moduleScope entry.1) modules.unbound modules.bind.2
      (modules.bound.flatMap fun other => entriesIn (modules.bind.2.moduleScope entry.1)
        (modules.bind.2.moduleScope other.1) other.2.exports) := by
  have hbound : Bound (fun _ => True) modules.unbound := (unbound_changes modules).bound (.empty _)
  have hroot := modules.at_unbound entry.1
  rw [← (moduleScope_bound hentry).2] at hroot
  refine (mapM_bindEntry_adds (moduleScope_ne_global hentry hscope) modules.bind.2.moduleScope
    modules.bound (fun other hother => ?_) hbound hroot).1
  obtain ⟨hmodule, hown⟩ := moduleScope_bound hother
  exact ⟨hmodule, hown.symm⟩

/-- What the scope of a module exports is what its file writes, and of a name the first entry. -/
theorem exports_lookup (hentry : entry ∈ modules.bound) (hscope : entry.2.hasScope = true)
    (name : String) :
    (modules.bind.2.scope (modules.bind.2.moduleScope entry.1)).exports.lookup name =
      entry.2.exports.lookup name := by
  have hexports := (bind_exports hentry hscope).lookup name
  rw [modules.unbound_bare.scopes] at hexports
  refine hexports.trans ((lookup_flatMap name hentry fun other hother => ?_).trans ?_)
  · rw [entriesIn, entriesIn, if_pos rfl]
    split
    · rename_i hsame
      exact .inr (congrArg (·.2.exports) (eq_of_moduleScope hentry hscope hother hsame))
    · exact .inl rfl
  · rw [entriesIn, if_pos rfl]

/-- What the scope of a module declares its file writes at its top level. -/
theorem written_of_declared (hentry : entry ∈ modules.bound) (hscope : entry.2.hasScope = true)
    {name : String} {d : DeclId}
    (h : (modules.bind.2.scope (modules.bind.2.moduleScope entry.1)).types.lookup name = some d) :
    ∃ kind, (.top (modules.bind.2.moduleScope entry.1), .declares name kind) ∈
      entry.2.writes (modules.bind.2.moduleScope entry.1) := by
  have hmerged : modules.bind.2.Merged := by
    refine (bind_exports hentry hscope).merged fun decl hdecl => ?_
    rw [modules.unbound_bare.decls] at hdecl
    simp at hdecl
  obtain ⟨kind, hdecl⟩ := modules.bind_bound.registered.declares _ _ (mem_of_lookup h)
  have hmem := Array.mem_of_getElem? hdecl
  obtain ⟨part, hpart⟩ := List.exists_mem_of_ne_nil _ (hmerged _ hmem)
  exact ⟨part, written_of_keeps hentry hscope ⟨_, hmem, rfl, rfl, hpart⟩⟩

end Modules

end ComponentSchema
