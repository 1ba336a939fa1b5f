import ComponentSchema.Proofs.Binder.SourcePieces
import ComponentSchema.Proofs.Binder.TwinPrograms

/-!
# Where binding keeps what is written

Whatever is bound at a spot is given the scope that stands there: the one of the file, that of a
namespace, which its blocks share, a new one for a `declare module` block, or the global scope. So each
piece of a file is kept with the scope of its spot, and nothing else is kept.

Results.
* `Binding.act_records`, `Binding.bindBody_records`: what a file adds, act by act.
* `Modules.kept_iff_written`: a program keeps what its files write, where they write it.
-/
namespace ComponentSchema

open Syntax Relation

/-! ## Steps of binding -/

open Index

namespace Binding

variable {α β : Type} {index : Index} {x : ScopeId} {spot : Spot} {name : String} {exported : Bool}
  {written written' : List (Spot × Piece)}

/-- A step that binds what is written, and its answer. -/
def Records (index : Index) (step : Binding α) (written : List (Spot × Piece))
    (Q : Index → α → Prop) : Prop :=
  Bound (fun _ => True) index →
    Gains index (step.run index).2 written ∧ Q (step.run index).2 (step.run index).1

/-- A step that binds what is written, given the scope of its spot. -/
def RecordsIn (index : Index) (spot : Spot) (x : ScopeId) (step : Binding α)
    (written : List (Spot × Piece)) : Prop :=
  index.At spot x → Records index step written fun _ _ => True

section

variable {first : Binding α} {Q : Index → α → Prop} {R : Index → β → Prop}

theorem Records.done {answer : α} (hq : Bound (fun _ => True) index → Q index answer) :
    Records index (pure answer) [] Q :=
  fun hbound => ⟨.refl index, hq hbound⟩

theorem Records.bind {next : α → Binding β} (h : Records index first written Q)
    (hnext : ∀ index' answer, Gains index index' written → Q index' answer →
      Records index' (next answer) written' R) :
    Records index (first >>= next) (written ++ written') R := by
  intro hbound
  obtain ⟨hgains, hq⟩ := h hbound
  obtain ⟨hgains', hr⟩ := hnext _ _ hgains hq (hgains.changes.bound hbound)
  exact ⟨hgains.trans hgains', hr⟩

/-- After a step that binds nothing that is written. -/
theorem Records.quietly {next : α → Binding β} (h : Records index first [] Q)
    (hnext : ∀ index' answer, Gains index index' [] → Q index' answer →
      Records index' (next answer) written R) : Records index (first >>= next) written R :=
  h.bind hnext

theorem Records.bind_pure {f : α → β} (h : Records index first written Q) :
    Records index (first >>= fun answer => pure (f answer)) written fun _ _ => True := by
  rw [← List.append_nil written]
  exact h.bind fun _ _ _ _ => .done fun _ => trivial

theorem Records.forget (h : Records index first written Q) :
    Records index first written fun _ _ => True :=
  fun hbound => ⟨(h hbound).1, trivial⟩

theorem Records.of_bound (h : Bound (fun _ => True) index → Records index first written Q) :
    Records index first written Q :=
  fun hbound => h hbound hbound

theorem Records.get_bind {next : Index → Binding β} (h : Records index (next index) written R) :
    Records index (get >>= next) written R := h

theorem Records.single {index' : Index} {step : Binding Unit} (hrun : (step.run index).2 = index')
    (hgains : Gains index index' written) : Records index step written fun _ _ => True :=
  fun _ => ⟨hrun ▸ hgains, trivial⟩

theorem Records.of_eq (h : Records index first written Q) (heq : written = written') :
    Records index first written' Q := heq ▸ h

end

theorem addExport_records (hx : index.HasScope x) (binding : ExportBinding) :
    Records index (addExport x name binding) [] fun _ _ => True :=
  .single rfl (.quiet (.addExport hx name binding fun _ _ => trivial)
    (keeps_modifyScope hx fun data => by split <;> rfl))

/-- Exporting a name leaves the declarations as they are. -/
theorem exportIf_records (hx : index.HasScope x) :
    Records index (exportIf exported x name) [] fun index' _ =>
      index'.decls = index.decls ∧ (index'.scope x).types = (index.scope x).types := by
  cases exported with
  | false => exact .done fun _ => ⟨rfl, rfl⟩
  | true =>
    refine fun hbound => ⟨(addExport_records hx _ hbound).1, rfl, ?_⟩
    refine (congrArg Scope.types (scope_modify index x _ hx)).trans ?_
    rw [if_pos rfl]
    split <;> rfl

/-- The first declaration of its name in a scope is kept, and a later one is given up. -/
theorem declare_records {kind : TypeDeclKind} (hparts : kind.parts = [kind])
    (hother : ∀ id decl, (index.scope x).types.lookup name = some id →
      index.decls[id.index]? = some decl → (kind.isInterface && decl.kind.isInterface) = false) :
    RecordsIn index spot x (declare x name kind exported) [(spot, .declares name kind)] := by
  intro hat
  refine (exportIf_records hat.hasScope).quietly fun index' _ hgains ⟨hdecls, htypes⟩ => .get_bind ?_
  have hat' := hgains.changes.at hat
  rcases hlook : (index'.scope x).types.lookup name with _ | id
  · exact .single rfl (.declare hat' hlook hparts)
  · refine .of_bound fun hbound => ?_
    obtain ⟨other, hdecl⟩ := hbound.registered.declares x _ (mem_of_lookup hlook)
    have hgiven : index'.GivesUp x (.declares name kind) :=
      ⟨_, Array.mem_of_getElem? hdecl, rfl, rfl,
        hother id _ (htypes ▸ hlook) (hdecls ▸ hdecl)⟩
    exact fun _ => ⟨.givenUp hat' hgiven, trivial⟩

theorem declareInterface_records (members : List TypeMember) :
    RecordsIn index spot x (declareInterface x name members exported)
      [(spot, .declares name (.interface [members]))] := by
  intro hat
  refine .get_bind (.of_bound fun hbound => ?_)
  rcases hlook : (index.scope x).types.lookup name with _ | id
  · simp only [Option.bind_eq_bind, Option.bind_none]
    exact declare_records rfl (fun _ _ h => by rw [hlook] at h; cases h) hat
  · obtain ⟨kind, hdecl⟩ := hbound.registered.declares x _ (mem_of_lookup hlook)
    rcases hbody : TypeDecl.addBody? ⟨name, x, kind⟩ members with _ | decl
    · simp only [hdecl, hbody, Option.bind_eq_bind, Option.bind_some, Option.bind_none]
      refine declare_records rfl (fun id' decl' hlook' hdecl' => ?_) hat
      obtain rfl := Option.some.inj (hlook.symm.trans hlook')
      obtain rfl := Option.some.inj (hdecl.symm.trans hdecl')
      exact isInterface_of_addBody? hbody
    · simp only [hdecl, hbody, Option.bind_eq_bind, Option.bind_some]
      have hgains := Gains.addBody hat hdecl hbody
      refine Records.of_eq (Records.bind (.single rfl hgains) fun index' _ hgains' _ =>
        (exportIf_records (hgains'.changes.at hat).hasScope).forget) (List.append_nil _)

/-! ## Namespaces -/

theorem newScope_records (hat : index.At spot x) :
    Records index (newScope (some name) (some x)) [] fun index' inner => index'.HasScope inner ∧
      (index'.scope inner).name = some name ∧ (index'.scope inner).parent = some x := by
  refine fun hbound => ⟨.quiet (.newScope _ fun p hp => ?_) (keeps_pushScope rfl), ?_⟩
  · exact Option.some.inj hp ▸ hat.hasScope
  · exact (newScope_makes (M := fun _ => True) hat.hasScope hbound.nested).2

theorem namespaceScope_records (hat : index.At spot x) :
    Records index (namespaceScope x name exported) [] fun index' inner =>
      index'.At (spot.enter name) inner := by
  refine (exportIf_records hat.hasScope).quietly fun index' _ hgains _ => .get_bind ?_
  have hat' := hgains.changes.at hat
  rcases hlook : (index'.scope x).namespaces.lookup name with _ | inner
  · refine (newScope_records hat').quietly
      fun index'' inner hgains' ⟨hinner, hname, hparent⟩ => ?_
    have hat'' := hgains'.changes.at hat'
    have hentered := At.enter hinner hname hparent hat''
    refine Records.quietly (.single rfl (.quiet
      (.addNamespace hat''.hasScope hinner hname hparent)
      (keeps_modifyScope hat''.hasScope fun _ => rfl))) fun index₃ _ hgains₃ _ => ?_
    exact .done fun _ => hgains₃.changes.at hentered
  · refine .done fun hbound => ?_
    have hmem := mem_of_lookup hlook
    obtain ⟨hname, hparent⟩ := hbound.enters x _ hmem
    exact .enter (hbound.nested.namespaces hmem) hname hparent hat'

/-! ## Sites and views -/

theorem addTypeSite_records (type : TypeExpr) :
    RecordsIn index spot x (addTypeSite x type) [(spot, .type type)] := by
  refine fun hat _ => ⟨.one (.typeSite hat.hasScope) hat Array.mem_push_self fun y other hkeeps => ?_,
    trivial⟩
  cases other with
  | type type' =>
    refine (Array.mem_push.1 hkeeps).imp id fun heq => ?_
    obtain ⟨rfl, rfl⟩ := TypeSite.mk.inj heq
    exact ⟨rfl, rfl⟩
  | body | declares | imports => exact .inl hkeeps

theorem addFunctionSite_records (body : Option Body) (wrapsResult : Bool) :
    RecordsIn index spot x (addFunctionSite ⟨x, body, wrapsResult⟩)
      (spot.holding (body.toList.map .body)) := by
  intro hat _
  have hchange : Change (fun _ => True) index
      { index with functionSites := index.functionSites.push ⟨x, body, wrapsResult⟩ } :=
    .functionSite hat.hasScope
  have hnew : ∀ y other, Index.Keeps { index with
      functionSites := index.functionSites.push ⟨x, body, wrapsResult⟩ } y other →
        index.Keeps y other ∨ y = x ∧ ∃ b ∈ body, other = .body b := by
    intro y other hkeeps
    cases other with
    | type | declares | imports => exact .inl hkeeps
    | body b =>
      obtain ⟨site, hsite, hscope, hbody⟩ := hkeeps
      rcases Array.mem_push.1 hsite with hsite | rfl
      · exact .inl ⟨site, hsite, hscope, hbody⟩
      · exact .inr ⟨hscope.symm, b, hbody, rfl⟩
  cases body with
  | none =>
    refine ⟨.quiet hchange fun y other hkeeps => ?_, trivial⟩
    exact (hnew y other hkeeps).elim id fun ⟨_, _, hb, _⟩ => nomatch hb
  | some body =>
    refine ⟨.one hchange hat ⟨_, Array.mem_push_self, rfl, rfl⟩ fun y other hkeeps => ?_, trivial⟩
    exact (hnew y other hkeeps).imp id fun ⟨hy, _, hb, hother⟩ => ⟨hy, by rw [hother, Option.some.inj hb]⟩

/-- What is kept for a view is kept where it is written. -/
def recordingView (spot : Spot) (x : ScopeId) : Keeping x where
  Holds step pieces := ∀ index, RecordsIn index spot x step (spot.holding pieces)
  done _ _ _ := .done fun _ => trivial
  bind hfirst hnext index hat := by
    rw [Spot.holding_append]
    exact (hfirst index hat).bind fun index' answer hgains _ =>
      hnext answer index' (hgains.changes.at hat)
  typeSite type _ := addTypeSite_records type
  functionSite body wrapsResult _ := addFunctionSite_records body wrapsResult

theorem forM_records {ι : Type} {step : ι → Binding Unit} {pieces : ι → List (Spot × Piece)}
    (items : List ι)
    (hstep : ∀ item (index' : Index), RecordsIn index' spot x (step item) (pieces item)) :
    RecordsIn index spot x (items.forM step) (items.flatMap pieces) := by
  induction items generalizing index with
  | nil => exact fun _ => .done fun _ => trivial
  | cons item rest ih =>
    intro hat
    rw [List.flatMap_cons]
    exact (hstep item index hat).bind fun _ _ hgains _ => ih (hgains.changes.at hat)

theorem forM_quietly {ι : Type} {step : ι → Binding Unit} (items : List ι)
    (hstep : ∀ item (index' : Index), RecordsIn index' spot x (step item) []) :
    RecordsIn index spot x (items.forM step) [] := by
  have hall : RecordsIn index spot x (items.forM step) _ := forM_records items hstep
  rwa [List.flatMap_eq_nil_iff.2 fun _ _ => rfl] at hall

theorem classView_records (name : Option String) (members : List ClassMember) (exported : Bool)
    (leading : List Comment) :
    Records index (classView name members exported leading) [] fun _ _ => True :=
  fun _ => ⟨.quiet (.classSite _) fun _ piece hkeeps => by cases piece <;> exact hkeeps, trivial⟩

/-! ## Clauses -/

section

variable {file : ModuleFile}

theorem bindImport_records (source : StringLiteral) (specifiers : List ImportSpecifier) :
    RecordsIn index spot x (bindImport file x source specifiers)
      (spot.holding (importPieces file source specifiers)) := by
  unfold bindImport importPieces
  rcases file.dependency? source with _ | g
  · exact fun _ => .done fun _ => trivial
  · have hone : ∀ specifier (index' : Index), RecordsIn index' spot x
        (addImport x (importBinding g specifier).1 (importBinding g specifier).2)
        [(spot, .imports (importBinding g specifier).1 (importBinding g specifier).2)] :=
      fun specifier index' hat => .single rfl (.addImport hat _ _)
    have hall : RecordsIn index spot x _ _ := forM_records specifiers hone
    rw [← List.map_eq_flatMap] at hall
    rwa [Spot.holding, List.map_map]

theorem bindExportEntry_records (hx : index.HasScope x) (source : Option ModuleId)
    (specifier : ExportSpecifier) :
    Records index (bindExportEntry x source specifier) [] fun _ _ => True := by
  cases specifier with
  | named original exported => cases source <;> exact addExport_records hx _
  | all exported =>
    cases source with
    | none => exact .done fun _ => trivial
    | some g => exact addExport_records hx _

theorem bindExportClause_records (item : ItemKind) :
    RecordsIn index spot x (bindExportClause file x item) [] := by
  have hentries : ∀ (source : Option ModuleId) (entries : List ExportSpecifier),
      RecordsIn index spot x (entries.forM (bindExportEntry x source)) [] := by
    intro source entries
    exact forM_quietly entries fun entry index' hat =>
      bindExportEntry_records hat.hasScope source entry
  unfold bindExportClause
  split
  · exact hentries none _
  · split
    · exact hentries _ _
    · exact fun _ => .done fun _ => trivial
  · split
    · exact fun hat => .single rfl (.quiet (.addStarExport hat.hasScope _ trivial)
        (keeps_modifyScope hat.hasScope fun _ => rfl))
    · exact fun _ => .done fun _ => trivial
  · exact fun _ => .done fun _ => trivial

/-! ## Items -/

omit file in
/-- The body of a namespace is bound in the scope of its own spot. -/
theorem enter_records (hat : index.At spot x) (namespaceName : NamespaceName) :
    Records index (enter x exported namespaceName) [] fun index' inner =>
      index'.At (spot.within namespaceName) inner := by
  cases namespaceName with
  | identifier name => exact namespaceScope_records hat
  | string name =>
    refine fun hbound => ?_
    have hrecords : Records index (newScope (some name) (some x)) [] _ := newScope_records hat
    obtain ⟨hgains, hinner, hname, hparent⟩ := hrecords hbound
    exact ⟨hgains, .enter hinner hname hparent (hgains.changes.at hat)⟩
  | global => exact .done fun hbound => hbound.at_global

/-- What an act writes in its spot. -/
def Act.writes (file : ModuleFile) (spot : Spot) : Act → List (Spot × Piece)
  | .function _ _ _ definition => spot.holding definition.pieces
  | .declarator _ _ written => spot.holding written.pieces
  | .nominal name _ => [(spot, .declares name .nominal)]
  | .typeAlias name type _ => [(spot, .declares name (.typeAlias type))]
  | .interface name members _ => [(spot, .declares name (.interface [members]))]
  | .imports source specifiers => spot.holding (importPieces file source specifiers)
  | .classView .. | .exportDefault _ | .clause _ => []

theorem act_records (act : Act) : RecordsIn index spot x (act.bind file x) (act.writes file spot) := by
  intro hat
  cases act with
  | function _ _ _ definition => exact ((recordingView spot x).function definition index hat).bind_pure
  | declarator aliases exported written =>
    exact ((recordingView spot x).variableDecl exported aliases written index hat).bind_pure
  | classView name members exported leading =>
    exact (classView_records name members exported leading).bind_pure
  | nominal => exact (declare_records rfl (fun _ _ _ _ => rfl) hat).bind_pure
  | typeAlias => exact (declare_records rfl (fun _ _ _ _ => rfl) hat).bind_pure
  | interface _ members => exact (declareInterface_records members hat).bind_pure
  | exportDefault => exact (addExport_records hat.hasScope _).bind_pure
  | imports source specifiers => exact (bindImport_records source specifiers hat).bind_pure
  | clause kind => exact (bindExportClause_records kind hat).bind_pure

omit file in
/-- What is bound at any spot records what is written there. -/
def recording : Judgement where
  Account := Spot → List (Spot × Piece)
  Holds x _ step _ written := ∀ {index spot}, RecordsIn index spot x step (written spot)
  nothing _ := []
  both written written' spot := written spot ++ written' spot
  within name _ written spot := written (spot.within name)
  holds_nothing _ := .done fun _ => trivial
  holds_both h h' _ _ hat := (h hat).bind fun _ _ hgains _ => (h' (hgains.changes.at hat)).bind_pure
  holds_within h _ _ hat :=
    (enter_records hat _).quietly fun _ inner _ hinner => (h inner inner hinner).bind_pure

theorem writes_of_decl {aliases : List (String × String)} {leading : List Comment} {decl : Decl}
    {acts : List Act} (h : decl.acts? aliases exported leading = some acts) (spot : Spot) :
    acts.flatMap (Act.writes file spot) = decl.writes file spot := by
  cases decl with
  | «variables» declarators =>
    cases h
    rw [List.flatMap_map, Decl.writes, Spot.holding_flatMap]
    rfl
  | namespaceDecl => cases h
  | _ =>
    cases h
    simp [Act.writes, Decl.writes]

theorem writes_of_item {item : Item} {acts : List Act} (h : item.acts? = some acts) (spot : Spot) :
    acts.flatMap (Act.writes file spot) = item.writes file spot := by
  obtain ⟨leading, kind⟩ := item
  cases kind with
  | declaration | exportDecl => cases h
  | exportDefaultClass name => cases name <;> cases h <;> simp [Act.writes, Item.writes]
  | exportDefaultExpr value => cases value <;> cases h <;> simp [Act.writes, Item.writes]
  | _ =>
    cases h
    simp [Act.writes, Item.writes]

def recordingLedger (file : ModuleFile) : recording.Ledger file file where
  ofAct act spot := act.writes file spot
  ofDecl _ _ _ decl spot := decl.writes file spot
  ofBody body spot := body.writes file spot
  ofItems _ items spot := writesAll file spot items
  ofItem _ item spot := item.writes file spot
  act act _ _ _ _ := act_records act
  decl_acts h := .of_eq (funext fun spot =>
    (Judgement.foldr_append_at _ _ spot).trans (writes_of_decl h spot))
  decl_namespaceDecl := .of_eq (funext fun _ => by rw [Decl.writes]; rfl)
  body_absent := .of_eq (funext fun _ => by rw [NamespaceBody.writes]; rfl)
  body_nested := .of_eq (funext fun _ => by rw [NamespaceBody.writes]; rfl)
  body_items := .of_eq (funext fun spot => by
    have hclauses : ∀ items : List Item, (clauseActs items).flatMap (Act.writes file spot) = [] := by
      simp [clauseActs, Act.writes]
    rw [NamespaceBody.writes, ← List.nil_append (writesAll ..), ← hclauses]
    exact congrArg (· ++ _) (Judgement.foldr_append_at _ _ spot))
  items_nil := .of_eq (funext fun _ => by rw [writesAll]; rfl)
  items_cons := .of_eq (funext fun _ => by rw [writesAll]; rfl)
  item_acts h := .of_eq (funext fun spot =>
    (Judgement.foldr_append_at _ _ spot).trans (writes_of_item h spot))
  item_declaration := .of_eq (funext fun _ => by rw [Item.writes])
  item_exportDecl := .of_eq (funext fun _ => by rw [Item.writes])

theorem bindBody_records (body : NamespaceBody) :
    RecordsIn index spot x (bindBody file x body) (body.writes file spot) :=
  (recordingLedger file).bindBody body x x

end

/-! ## Programs -/

/-- Files are bound one after the other, each into the scope of its module. -/
theorem mapM_bindEntry_records (own : ModuleId → ScopeId) (entries : List (ModuleId × ModuleFile))
    (h : ∀ entry ∈ entries, index.HasModule entry.1 ∧ index.moduleScope entry.1 = own entry.1 ∧
      index.At (.top (own entry.1)) (own entry.1)) :
    Records index (entries.mapM bindEntry) (entries.flatMap fun entry => entry.2.writes (own entry.1))
      fun _ _ => True := by
  induction entries generalizing index with
  | nil => exact .done fun _ => trivial
  | cons entry rest ih =>
    obtain ⟨⟨hmodule, hown, hat⟩, hrest⟩ := List.forall_mem_cons.1 h
    have hentry : Records index (bindEntry entry) (entry.2.writes (own entry.1)) fun _ _ => True := by
      refine .get_bind (Records.bind_pure (Q := fun _ _ => True) ?_)
      rw [hown]
      exact bindBody_records (.items entry.2.tree.items) hat
    rw [List.mapM_cons, List.flatMap_cons]
    refine hentry.bind fun index' _ hgains _ => ?_
    refine (ih fun other hother => ?_).bind_pure
    obtain ⟨hmodule', hown', hat'⟩ := hrest other hother
    exact ⟨Nat.lt_of_lt_of_le hmodule' hgains.changes.modulesSize,
      (hgains.changes.moduleScope_eq hmodule').trans hown', hgains.changes.at hat'⟩

end Binding

namespace Modules

open Binding

variable {modules : Modules}

/-- A file that is bound keeps the scope it was given. -/
theorem moduleScope_bound {entry : ModuleId × ModuleFile} (h : entry ∈ modules.bound) :
    modules.unbound.HasModule entry.1 ∧
      modules.bind.2.moduleScope entry.1 = modules.unbound.moduleScope entry.1 := by
  have hmodule : modules.unbound.HasModule entry.1 := by
    rw [HasModule, modules.unbound_modulesSize]
    exact lt_size_of_getElem? (exists_of_mem_bound h)
  exact ⟨hmodule, (bound_changes modules.within_true).moduleScope_eq hmodule⟩

/-- The scope of a module stands in no other, before any file is bound. -/
theorem at_unbound (modules : Modules) (g : ModuleId) :
    modules.unbound.At (.top (modules.unbound.moduleScope g)) (modules.unbound.moduleScope g) := by
  refine .top (modules.unbound_nested.moduleScope_lt g) ?_
  rw [modules.unbound_bare.scopes]
  rfl

/-- What binding the files adds. -/
theorem bind_gains (modules : Modules) : Gains modules.unbound modules.bind.2
    (modules.bound.flatMap fun entry => entry.2.writes (modules.bind.2.moduleScope entry.1)) := by
  have hbound : Bound (fun _ => True) modules.unbound := (unbound_changes modules).bound (.empty _)
  refine (mapM_bindEntry_records modules.bind.2.moduleScope modules.bound
    (fun entry hentry => ?_) hbound).1
  obtain ⟨hmodule, hscope⟩ := moduleScope_bound hentry
  refine ⟨hmodule, hscope.symm, ?_⟩
  rw [hscope]
  exact modules.at_unbound entry.1

/-- Nothing is kept before the first file is bound. -/
theorem unbound_keeps (modules : Modules) (x : ScopeId) (piece : Piece) :
    ¬ modules.unbound.Keeps x piece := by
  have hbare := modules.unbound_bare
  cases piece with
  | type => simp [Index.Keeps, hbare.typeSites]
  | body => simp [Index.Keeps, hbare.functionSites]
  | declares => simp [Index.Keeps, hbare.decls]
  | imports => simp [Index.Keeps, hbare.scopes, Scope.empty]

/-- A program keeps just what its files write, each piece with the scope of a spot where it is written;
of a declaration there may be another one instead. -/
theorem kept_iff_written (modules : Modules) :
    (∀ x piece, modules.bind.2.Keeps x piece → ∃ entry ∈ modules.bound, ∃ spot,
      (spot, piece) ∈ entry.2.writes (modules.bind.2.moduleScope entry.1) ∧ modules.bind.2.At spot x) ∧
    ∀ entry ∈ modules.bound, ∀ spot piece,
      (spot, piece) ∈ entry.2.writes (modules.bind.2.moduleScope entry.1) →
        ∃ x, modules.bind.2.At spot x ∧ (modules.bind.2.Keeps x piece ∨ modules.bind.2.GivesUp x piece) := by
  have hgains := modules.bind_gains
  refine ⟨fun x piece hkeeps => ?_, fun entry hentry spot piece hmem => ?_⟩
  · rcases hgains.sound x piece hkeeps with hold | ⟨spot, hmem, hat⟩
    · exact absurd hold (modules.unbound_keeps x piece)
    · obtain ⟨entry, hentry, hmem⟩ := List.mem_flatMap.1 hmem
      exact ⟨entry, hentry, spot, hmem, hat⟩
  · exact hgains.complete spot piece (List.mem_flatMap.2 ⟨entry, hentry, hmem⟩)

end Modules

end ComponentSchema
