import ComponentSchema.Proofs.Rewriting.ItemInterchange

/-!
# Declarations that are merged

The declarations of an interface in a scope make one interface, with the members of all of them, and the
blocks of a namespace share a scope. So it does not matter into how many declarations or blocks a source
divides them.

Results.
* `Binding.namespaceScope_again`: a namespace is found again, and nothing changes by that.
* `NamespaceBody.Divided.together`: by induction on a dotted name.
* `documentFiles_merged`: programs whose files divide interfaces and namespaces in another way
  have the same document.
-/
namespace ComponentSchema

open Syntax Relation Index Binding

/-! ## Pieces of a declaration -/

/-- How a declaration is exported: not at all, under its name, or as the default export. -/
inductive ExportStatus where
  | none | named | default
  deriving DecidableEq, Repr

/-- The declaration of an interface. -/
def Syntax.ItemKind.interface (name : String) (members : List TypeMember) : ExportStatus → ItemKind
  | .none => .declaration (.interface name members)
  | .named => .exportDecl (.interface name members)
  | .default => .exportDefaultInterface name members

/-- A block of a namespace. -/
def Syntax.ItemKind.block (name : String) (body : NamespaceBody) : Bool → ItemKind
  | false => .declaration (.namespaceDecl (.identifier name) body)
  | true => .exportDecl (.namespaceDecl (.identifier name) body)

/-- The items of a body without export clauses, divided in order between two bodies. -/
inductive Syntax.NamespaceBody.Divided : NamespaceBody → NamespaceBody → NamespaceBody → Prop
  | items {items others : List Item} (h : ∀ item ∈ items ++ others, item.isClause = false) :
    Divided (.items (items ++ others)) (.items items) (.items others)
  | nested {name : String} {body first second : NamespaceBody} (h : Divided body first second) :
    Divided (.nested name body) (.nested name first) (.nested name second)

/-- Two declarations or blocks take the place of one. -/
inductive Merged (spot : Spot) : List Item → List Item → Prop
  /-- Two declarations of an interface, with no declaration of that name between them. -/
  | interface (before : List Item) (leading leading' : List Comment) (status : ExportStatus)
    (name : String) (members more : List TypeMember) (between after : List Item)
    (h : ∀ item ∈ between, (spot, .declares name) ∉ item.notes spot) :
    Merged spot
      (before ++ ((⟨leading, .interface name members status⟩ ::
        (between ++ [⟨leading', .interface name more status⟩])) ++ after))
      (before ++ ((⟨leading, .interface name (members ++ more) status⟩ :: between) ++ after))
  /-- Two blocks of a namespace, one right after the other. -/
  | block (before : List Item) (leading leading' : List Comment) (exported : Bool) (name : String)
    {body first second : NamespaceBody} (after : List Item) (h : body.Divided first second) :
    Merged spot
      (before ++ ([⟨leading, .block name first exported⟩, ⟨leading', .block name second exported⟩] ++ after))
      (before ++ ([⟨leading, .block name body exported⟩] ++ after))

/-! ## Interfaces -/

section

variable {spot : Spot} {name : String} {status : ExportStatus}

/-- What is exported together with an interface. -/
def ExportStatus.additions (name : String) : ExportStatus → List Addition
  | .none => []
  | .named => [.exports name (.own name)]
  | .default => [.exports defaultExportName (.own name)]

theorem additions?_interface (leading : List Comment) (name : String) (members : List TypeMember)
    (status : ExportStatus) :
    Item.additions? ⟨leading, .interface name members status⟩ =
      some (.declares name (.interface [members]) :: status.additions name) := by
  cases status <;> rfl

theorem notes_interface (leading : List Comment) (members : List TypeMember) :
    (Item.mk leading (.interface name members status)).isClause = false ∧
      (ItemKind.interface name members status).source? = Option.none := by
  cases status <;> exact ⟨rfl, rfl⟩

theorem isModuleItem_interface (name : String) (status : ExportStatus) (members members' : List TypeMember) :
    (ItemKind.interface name members status).isModuleItem =
      (ItemKind.interface name members' status).isModuleItem := by
  cases status <;> rfl

end

namespace Index

variable {M : ModuleId → Prop} {index index' : Index} {x : ScopeId} {exported : String}

/-- What is exported stays exported. -/
theorem Change.exports_isSome (hchange : Change M index index') (x : ScopeId)
    (h : ((index.scope x).exports.lookup exported).isSome) :
    ((index'.scope x).exports.lookup exported).isSome := by
  have hmodified : ∀ {y : ScopeId} {change : Scope → Scope}, index.HasScope y →
      (∀ data, (data.exports.lookup exported).isSome → ((change data).exports.lookup exported).isSome) →
        (((index.modifyScope y change).scope x).exports.lookup exported).isSome := by
    intro y change hy hkeep
    rw [scope_modify index x change hy]
    split
    · rename_i hxy
      exact hkeep _ (hxy ▸ h)
    · exact h
  cases hchange with
  | newScope =>
    rw [scope_push]
    split
    · rename_i hx
      have hnone : index.scope x = Scope.empty none none := by simp [Index.scope, hx]
      rw [hnone] at h
      cases h
    · exact h
  | moduleScope | addBody | typeSite | functionSite | classSite => exact h
  | addNamespace hy | addImport hy | addStarExport hy => exact hmodified hy fun _ => id
  | declare hy => exact hmodified hy fun _ => id
  | addExport hy name =>
    refine hmodified hy fun data hdata => ?_
    split
    · exact hdata
    · rw [List.lookup_cons]
      cases exported == name with
      | true => rfl
      | false => exact hdata

theorem Changes.exports_isSome (hchanges : Changes M index index') (x : ScopeId)
    (h : ((index.scope x).exports.lookup exported).isSome) :
    ((index'.scope x).exports.lookup exported).isSome := by
  induction hchanges with
  | refl => exact h
  | tail _ hchange ih => exact hchange.exports_isSome x ih

end Index

/-- What was exported together with an interface is not exported once more. -/
theorem Contents.addAll_status {contents : Contents} {y : ScopeId} {name : String} {status : ExportStatus}
    (h : ∀ exported binding, .exports exported binding ∈ status.additions name →
      (contents.exported y exported).isSome) :
    contents.addAll y (status.additions name) = contents := by
  cases status with
  | none => rfl
  | named | default => exact Contents.add_exported (h _ _ (.head _)) _

theorem Contents.addAll_exported (contents : Contents) (y : ScopeId) {name : String}
    {status : ExportStatus} {exported : String} {binding : ExportBinding}
    (h : .exports exported binding ∈ status.additions name) :
    ((contents.addAll y (status.additions name)).exported y exported).isSome := by
  cases status with
  | none => cases h
  | named | default =>
    obtain ⟨rfl, rfl⟩ := Addition.exports.inj (List.mem_singleton.1 h)
    simp [ExportStatus.additions, Contents.add]

theorem status_apart {x y : ScopeId} {name other : String} {kind : TypeDeclKind} {status : ExportStatus}
    {entry : Addition} (h : entry ∈ status.additions name) : entry.Apart x y (.declares other kind) := by
  cases status with
  | none => cases h
  | named | default =>
    obtain rfl := List.mem_singleton.1 h
    trivial

section

variable {spot : Spot} {y : ScopeId} {name : String} {status : ExportStatus} {index₁ index₂ : Index}
  {first second whole : Binding Unit} {members more : List TypeMember}

/-- After the first part of an interface the one index is behind the other by the second part. -/
theorem Index.Ahead.divide (h : Ahead spot y [] index₁ index₂)
    (hfirst : ∀ index, Plays index y first
      (.declares name (.interface [members]) :: status.additions name))
    (hwhole : ∀ index, Plays index y whole
      (.declares name (.interface [members ++ more]) :: status.additions name)) :
    Ahead spot y [.declares name (.interface [more])] (first.run index₁).2 (whole.run index₂).2 ∧
      Continues index₁ (first.run index₁).2 ∧ ∀ exported binding,
        .exports exported binding ∈ status.additions name →
          (((first.run index₁).2.scope y).exports.lookup exported).isSome := by
  have hy := h.stands.hasScope
  obtain ⟨hchanges₁, hframe₁, hcontents₁⟩ := hfirst index₁ h.bound₁ hy
  obtain ⟨hchanges₂, hframe₂, hcontents₂⟩ := hwhole index₂ h.bound₂ (h.frame.hasScope hy)
  refine ⟨⟨hchanges₁.bound h.bound₁, hchanges₂.bound h.bound₂,
    (hframe₁.symm.trans h.frame).trans hframe₂, ?_, hchanges₁.at h.stands⟩,
    .of_sameFrame hchanges₁ hframe₁, fun exported binding hmem => ?_⟩
  · rw [hcontents₁, hcontents₂, h.contents, Contents.addAll_nil, Contents.addAll_cons,
      Contents.addAll_cons, Contents.addAll_cons, Contents.addAll_nil, ← Contents.add_interface,
      Contents.addAll_add_comm fun _ => status_apart]
  · have hsome := Contents.addAll_exported (index₁.contents.add y
      (.declares name (.interface [members]))) y hmem
    rw [← Contents.addAll_cons, ← hcontents₁] at hsome
    exact hsome

/-- The second part of an interface makes up for it, where its name is exported already. -/
theorem Index.Ahead.makeUp (h : Ahead spot y [.declares name (.interface [more])] index₁ index₂)
    (hsecond : ∀ index, Plays index y second
      (.declares name (.interface [more]) :: status.additions name))
    (hexported : ∀ exported binding, .exports exported binding ∈ status.additions name →
      ((index₁.scope y).exports.lookup exported).isSome) :
    Ahead spot y [] (second.run index₁).2 index₂ ∧ Continues index₁ (second.run index₁).2 := by
  obtain ⟨hchanges, hframe, hcontents⟩ := hsecond index₁ h.bound₁ h.stands.hasScope
  refine ⟨⟨hchanges.bound h.bound₁, h.bound₂, hframe.symm.trans h.frame, ?_, hchanges.at h.stands⟩,
    .of_sameFrame hchanges hframe⟩
  rw [hcontents, h.contents, Contents.addAll_nil, Contents.addAll_cons, Contents.addAll_cons,
    Contents.addAll_nil, ← Contents.addAll_add_comm fun _ => status_apart,
    Contents.addAll_status hexported]

end

/-- Two declarations of an interface may be written as one. -/
theorem interchangeable_interface {spot : Spot} (leading leading' : List Comment) (status : ExportStatus)
    (name : String) (members more : List TypeMember) {between : List Item}
    (h : ∀ item ∈ between, (spot, .declares name) ∉ item.notes spot) :
    Interchangeable spot
      (⟨leading, .interface name members status⟩ ::
        (between ++ [⟨leading', .interface name more status⟩]))
      (⟨leading, .interface name (members ++ more) status⟩ :: between) where
  clauses := by
    simp [List.filter_append, (notes_interface _ _).1]
  sources := by
    simp [List.filterMap_append, (notes_interface leading _).2]
  isScript := by
    rw [List.all_cons, List.all_append, List.all_cons, List.all_nil, List.all_cons, Bool.and_true,
      isModuleItem_interface name status members (members ++ more),
      isModuleItem_interface name status more (members ++ more), Bool.and_comm (between.all _),
      ← Bool.and_assoc, Bool.and_self]
  binding {file file'} hfile aliases index₁ index₂ y hat := by
    obtain ⟨first, hfirst, hfirstPlays⟩ := bindItem_plays file aliases y
      (additions?_interface leading name members status)
    obtain ⟨second, hsecond, hsecondPlays⟩ := bindItem_plays file aliases y
      (additions?_interface leading' name more status)
    obtain ⟨whole, hwhole, hwholePlays⟩ := bindItem_plays file' aliases y
      (additions?_interface leading name (members ++ more) status)
    have hfree : Undisturbed spot [.declares name (.interface [more])] (notesAll spot between) := by
      rintro ⟨_, note⟩ hnote rfl entry hentry
      obtain rfl := List.mem_singleton.1 hentry
      obtain ⟨item, hitem, hnoted⟩ := mem_notesAll.1 hnote
      cases note with
      | declares other =>
        rintro rfl
        exact h item hitem hnoted
      | exports => trivial
    simp only [bindItems, bindItems_append, hfirst, hsecond, hwhole, bind_assoc, pure_bind,
      List.nil_append, List.append_nil]
    intro hahead
    obtain ⟨hdivided, hcontinues₁, hexported⟩ := hahead.divide hfirstPlays hwholePlays
    obtain ⟨hcarried, hcontinues₂, heq⟩ :=
      bindItems_carries hfile between aliases hdivided.stands hfree hdivided
    obtain ⟨hresembles, hcontinues₃⟩ := hcarried.makeUp hsecondPlays fun exported binding hmem =>
      hcontinues₂.changes.exports_isSome y (hexported exported binding hmem)
    exact ⟨hresembles, (hcontinues₁.trans hcontinues₂).trans hcontinues₃, heq ▸ .refl _⟩

/-! ## Namespaces -/

section

variable {file : ModuleFile} {spot : Spot} {index index' : Index} {y : ScopeId} {name : String}
  {exported : Bool}

/-- A change that leaves a scope as it is. -/
theorem Index.modifyScope_same {change : Scope → Scope} (hy : index.HasScope y)
    (h : change (index.scope y) = index.scope y) : index.modifyScope y change = index := by
  have hscopes : index.scopes.modify y.index change = index.scopes := by
    refine Array.ext_getElem? fun i => ?_
    rw [Array.getElem?_modify]
    split
    · rename_i hi
      subst hi
      have hsome : index.scopes[y.index]? = some (index.scope y) := by
        simp [Index.scope, Array.getElem?_eq_getElem hy]
      rw [hsome, Option.map_some, h]
    · rfl
  rw [Index.modifyScope, hscopes]

/-- A name that is exported already is not exported once more. -/
theorem Binding.exportIf_again (hy : index.HasScope y)
    (h : exported = true → ((index.scope y).exports.lookup name).isSome) :
    (exportIf exported y name).run index = ((), index) := by
  cases exported with
  | false => rfl
  | true =>
    obtain ⟨binding, hbinding⟩ := Option.isSome_iff_exists.1 (h rfl)
    refine Prod.ext rfl (modifyScope_same hy ?_)
    rw [hbinding]

/-- A name that is exported is found among the exports. -/
theorem Binding.exportIf_exports (name : String) (hy : index.HasScope y) (h : exported = true) :
    ((((exportIf exported y name).run index).2.scope y).exports.lookup name).isSome := by
  subst h
  have hscope : ((exportIf true y name).run index).2.scope y = _ :=
    (scope_modify index y _ hy).trans (if_pos rfl)
  rw [hscope]
  rcases hlook : (index.scope y).exports.lookup name with _ | binding
  · simp
  · simp [hlook]

/-- The scope of a namespace is the one that is entered, or else a new one. -/
theorem Binding.namespaceScope_run (y : ScopeId) (name : String) (exported : Bool) (index : Index) :
    (namespaceScope y name exported).run index =
      match (((exportIf exported y name).run index).2.scope y).namespaces.lookup name with
      | some inner => (inner, ((exportIf exported y name).run index).2)
      | none =>
        let made := ((exportIf exported y name).run index).2
        (⟨made.scopes.size⟩, (made.pushScope (Scope.empty (some name) (some y))).modifyScope y fun data =>
          { data with namespaces := (name, ⟨made.scopes.size⟩) :: data.namespaces }) := by
  have hrun : (namespaceScope y name exported).run index = ((do
      match ((← get).scope y).namespaces.lookup name with
      | some scope => pure scope
      | none =>
        let scope ← newScope (some name) (some y)
        modifyScope y fun data => { data with namespaces := (name, scope) :: data.namespaces }
        pure scope) : Binding ScopeId).run ((exportIf exported y name).run index).2 := rfl
  rw [hrun]
  generalize ((exportIf exported y name).run index).2 = made
  show StateT.run (match (made.scope y).namespaces.lookup name with
    | some scope => pure scope
    | none => do
      let scope ← newScope (some name) (some y)
      modifyScope y fun data => { data with namespaces := (name, scope) :: data.namespaces }
      pure scope) made = _
  cases (made.scope y).namespaces.lookup name <;> rfl

/-- A namespace that has its scope is entered under its name, and exported if it is to be. -/
theorem Binding.namespaceScope_enters (name : String) (exported : Bool)
    (hbound : Bound (fun _ => True) index)
    (hy : index.HasScope y) :
    (((namespaceScope y name exported).run index).2.scope y).namespaces.lookup name =
        some ((namespaceScope y name exported).run index).1 ∧
      (exported = true →
        ((((namespaceScope y name exported).run index).2.scope y).exports.lookup name).isSome) := by
  have hplays : Plays index y (exportIf exported y name) _ := exportIf_plays
  have hmade := (hplays hbound hy).2.1.hasScope hy
  have hexports : exported = true → _ := exportIf_exports name hy
  rw [namespaceScope_run]
  generalize ((exportIf exported y name).run index).2 = made at hmade hexports ⊢
  rcases hlook : (made.scope y).namespaces.lookup name with _ | inner
  · have hy' : (made.pushScope (Scope.empty (some name) (some y))).HasScope y := by
      simpa [HasScope] using Nat.lt_succ_of_lt hmade
    dsimp only
    rw [scope_modify _ y _ hy', if_pos rfl, scope_push, if_neg (Nat.ne_of_lt hmade)]
    exact ⟨List.lookup_cons_self, hexports⟩
  · dsimp only
    exact ⟨hlook, hexports⟩

/-- Once a namespace has a scope it is found again, and nothing changes by that. -/
theorem Binding.namespaceScope_again (name : String) (exported : Bool)
    (hbound : Bound (fun _ => True) index) (hy : index.HasScope y)
    (hcontinues : Continues ((namespaceScope y name exported).run index).2 index')
    (hy' : index'.HasScope y) : (namespaceScope y name exported).run index' =
      (((namespaceScope y name exported).run index).1, index') := by
  obtain ⟨hentered, hexported⟩ := namespaceScope_enters name exported hbound hy
  have hagain : (exportIf exported y name).run index' = _ := exportIf_again hy' fun h =>
    hcontinues.changes.exports_isSome y (hexported h)
  rw [namespaceScope_run, hagain, hcontinues.namespaces hentered]

/-! ## Blocks -/

/-- A body without export clauses is bound item by item. -/
theorem Binding.bindBody_items {items : List Item} (h : ∀ item ∈ items, item.isClause = false)
    (y : ScopeId) : bindBody file y (.items items) = bindItems file [] y items := by
  have hnone : items.filter Item.isClause = [] :=
    List.filter_eq_nil_iff.2 fun item hitem => by simp [h item hitem]
  simp only [bindBody]
  rw [forM_clauses, exportAliases_clauses, hnone]
  rfl

/-- Two steps of binding that do together what a third one does, up to the views they answer with. -/
def Together (index : Index) (first second whole : Binding (List Declaration)) : Prop :=
  (second.run (first.run index).2).2 = (whole.run index).2 ∧
    AlikeViews ((first.run index).1 ++ (second.run (first.run index).2).1) (whole.run index).1

/-- They do so on an index that resembles another one. -/
theorem Together.carries {index₁ index₂ : Index} {first second whole whole' : Binding (List Declaration)}
    (h : Together index₁ first second whole)
    (hwhole : Carries spot y [] index₁ index₂ whole whole' fun _ => AlikeViews) :
    Carries spot y [] index₁ index₂ (do
      let views ← first
      let others ← second
      pure (views ++ others)) whole' fun _ => AlikeViews := by
  intro hahead
  obtain ⟨hresembles, hcontinues, hviews⟩ := hwhole hahead
  obtain ⟨hstate, htogether⟩ := h
  rw [← hstate] at hresembles hcontinues
  exact ⟨hresembles, hcontinues, htogether.trans hviews⟩

/-- What is bound for a block of a namespace. -/
def Binding.bindBlock (file : ModuleFile) (y : ScopeId) (name : String) (exported : Bool)
    (body : NamespaceBody) : Binding (List Declaration) := do
  let inner ← namespaceScope y name exported
  let declarations ← bindBody file inner body
  pure [.namespaceDecl name exported declarations]

theorem Binding.bindBlock_run {inner : ScopeId} {body : NamespaceBody}
    (h : (namespaceScope y name exported).run index = (inner, index')) :
    (bindBlock file y name exported body).run index =
      ([.namespaceDecl name exported ((bindBody file inner body).run index').1],
        ((bindBody file inner body).run index').2) := by
  rw [bindBlock, StateT.run_bind, h]
  rfl

/-- Binding a body leaves the namespaces as they are. -/
theorem Binding.bindBody_continues (file : ModuleFile) (body : NamespaceBody)
    (hbound : Bound (fun _ => True) index) (hat : index.At spot y) :
    Continues index ((bindBody file y body).run index).2 :=
  (bindBody_carries (fun _ => rfl) body hat (undisturbed_nil spot _) (.refl hbound hat)).2.1

/-- Two blocks of a namespace whose bodies do together what the body of a third one does. -/
theorem Binding.bindBlock_together {body first second : NamespaceBody}
    (hbound : Bound (fun _ => True) index) (hat : index.At spot y)
    (h : ∀ {index : Index} {inner : ScopeId}, Bound (fun _ => True) index →
      index.At (spot.enter name) inner →
        Together index (bindBody file inner first) (bindBody file inner second) (bindBody file inner body)) :
    Together index (bindBlock file y name exported first) (bindBlock file y name exported second)
      (bindBlock file y name exported body) := by
  have hentering : Carries spot y [] index index (namespaceScope y name exported)
      (namespaceScope y name exported) _ := namespaceScope_carries hat (undisturbed_nil spot _)
  obtain ⟨hentered, hcontinues, -, hinner⟩ := hentering (.refl hbound hat)
  have hcontinues' := bindBody_continues file first hentered.bound₁ hinner
  have hagain := namespaceScope_again name exported hbound hat.hasScope hcontinues'
    (hcontinues'.hasScope (hcontinues.hasScope hat.hasScope))
  obtain ⟨hstate, hviews⟩ := h hentered.bound₁ hinner
  generalize hentering : (namespaceScope y name exported).run index = entering at hagain hstate hviews
  obtain ⟨inner, index'⟩ := entering
  unfold Together
  rw [bindBlock_run hentering, bindBlock_run hentering, bindBlock_run hagain]
  exact ⟨hstate, (AlikeViews.merge name exported _ _).trans (hviews.namespaceDecl name exported)⟩

/-- The bodies that a body is divided into. -/
theorem Syntax.NamespaceBody.Divided.together {body first second : NamespaceBody}
    (h : body.Divided first second) (hbound : Bound (fun _ => True) index) (hat : index.At spot y) :
    Together index (bindBody file y first) (bindBody file y second) (bindBody file y body) := by
  induction h generalizing index spot y with
  | items hclauses =>
    obtain ⟨hfirst, hsecond⟩ := List.forall_mem_append.1 hclauses
    rw [bindBody_items hclauses, bindBody_items hfirst, bindBody_items hsecond, bindItems_append]
    exact ⟨rfl, .refl _⟩
  | nested _ ih =>
    simp only [bindBody]
    exact bindBlock_together hbound hat fun hbound hat => ih hbound hat

end

theorem block_same (leading : List Comment) (name : String) (body : NamespaceBody) (exported : Bool) :
    (Item.mk leading (.block name body exported)).isClause = false ∧
      (ItemKind.block name body exported).source? = none ∧
      (ItemKind.block name body exported).isModuleItem = exported := by
  cases exported <;> exact ⟨rfl, rfl, rfl⟩

theorem bindItem_block {file : ModuleFile} {aliases : List (String × String)} {y : ScopeId}
    (leading : List Comment) (name : String) (body : NamespaceBody) (exported : Bool) :
    bindItem file aliases y ⟨leading, .block name body exported⟩ = bindBlock file y name exported body := by
  cases exported <;> simp only [ItemKind.block, bindItem, bindDecl, bindBlock]

/-- Two blocks of a namespace may be written as one. -/
theorem interchangeable_block {spot : Spot} (leading leading' : List Comment) (exported : Bool)
    (name : String) {body first second : NamespaceBody} (h : body.Divided first second) :
    Interchangeable spot
      [⟨leading, .block name first exported⟩, ⟨leading', .block name second exported⟩]
      [⟨leading, .block name body exported⟩] where
  clauses := by simp [(block_same _ _ _ _).1]
  sources := by simp [(block_same leading _ _ _).2.1]
  isScript := by simp [(block_same leading _ _ _).2.2]
  binding {file file'} hfile aliases index₁ index₂ y hat := by
    have hwhole : Carries spot y [] index₁ index₂ _ _ _ := bindItems_resembles hfile aliases
      [⟨leading, .block name body exported⟩] hat
    simp only [bindItems, bindItem_block, pure_bind, List.append_nil, bind_pure] at hwhole ⊢
    refine .of_ahead fun hahead => Together.carries ?_ hwhole
    exact bindBlock_together hahead.bound₁ hat h.together

/-- Pieces of a declaration may take its place. -/
theorem merged_exchanges : Exchanges Merged := by
  rintro spot _ _ (⟨before, leading, leading', status, name, members, more, between, after, h⟩ |
    ⟨before, leading, leading', exported, name, after, h⟩)
  · exact (interchangeable_interface leading leading' status name members more h).within before after
  · exact (interchangeable_block leading leading' exported name h).within before after

/-! ## Programs -/

/-- It does not matter into how many declarations a program divides its interfaces, and into how many
blocks its namespaces. -/
theorem documentFiles_merged {tree tree' : FileTree} (hrooted : tree.IsRooted)
    (h : tree.Rewritten (SourceTree.Exchanged Merged) tree') (roots : List Path) (mode : SchemaMode) :
    documentFiles tree roots mode = documentFiles tree' roots mode :=
  documentFiles_exchanged merged_exchanges hrooted h roots mode

/-- An interface and a namespace in two pieces each. -/
def piecesTree : FileTree where
  entries := [(["a.tsx"], .file ("interface P \x7b a: string \x7d " ++
    "namespace N \x7b export type Q = \x7b b: R \x7d \x7d " ++
    "namespace N \x7b type R = \x7b c: number \x7d \x7d " ++
    "export function A(p: P) \x7b return <a />; \x7d " ++
    "interface P \x7b d: N.Q \x7d"))]
  current := []

/-- The same in one piece. -/
def wholeTree : FileTree where
  entries := [(["a.tsx"], .file ("interface P \x7b a: string; d: N.Q \x7d " ++
    "namespace N \x7b export type Q = \x7b b: R \x7d; type R = \x7b c: number \x7d \x7d " ++
    "export function A(p: P) \x7b return <a />; \x7d"))]
  current := []

/-- The parts of the interface. -/
def interfaceParts : List TypeMember × List TypeMember :=
  ([.property (.identifier "a") false (some (.keyword .string))],
    [.property (.identifier "d") false (some (.reference (.qualified (.ident "N") "Q")))])

/-- The parts of the namespace. -/
def namespaceParts : List Item × List Item :=
  ([⟨[], .exportDecl (.typeAlias "Q"
      (.literal [.property (.identifier "b") false (some (.reference (.ident "R")))]))⟩],
    [⟨[], .declaration (.typeAlias "R"
      (.literal [.property (.identifier "c") false (some (.keyword .number))]))⟩])

/-- The component that the interface belongs to. -/
def mergedComponent : Item :=
  ⟨[], .exportDecl (.function "A" ⟨[⟨some "p", some ⟨.reference (.ident "P"), "P"⟩, none⟩], none,
    some (.block [.returns (some (.jsx []))]), false, false⟩)⟩

/-- The interface is put together before the namespace is. -/
theorem wholeTree_merged (root : ScopeId) : Throughout Merged (.top root)
    [⟨[], .interface "P" interfaceParts.1 .none⟩, ⟨[], .block "N" (.items namespaceParts.1) false⟩,
      ⟨[], .block "N" (.items namespaceParts.2) false⟩, mergedComponent,
      ⟨[], .interface "P" interfaceParts.2 .none⟩]
    [⟨[], .interface "P" (interfaceParts.1 ++ interfaceParts.2) .none⟩,
      ⟨[], .block "N" (.items (namespaceParts.1 ++ namespaceParts.2)) false⟩, mergedComponent] := by
  refine .trans (.here (.interface [] [] [] .none "P" _ _ [⟨[], .block "N" (.items namespaceParts.1) false⟩,
    ⟨[], .block "N" (.items namespaceParts.2) false⟩, mergedComponent] [] ?_)) ?_
  · simp [Item.notes, Decl.notes, ItemKind.block, NamespaceBody.notes, notesAll, namespaceParts,
      mergedComponent, Spot.noting, exportNotes, Spot.top, Spot.enter]
  · exact .here (.block [⟨[], .interface "P" (interfaceParts.1 ++ interfaceParts.2) .none⟩] [] [] false "N"
      [mergedComponent] (.items (by decide)))

set_option maxRecDepth 100000 in
theorem parse_pieces :
    SourceTree.parse (Variant.ofPath "a.tsx") ("interface P \x7b a: string \x7d " ++
      "namespace N \x7b export type Q = \x7b b: R \x7d \x7d " ++
      "namespace N \x7b type R = \x7b c: number \x7d \x7d " ++
      "export function A(p: P) \x7b return <a />; \x7d " ++
      "interface P \x7b d: N.Q \x7d") =
      .ok ⟨[⟨[], .interface "P" interfaceParts.1 .none⟩,
        ⟨[], .block "N" (.items namespaceParts.1) false⟩,
        ⟨[], .block "N" (.items namespaceParts.2) false⟩, mergedComponent,
        ⟨[], .interface "P" interfaceParts.2 .none⟩]⟩ := by
  rfl

set_option maxRecDepth 100000 in
theorem piecesTree_rewritten : piecesTree.Rewritten (SourceTree.Exchanged Merged) wholeTree where
  current := rfl
  entries := by
    have hwhole : SourceTree.parse (Variant.ofPath "a.tsx") ("interface P \x7b a: string; d: N.Q \x7d " ++
        "namespace N \x7b export type Q = \x7b b: R \x7d; type R = \x7b c: number \x7d \x7d " ++
        "export function A(p: P) \x7b return <a />; \x7d") =
        .ok ⟨[⟨[], .interface "P" (interfaceParts.1 ++ interfaceParts.2) .none⟩,
          ⟨[], .block "N" (.items (namespaceParts.1 ++ namespaceParts.2)) false⟩, mergedComponent]⟩ := by
      rfl
    exact .cons ⟨rfl, .source rfl parse_pieces hwhole fun root _ => wholeTree_merged root⟩ .nil

theorem documentFiles_wholeTree :
    piecesTree.IsRooted ∧ piecesTree.Rewritten (SourceTree.Exchanged Merged) wholeTree ∧
      (documentFiles piecesTree [⟨"a.tsx"⟩] .repeated).toOption.map
          (fun document => document.types.map (·.name)) = some ["R", "Q", "P"] ∧
        documentFiles piecesTree [⟨"a.tsx"⟩] .repeated = documentFiles wholeTree [⟨"a.tsx"⟩] .repeated := by
  have hrooted : piecesTree.IsRooted := by decide
  refine ⟨hrooted, piecesTree_rewritten, ?_, ?_⟩
  · rw [documentFiles_alone rfl parse_pieces rfl]
    decide +kernel
  · exact documentFiles_merged hrooted piecesTree_rewritten _ _

end ComponentSchema
