import ComponentSchema.Proofs.Comparison.ReorderedIndex
import ComponentSchema.Proofs.Rewriting.RewrittenFiles

/-!
# Items that take each other's place

Two lists of items are interchangeable at a spot if they hold the same export clauses, and if binding the
one or the other leads from indexes that resemble each other to indexes that do, with the same declarations
visited. Lists that have some lists of theirs exchanged inside them are interchangeable again, however deep
in namespaces, and so are files and programs.

Results.
* `Throughout.interchangeable`: by induction on where lists are exchanged.
* `documentFiles_exchanged`: such programs have the same document.
-/
namespace ComponentSchema

open Syntax Relation Index Binding

/-! ## Lists of items -/

/-- Whether an item is an export clause. -/
def Syntax.Item.isClause (item : Item) : Bool :=
  match item.kind with
  | .exportNamed _ _ | .exportAll _ => true
  | _ => false

namespace Binding

variable {file file' : ModuleFile} {index₁ index₂ : Index} {spot : Spot} {y : ScopeId}

theorem bindExportClause_of_isClause {item : Item} (h : item.isClause = false) (y : ScopeId) :
    bindExportClause file y item.kind = pure () := by
  obtain ⟨leading, kind⟩ := item
  cases kind with
  | exportNamed | exportAll => cases h
  | _ => rfl

/-- Items that are no export clauses are passed over. -/
theorem forM_clauses (items : List Item) (y : ScopeId) :
    (items.forM fun item => bindExportClause file y item.kind) =
      (items.filter Item.isClause).forM fun item => bindExportClause file y item.kind := by
  induction items with
  | nil => rfl
  | cons item rest ih =>
    rw [List.filter_cons]
    cases h : item.isClause with
    | true => exact congrArg (bindExportClause file y item.kind >>= fun _ => ·) ih
    | false =>
      show (bindExportClause file y item.kind >>= fun _ => rest.forM _) = _
      rw [bindExportClause_of_isClause h, pure_bind, ih]
      rfl

theorem exportAliases_clauses (items : List Item) :
    exportAliases items = exportAliases (items.filter Item.isClause) := by
  induction items with
  | nil => rfl
  | cons item rest ih =>
    rw [exportAliases, List.flatMap_cons, ← exportAliases, ih, List.filter_cons]
    obtain ⟨leading, kind⟩ := item
    cases kind with
    | exportNamed | exportAll => rfl
    | _ => rfl

theorem bindItems_append (aliases : List (String × String)) (items others : List Item) :
    bindItems file aliases y (items ++ others) = (do
      let views ← bindItems file aliases y items
      return views ++ (← bindItems file aliases y others)) := by
  induction items with
  | nil => simp [bindItems]
  | cons item rest ih =>
    simp only [List.cons_append, bindItems, ih, bind_assoc, pure_bind, List.append_assoc]

theorem bindItems_singleton (aliases : List (String × String)) (item : Item) :
    bindItems file aliases y [item] = bindItem file aliases y item := by
  simp [bindItems]

/-- Binding the same to indexes that resemble each other. -/
theorem bindItems_resembles (hfile : ∀ source, file.dependency? source = file'.dependency? source)
    (aliases : List (String × String)) (items : List Item) (hat : index₁.At spot y) :
    Carries spot y [] index₁ index₂ (bindItems file aliases y items) (bindItems file' aliases y items)
      fun _ => AlikeViews :=
  (bindItems_carries hfile items aliases hat (undisturbed_nil spot _)).imp
    fun _ _ _ heq => heq ▸ .refl _

/-- From an index that resembles another one, by steps of which the first two and the last two belong
together. -/
theorem Carries.trans {α : Type} {R : α → α → Prop} (hR : ∀ a b c, R a b → R b c → R a c)
    {first second third : Binding α} (hat : index₁.At spot y)
    (h : Carries spot y [] index₁ index₁ first second fun _ => R)
    (h' : Carries spot y [] index₁ index₂ second third fun _ => R) :
    Carries spot y [] index₁ index₂ first third fun _ => R := by
  intro hahead
  obtain ⟨hahead₁, hcontinues, hr⟩ := h (.refl hahead.bound₁ hat)
  obtain ⟨hahead₂, -, hr'⟩ := h' hahead
  exact ⟨(hahead₁.resembles.trans hahead₂.resembles).ahead hahead₁.stands, hcontinues, hR _ _ _ hr hr'⟩

/-- Where nothing is added it does not matter which scope nothing is added to. -/
theorem Carries.elsewhere {α β : Type} {Q : Index → α → β → Prop} {first : Binding α}
    {second : Binding β} {place : Spot} {z : ScopeId} (hat : index₁.At place z)
    (h : Carries place z [] index₁ index₂ first second Q) :
    Carries spot y [] index₁ index₂ first second Q := by
  intro hahead
  obtain ⟨hahead', hcontinues, hq⟩ := h (hahead.resembles.ahead hat)
  exact ⟨hahead'.resembles.ahead (hcontinues.changes.at hahead.stands), hcontinues, hq⟩

end Binding

/-- Lists of items that may take each other's place. -/
structure Interchangeable (spot : Spot) (items items' : List Item) : Prop where
  clauses : items.filter Item.isClause = items'.filter Item.isClause
  sources : items.filterMap (·.kind.source?.bind (·.exact)) =
    items'.filterMap (·.kind.source?.bind (·.exact))
  isScript : items.all (fun item => !item.kind.isModuleItem) =
    items'.all fun item => !item.kind.isModuleItem
  binding : ∀ {file file' : ModuleFile}, (∀ source, file.dependency? source = file'.dependency? source) →
    ∀ (aliases : List (String × String)) {index₁ index₂ : Index} {y : ScopeId}, index₁.At spot y →
      Carries spot y [] index₁ index₂ (bindItems file aliases y items)
        (bindItems file' aliases y items') fun _ => AlikeViews

namespace Interchangeable

variable {spot : Spot} {items items' items'' others others' : List Item}

theorem refl (spot : Spot) (items : List Item) : Interchangeable spot items items :=
  ⟨rfl, rfl, rfl, fun hfile aliases _ _ _ => bindItems_resembles hfile aliases items⟩

theorem trans (h : Interchangeable spot items items') (h' : Interchangeable spot items' items'') :
    Interchangeable spot items items'' where
  clauses := h.clauses.trans h'.clauses
  sources := h.sources.trans h'.sources
  isScript := h.isScript.trans h'.isScript
  binding hfile aliases _ _ _ hat :=
    Carries.trans (R := AlikeViews) (fun _ _ _ => .trans) hat (h.binding (fun _ => rfl) aliases hat)
      (h'.binding hfile aliases hat)

theorem append (h : Interchangeable spot items items') (h' : Interchangeable spot others others') :
    Interchangeable spot (items ++ others) (items' ++ others') where
  clauses := by rw [List.filter_append, List.filter_append, h.clauses, h'.clauses]
  sources := by rw [List.filterMap_append, List.filterMap_append, h.sources, h'.sources]
  isScript := by rw [List.all_append, List.all_append, h.isScript, h'.isScript]
  binding hfile aliases _ _ _ hat := by
    rw [bindItems_append, bindItems_append]
    refine (h.binding hfile aliases hat).bind fun _ _ _ _ hcontinues hviews => ?_
    refine (h'.binding hfile aliases (hcontinues.changes.at hat)).bind fun _ _ _ _ _ hviews' => ?_
    exact .done (hviews.append hviews')

/-- Among other items. -/
theorem within (h : Interchangeable spot items items') (before after : List Item) :
    Interchangeable spot (before ++ (items ++ after)) (before ++ (items' ++ after)) :=
  (refl spot before).append (h.append (refl spot after))

end Interchangeable

/-! ## Bodies and files -/

/-- Bodies of namespaces that may take each other's place. -/
def InterchangeableBodies (spot : Spot) (body body' : NamespaceBody) : Prop :=
  ∀ {file file' : ModuleFile}, (∀ source, file.dependency? source = file'.dependency? source) →
    ∀ {index₁ index₂ : Index} {y : ScopeId}, index₁.At spot y →
      Carries spot y [] index₁ index₂ (bindBody file y body) (bindBody file' y body')
        fun _ => AlikeViews

theorem Interchangeable.bodies {spot : Spot} {items items' : List Item}
    (h : Interchangeable spot items items') :
    InterchangeableBodies spot (.items items) (.items items') := by
  intro file file' hfile index₁ index₂ y hat
  simp only [bindBody]
  rw [forM_clauses items, forM_clauses items', exportAliases_clauses items,
    exportAliases_clauses items', h.clauses]
  refine (forM_carries _ (fun item _ _ => bindExportClause_carries hfile item.kind) hat
    (undisturbed_nil spot _)).bind_eq fun _ _ _ hcontinues => ?_
  exact h.binding hfile _ (hcontinues.changes.at hat)

section

variable {spot : Spot} {name : NamespaceName} {inner : String} {body body' : NamespaceBody}
  {file file' : ModuleFile}

/-- The scope of a namespace is found or made, and both bodies are bound to it. -/
theorem InterchangeableBodies.enter (h : InterchangeableBodies (spot.enter inner) body body')
    (hfile : ∀ source, file.dependency? source = file'.dependency? source) (exported : Bool)
    {index₁ index₂ : Index} {y : ScopeId} (hat : index₁.At spot y) :
    Carries spot y [] index₁ index₂
      (do
        let z ← namespaceScope y inner exported
        let views ← bindBody file z body
        pure [Declaration.namespaceDecl inner exported views])
      (do
        let z ← namespaceScope y inner exported
        let views ← bindBody file' z body'
        pure [Declaration.namespaceDecl inner exported views]) fun _ => AlikeViews := by
  refine (namespaceScope_carries hat (undisturbed_nil spot _)).bind fun _ _ z _ _ ⟨heq, hinner⟩ => ?_
  subst heq
  refine Carries.bind (.elsewhere hinner (h hfile hinner)) fun _ _ _ _ _ hviews => ?_
  exact .done (hviews.namespaceDecl inner exported)

theorem InterchangeableBodies.nested (h : InterchangeableBodies (spot.enter inner) body body') :
    InterchangeableBodies spot (.nested inner body) (.nested inner body') := by
  intro file file' hfile _ _ y hat
  simp only [bindBody]
  exact h.enter hfile true hat

/-- The declarations of namespaces with such bodies. -/
theorem InterchangeableBodies.bindDecl (h : InterchangeableBodies (spot.within name) body body')
    (hfile : ∀ source, file.dependency? source = file'.dependency? source)
    (aliases : List (String × String)) (exported : Bool) (leading : List Comment)
    {index₁ index₂ : Index} {y : ScopeId} (hat : index₁.At spot y) : Carries spot y [] index₁ index₂
      (Binding.bindDecl file aliases y exported leading (.namespaceDecl name body))
      (Binding.bindDecl file' aliases y exported leading (.namespaceDecl name body'))
      fun _ => AlikeViews := by
  cases name with
  | identifier inner =>
    simp only [Binding.bindDecl]
    exact h.enter hfile exported hat
  | string inner =>
    simp only [Binding.bindDecl]
    refine (newScope_carries hat.hasScope).bind fun _ _ z _ hcontinues hz => ?_
    obtain ⟨rfl, hinner, hname, hparent, -⟩ := hz
    have hentered := At.enter hinner hname hparent (hcontinues.changes.at hat)
    refine Carries.bind (.elsewhere hentered (h hfile hentered)) fun _ _ _ _ _ hviews => ?_
    exact .done (hviews.namespaceDecl inner exported)
  | global =>
    simp only [Binding.bindDecl]
    refine .of_ahead fun hahead => ?_
    have hglobal := hahead.bound₁.at_global
    refine Carries.bind (.elsewhere hglobal (h hfile hglobal)) fun _ _ _ _ _ hviews => ?_
    exact .done (hviews.namespaceDecl "global" exported)

theorem InterchangeableBodies.declaration (h : InterchangeableBodies (spot.within name) body body')
    (leading : List Comment) : Interchangeable spot [⟨leading, .declaration (.namespaceDecl name body)⟩]
      [⟨leading, .declaration (.namespaceDecl name body')⟩] where
  clauses := rfl
  sources := rfl
  isScript := rfl
  binding hfile aliases _ _ _ hat := by
    simp only [bindItems_singleton, bindItem]
    exact h.bindDecl hfile aliases false leading hat

theorem InterchangeableBodies.exportDecl (h : InterchangeableBodies (spot.within name) body body')
    (leading : List Comment) : Interchangeable spot [⟨leading, .exportDecl (.namespaceDecl name body)⟩]
      [⟨leading, .exportDecl (.namespaceDecl name body')⟩] where
  clauses := rfl
  sources := rfl
  isScript := rfl
  binding hfile aliases _ _ _ hat := by
    simp only [bindItems_singleton, bindItem]
    exact h.bindDecl hfile aliases true leading hat

end

/-! ## Anywhere in a file -/

mutual

/-- Lists of items that differ by some exchanges for which `R` holds, in the lists themselves and in the
namespaces in them. -/
inductive Throughout (R : Spot → List Item → List Item → Prop) : Spot → List Item → List Item → Prop
  | here {spot : Spot} {items items' : List Item} (h : R spot items items') :
    Throughout R spot items items'
  | inside {spot : Spot} {item item' : Item} (before after : List Item)
    (h : ThroughoutItem R spot item item') :
    Throughout R spot (before ++ ([item] ++ after)) (before ++ ([item'] ++ after))
  | refl (spot : Spot) (items : List Item) : Throughout R spot items items
  | trans {spot : Spot} {items items' items'' : List Item} (h : Throughout R spot items items')
    (h' : Throughout R spot items' items'') : Throughout R spot items items''

/-- Blocks of the same namespace, with exchanges inside. -/
inductive ThroughoutItem (R : Spot → List Item → List Item → Prop) : Spot → Item → Item → Prop
  | declaration {spot : Spot} {leading : List Comment} {name : NamespaceName}
    {body body' : NamespaceBody} (h : ThroughoutBody R (spot.within name) body body') :
    ThroughoutItem R spot ⟨leading, .declaration (.namespaceDecl name body)⟩
      ⟨leading, .declaration (.namespaceDecl name body')⟩
  | exportDecl {spot : Spot} {leading : List Comment} {name : NamespaceName}
    {body body' : NamespaceBody} (h : ThroughoutBody R (spot.within name) body body') :
    ThroughoutItem R spot ⟨leading, .exportDecl (.namespaceDecl name body)⟩
      ⟨leading, .exportDecl (.namespaceDecl name body')⟩

/-- Bodies of namespaces, with exchanges inside. -/
inductive ThroughoutBody (R : Spot → List Item → List Item → Prop) :
    Spot → NamespaceBody → NamespaceBody → Prop
  | items {spot : Spot} {items items' : List Item} (h : Throughout R spot items items') :
    ThroughoutBody R spot (.items items) (.items items')
  | nested {spot : Spot} {name : String} {body body' : NamespaceBody}
    (h : ThroughoutBody R (spot.enter name) body body') :
    ThroughoutBody R spot (.nested name body) (.nested name body')

end

/-- Whatever is exchanged may take each other's place. -/
def Exchanges (R : Spot → List Item → List Item → Prop) : Prop :=
  ∀ {spot : Spot} {items items' : List Item}, R spot items items' → Interchangeable spot items items'

section

variable {R : Spot → List Item → List Item → Prop}

mutual

/-- Exchanges inside a list make an interchangeable one. -/
theorem Throughout.interchangeable (hR : Exchanges R) : ∀ {spot : Spot} {items items' : List Item},
    Throughout R spot items items' → Interchangeable spot items items'
  | _, _, _, .here h => hR h
  | _, _, _, .inside before after h => (h.interchangeable hR).within before after
  | _, _, _, .refl spot items => .refl spot items
  | _, _, _, .trans h h' => (h.interchangeable hR).trans (h'.interchangeable hR)

theorem ThroughoutItem.interchangeable (hR : Exchanges R) : ∀ {spot : Spot} {item item' : Item},
    ThroughoutItem R spot item item' → Interchangeable spot [item] [item']
  | _, _, _, .declaration h => InterchangeableBodies.declaration (h.interchangeable hR) _
  | _, _, _, .exportDecl h => InterchangeableBodies.exportDecl (h.interchangeable hR) _

theorem ThroughoutBody.interchangeable (hR : Exchanges R) : ∀ {spot : Spot} {body body' : NamespaceBody},
    ThroughoutBody R spot body body' → InterchangeableBodies spot body body'
  | _, _, _, .items h => (h.interchangeable hR).bodies
  | _, _, _, .nested h => InterchangeableBodies.nested (h.interchangeable hR)

end

end

/-! ## Programs -/

/-- Files with exchanges inside, whatever scope a file is given: the global one, if it is a script. -/
def Syntax.SourceTree.Exchanged (R : Spot → List Item → List Item → Prop) (parsed parsed' : SourceTree) :
    Prop :=
  ∀ root, (root = globalScope ↔ parsed.isScript = true) →
    Throughout R (.top root) parsed.items parsed'.items

section

variable {R : Spot → List Item → List Item → Prop} (hR : Exchanges R) {parsed parsed' : SourceTree}
  {modules modules' : Modules}
include hR

theorem SourceTree.Exchanged.interchangeable (h : parsed.Exchanged R parsed') :
    ∃ spot, Interchangeable spot parsed.items parsed'.items := by
  refine ⟨_, (h (if parsed.isScript then globalScope else ⟨1⟩) ?_).interchangeable hR⟩
  cases parsed.isScript <;> simp [globalScope]

theorem SourceTree.Exchanged.specifiers (h : parsed.Exchanged R parsed') :
    parsed.specifiers = parsed'.specifiers := by
  obtain ⟨spot, h⟩ := SourceTree.Exchanged.interchangeable hR h
  exact h.sources

theorem SourceTree.Exchanged.isScript (h : parsed.Exchanged R parsed') :
    parsed.isScript = parsed'.isScript := by
  obtain ⟨spot, h⟩ := SourceTree.Exchanged.interchangeable hR h
  exact h.isScript

/-- Files with exchanges inside are bound to indexes that resemble each other. -/
theorem mapM_bindEntry_carries {spot : Spot} {y : ScopeId} {index₁ index₂ : Index}
    {entries entries' : List (ModuleId × ModuleFile)}
    (hentries : List.Forall₂ (fun first second => first.1 = second.1 ∧
      first.2.Rewritten (SourceTree.Exchanged R) second.2) entries entries')
    (hroots : ∀ entry ∈ entries, index₁.HasModule entry.1 ∧
      index₁.At (.top (index₁.moduleScope entry.1)) (index₁.moduleScope entry.1) ∧
        (index₁.moduleScope entry.1 = globalScope ↔ entry.2.tree.isScript = true)) :
    Carries spot y [] index₁ index₂ (entries.mapM bindEntry) (entries'.mapM bindEntry)
      fun _ => List.Forall₂ fun first second => first.path = second.path ∧
        AlikeViews first.declarations second.declarations := by
  induction hentries generalizing index₁ index₂ with
  | nil => exact .done .nil
  | @cons entry entry' rest rest' hentry _ ih =>
    obtain ⟨id, file⟩ := entry
    obtain ⟨_, file'⟩ := entry'
    obtain ⟨rfl, hfile⟩ := hentry
    obtain ⟨⟨hmodule, hat, hroot⟩, hrest⟩ := List.forall_mem_cons.1 hroots
    have hbodies : Carries (.top (index₁.moduleScope id)) (index₁.moduleScope id) [] index₁ index₂ _ _ _ :=
      ((hfile.tree _ hroot).interchangeable hR).bodies hfile.dependency? hat
    have hfirst : Carries spot y [] index₁ index₂ (bindEntry (id, file)) (bindEntry (id, file'))
        fun _ first second => first.path = second.path ∧
          AlikeViews first.declarations second.declarations := by
      refine .of_ahead fun hahead => .get_bind ?_
      rw [← hahead.frame.moduleScope id]
      refine (Carries.elsewhere hat hbodies).bind fun _ _ _ _ _ hviews => ?_
      exact .done ⟨congrArg Path.text hfile.path, hviews⟩
    rw [List.mapM_cons, List.mapM_cons]
    refine hfirst.bind fun index₁' index₂' view view' hcontinues hview => ?_
    refine Carries.bind (ih fun entry hentry => ?_) fun _ _ _ _ _ hviews => .done (.cons hview hviews)
    obtain ⟨hmodule', hat', hroot'⟩ := hrest entry hentry
    rw [hcontinues.changes.moduleScope_eq hmodule']
    exact ⟨Nat.lt_of_lt_of_le hmodule' hcontinues.changes.modulesSize, hcontinues.changes.at hat', hroot'⟩

/-- Programs with exchanges inside their files have the same document. -/
theorem Modules.document_exchanged (h : modules.Rewritten (SourceTree.Exchanged R) modules')
    (mode : SchemaMode) : modules.program.document mode = modules'.program.document mode := by
  have hunbound : Bound (fun _ => True) modules.unbound := (unbound_changes modules).bound (.empty _)
  have hroots : ∀ entry ∈ modules.bound, modules.unbound.HasModule entry.1 ∧
      modules.unbound.At (.top (modules.unbound.moduleScope entry.1))
        (modules.unbound.moduleScope entry.1) ∧
      (modules.unbound.moduleScope entry.1 = globalScope ↔ entry.2.tree.isScript = true) := by
    intro entry hentry
    refine ⟨(Modules.moduleScope_bound hentry).1, modules.at_unbound entry.1, ?_⟩
    rw [Modules.moduleScope_eq_global_iff, Modules.hasScope, Modules.exists_of_mem_bound hentry]
    simp [ModuleFile.hasScope]
  have hsame := h.unbound (SourceTree.Exchanged.isScript hR)
  obtain ⟨hahead, -, hviews⟩ := mapM_bindEntry_carries hR h.bound hroots
    (Ahead.refl hunbound hunbound.at_global)
  have hresembles : Resembles modules.program.index modules'.program.index := by
    show Resembles modules.bind.2 modules'.bind.2
    rw [Modules.bind_eq, Modules.bind_eq, ← hsame]
    exact hahead.resembles
  refine hresembles.document_eq ?_ mode
  show List.Forall₂ _ modules.bind.1 modules'.bind.1
  rw [Modules.bind_eq, Modules.bind_eq, ← hsame]
  exact hviews

/-- Files with exchanges inside are documented as before. -/
theorem documentFiles_exchanged {tree tree' : FileTree} (hrooted : tree.IsRooted)
    (h : tree.Rewritten (SourceTree.Exchanged R) tree') (roots : List Path) (mode : SchemaMode) :
    documentFiles tree roots mode = documentFiles tree' roots mode :=
  documentFiles_rewritten hrooted (fun parsed _ _ => .refl _ parsed.items)
    (SourceTree.Exchanged.specifiers hR) h roots mode fun _ _ hmodules =>
      Modules.document_exchanged hR hmodules mode

end

end ComponentSchema
