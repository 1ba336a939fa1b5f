import ComponentSchema.Proofs.Binder.ScopeContents

/-!
# Steps that some additions do not disturb

An index may be ahead of another one by some additions to a scope (`Index.Ahead`). Whatever is bound to
both, the one stays ahead of the other by the same additions, and the answers are the same: unless what is
bound declares or exports one of the added names, in the same spot.

Results.
* `Binding.act_carries`, `Binding.bindItems_carries`: what is bound act by act.
-/
namespace ComponentSchema

open Syntax Relation

/-! ## Notes -/

/-- A name that is declared, or exported: from the local name, if it stands for one. -/
inductive Note where
  | declares (name : String)
  | exports (name : String) (localName : Option String)
  deriving DecidableEq, Repr

/-- Two notes of which either may come first. -/
def Note.Apart : Note → Note → Prop
  | .declares name, .declares other => name ≠ other
  | .exports name localName, .exports other localName' =>
    name = other → localName.isSome ∧ localName = localName'
  | _, _ => True

/-- The local name that an export stands for. -/
def ExportBinding.own? : ExportBinding → Option String
  | .own name => some name
  | _ => none

/-- The name that is added. -/
def Addition.note : Addition → Note
  | .declares name _ => .declares name
  | .exports name binding => .exports name binding.own?

theorem Addition.apart_of_note {x y : ScopeId} {first second : Addition}
    (h : x = y → first.note.Apart second.note) : first.Apart x y second := by
  cases first with
  | declares name kind =>
    cases second with
    | declares => exact h
    | exports => trivial
  | exports name binding =>
    cases second with
    | declares => trivial
    | exports other binding' =>
      intro hxy hname
      obtain ⟨hsome, hown⟩ := h hxy hname
      cases binding <;> cases binding' <;> simp_all [ExportBinding.own?]

/-- The note of a declaration that may carry an `export` modifier. -/
def exportNotes (exported : Bool) (name : String) : List Note :=
  if exported then [.exports name (some name)] else []

/-- Notes of the same spot. -/
def Spot.noting (spot : Spot) (notes : List Note) : List (Spot × Note) := notes.map (spot, ·)

/-- The note of a specifier of an export clause, with or without a source. -/
def Syntax.ExportSpecifier.note? (hasSource : Bool) : ExportSpecifier → Option Note
  | .named original exported =>
    some (.exports (exported.getD original) (if hasSource then none else some original))
  | .all exported => if hasSource then some (.exports exported none) else none

/-- The notes of an export clause. -/
def Syntax.ItemKind.clauseNotes : ItemKind → List Note
  | .exportNamed source specifiers => specifiers.filterMap (·.note? source.isSome)
  | _ => []

mutual

/-- The names that a declaration declares and exports, each in its spot. -/
def Syntax.Decl.notes (spot : Spot) (exported : Bool) : Decl → List (Spot × Note)
  | .classDecl name _ | .interface name _ | .typeAlias name _ | .enum name =>
    spot.noting (.declares name :: exportNotes exported name)
  | .namespaceDecl (.identifier name) body =>
    spot.noting (exportNotes exported name) ++ body.notes (spot.enter name)
  | .namespaceDecl (.string name) body => body.notes (spot.enter name)
  | .namespaceDecl .global body => body.notes (.top globalScope)
  | _ => []

/-- The names that the body of a namespace declares and exports. -/
def Syntax.NamespaceBody.notes (spot : Spot) : NamespaceBody → List (Spot × Note)
  | .absent => []
  | .nested name body => spot.noting (exportNotes true name) ++ body.notes (spot.enter name)
  | .items items => spot.noting (items.flatMap (·.kind.clauseNotes)) ++ notesAll spot items

/-- The names that several items declare and export, their own export clauses apart. -/
def Syntax.notesAll (spot : Spot) : List Item → List (Spot × Note)
  | [] => []
  | item :: rest => item.notes spot ++ notesAll spot rest

/-- The names that an item declares and exports, if it is no export clause. -/
def Syntax.Item.notes (spot : Spot) : Item → List (Spot × Note)
  | ⟨_, .declaration decl⟩ => decl.notes spot false
  | ⟨_, .exportDecl decl⟩ => decl.notes spot true
  | ⟨_, .exportDefaultClass (some name) _⟩ | ⟨_, .exportDefaultInterface name _⟩ =>
    spot.noting [.declares name, .exports defaultExportName (some name)]
  | ⟨_, .exportDefaultExpr (.identifier name)⟩ =>
    spot.noting [.exports defaultExportName (some name)]
  | _ => []

end

theorem mem_notesAll {spot : Spot} {items : List Item} {note : Spot × Note} :
    note ∈ notesAll spot items ↔ ∃ item ∈ items, note ∈ item.notes spot := by
  induction items with
  | nil => simp [notesAll]
  | cons item rest ih => simp [notesAll, ih]

/-- None of the additions to a spot is of a name that is noted there. -/
def Undisturbed (spot : Spot) (log : List Addition) (notes : List (Spot × Note)) : Prop :=
  ∀ note ∈ notes, note.1 = spot → ∀ entry ∈ log, entry.note.Apart note.2

section

variable {spot : Spot} {log : List Addition} {notes notes' : List (Spot × Note)}

@[simp] theorem undisturbed_append :
    Undisturbed spot log (notes ++ notes') ↔ Undisturbed spot log notes ∧ Undisturbed spot log notes' :=
  List.forall_mem_append

theorem undisturbed_nil (spot : Spot) (notes : List (Spot × Note)) : Undisturbed spot [] notes :=
  fun _ _ _ _ hentry => nomatch hentry

end

/-! ## Indexes that are ahead -/

namespace Index

variable {index₁ index₂ index₁' index₂' : Index} {x : ScopeId} {spot : Spot} {log : List Addition}

/-- The second index holds what the first one does, and some additions to a scope. -/
structure Ahead (spot : Spot) (x : ScopeId) (log : List Addition) (index₁ index₂ : Index) : Prop where
  bound₁ : Bound (fun _ => True) index₁
  bound₂ : Bound (fun _ => True) index₂
  frame : SameFrame index₁ index₂
  contents : index₂.contents = index₁.contents.addAll x log
  stands : index₁.At spot x

/-- From one index to another by binding: namespaces stay what they are. -/
structure Continues (index index' : Index) : Prop where
  changes : Changes (fun _ => True) index index'
  namespaces : ∀ {z : ScopeId} {name : String} {inner : ScopeId},
    (index.scope z).namespaces.lookup name = some inner →
      (index'.scope z).namespaces.lookup name = some inner

theorem Continues.refl (index : Index) : Continues index index := ⟨.refl, id⟩

theorem Continues.trans {index index' index'' : Index} (h : Continues index index')
    (h' : Continues index' index'') : Continues index index'' :=
  ⟨h.changes.trans h'.changes, h'.namespaces ∘ h.namespaces⟩

theorem Continues.hasScope {index index' : Index} (h : Continues index index') {z : ScopeId}
    (hz : index.HasScope z) : index'.HasScope z := Nat.lt_of_lt_of_le hz h.changes.size

theorem Continues.of_sameFrame {index index' : Index} (hchanges : Changes (fun _ => True) index index')
    (hframe : SameFrame index index') : Continues index index' :=
  ⟨hchanges, fun hlook => hframe.namespaces _ ▸ hlook⟩

/-- Two indexes that resemble each other: neither is ahead. -/
theorem Ahead.refl {index : Index} (hbound : Bound (fun _ => True) index) (hat : index.At spot x) :
    Ahead spot x [] index index := ⟨hbound, hbound, .refl index, rfl, hat⟩

/-- After changes that leave the contents as they are. -/
theorem Ahead.keep (h : Ahead spot x log index₁ index₂)
    (hchanges₁ : Changes (fun _ => True) index₁ index₁')
    (hchanges₂ : Changes (fun _ => True) index₂ index₂') (hframe : SameFrame index₁' index₂')
    (hcontents₁ : index₁'.contents = index₁.contents)
    (hcontents₂ : index₂'.contents = index₂.contents) : Ahead spot x log index₁' index₂' :=
  ⟨hchanges₁.bound h.bound₁, hchanges₂.bound h.bound₂, hframe, by
    rw [hcontents₁, hcontents₂, h.contents], hchanges₁.at h.stands⟩

end Index

/-! ## Steps of binding -/

open Index

namespace Binding

variable {α β γ δ : Type} {index₁ index₂ : Index} {x y : ScopeId} {spot place : Spot}
  {log : List Addition} {name : String} {exported : Bool}

/-- Two steps after which the second index is ahead of the first one as before, and their answers. -/
def Carries (spot : Spot) (x : ScopeId) (log : List Addition) (index₁ index₂ : Index) (first : Binding α)
    (second : Binding β) (Q : Index → α → β → Prop) : Prop :=
  Ahead spot x log index₁ index₂ →
    Ahead spot x log (first.run index₁).2 (second.run index₂).2 ∧ Continues index₁ (first.run index₁).2 ∧
      Q (first.run index₁).2 (first.run index₁).1 (second.run index₂).1

/-- Two steps at some spot, after which the second index is ahead as before, with the same answer. -/
def CarriesIn (spot : Spot) (x : ScopeId) (log : List Addition) (index₁ index₂ : Index) (place : Spot)
    (y : ScopeId) (first second : Binding α) (notes : List (Spot × Note)) : Prop :=
  index₁.At place y → Undisturbed spot log notes →
    Carries spot x log index₁ index₂ first second fun _ => Eq

section

variable {first : Binding α} {second : Binding β} {Q : Index → α → β → Prop} {R : Index → γ → δ → Prop}

theorem Carries.done {answer : α} {answer' : β} (hq : Q index₁ answer answer') :
    Carries spot x log index₁ index₂ (pure answer) (pure answer') Q :=
  fun h => ⟨h, .refl index₁, hq⟩

theorem Carries.bind {next : α → Binding γ} {next' : β → Binding δ}
    (h : Carries spot x log index₁ index₂ first second Q)
    (hnext : ∀ index₁' index₂' answer answer', Continues index₁ index₁' → Q index₁' answer answer' →
      Carries spot x log index₁' index₂' (next answer) (next' answer') R) :
    Carries spot x log index₁ index₂ (first >>= next) (second >>= next') R := by
  intro hahead
  obtain ⟨hahead', hcontinues, hq⟩ := h hahead
  obtain ⟨hahead'', hcontinues', hr⟩ := hnext _ _ _ _ hcontinues hq hahead'
  exact ⟨hahead'', hcontinues.trans hcontinues', hr⟩

/-- After a step with the same answer. -/
theorem Carries.bind_eq {first second : Binding α} {next : α → Binding γ} {next' : α → Binding δ}
    (h : Carries spot x log index₁ index₂ first second fun _ => Eq)
    (hnext : ∀ index₁' index₂' answer, Continues index₁ index₁' →
      Carries spot x log index₁' index₂' (next answer) (next' answer) R) :
    Carries spot x log index₁ index₂ (first >>= next) (second >>= next') R :=
  h.bind fun _ _ answer _ hcontinues heq => heq ▸ hnext _ _ answer hcontinues

theorem Carries.bind_pure {first second : Binding α} {f : α → γ}
    (h : Carries spot x log index₁ index₂ first second fun _ => Eq) :
    Carries spot x log index₁ index₂ (first >>= fun answer => pure (f answer))
      (second >>= fun answer => pure (f answer)) fun _ => Eq :=
  h.bind_eq fun _ _ _ _ => .done rfl

theorem Carries.get_bind {next : Index → Binding α} {next' : Index → Binding β}
    (h : Carries spot x log index₁ index₂ (next index₁) (next' index₂) Q) :
    Carries spot x log index₁ index₂ (get >>= next) (get >>= next') Q := h

theorem Carries.of_ahead (h : Ahead spot x log index₁ index₂ →
    Carries spot x log index₁ index₂ first second Q) :
    Carries spot x log index₁ index₂ first second Q :=
  fun hahead => h hahead hahead

theorem Carries.imp {R : Index → α → β → Prop} (h : Carries spot x log index₁ index₂ first second Q)
    (himp : ∀ index answer answer', Q index answer answer' → R index answer answer') :
    Carries spot x log index₁ index₂ first second R := by
  intro hahead
  obtain ⟨hahead', hcontinues, hq⟩ := h hahead
  exact ⟨hahead', hcontinues, himp _ _ _ hq⟩

/-- Additions of other names may be made to both indexes. -/
theorem Carries.of_plays {step : Binding Unit} {additions : List Addition} {notes : List Note}
    (hplays : ∀ index, Plays index y step additions) (hnotes : additions.map Addition.note = notes) :
    CarriesIn spot x log index₁ index₂ place y step step (place.noting notes) := by
  subst hnotes
  intro hat hfree h
  have hy := hat.hasScope
  obtain ⟨hchanges₁, hframe₁, hcontents₁⟩ := hplays index₁ h.bound₁ hy
  obtain ⟨hchanges₂, hframe₂, hcontents₂⟩ := hplays index₂ h.bound₂ (h.frame.hasScope hy)
  refine ⟨⟨hchanges₁.bound h.bound₁, hchanges₂.bound h.bound₂,
    (hframe₁.symm.trans h.frame).trans hframe₂, ?_, hchanges₁.at h.stands⟩,
    .of_sameFrame hchanges₁ hframe₁, rfl⟩
  rw [hcontents₁, hcontents₂, h.contents, Contents.addAll_comm]
  intro entry hentry addition haddition
  refine Addition.apart_of_note fun hxy => ?_
  obtain rfl := hxy
  exact hfree (place, addition.note) (List.mem_map_of_mem (List.mem_map_of_mem haddition))
    (hat.unique h.stands) entry hentry

end

/-! ## Sites and views -/

theorem addTypeSite_carries (hy : index₁.HasScope y) (type : TypeExpr) :
    Carries spot x log index₁ index₂ (addTypeSite y type) (addTypeSite y type) fun _ => Eq := by
  intro h
  have hchange : ∀ index : Index, index.HasScope y → Changes (fun _ => True) index
      { index with typeSites := index.typeSites.push ⟨y, type⟩ } := fun _ hy => .single (.typeSite hy)
  have hchanges₁ := hchange index₁ hy
  have hchanges₂ := hchange index₂ (h.frame.hasScope hy)
  have hsites := h.frame.typeSites
  exact ⟨h.keep hchanges₁ hchanges₂ { h.frame with typeSites := congrArg (Array.push · _) hsites } rfl rfl,
    ⟨hchanges₁, id⟩, congrArg (fun sites => NodeId.mk sites.size) hsites⟩

theorem addFunctionSite_carries (hy : index₁.HasScope y) (body : Option Body) (wrapsResult : Bool) :
    Carries spot x log index₁ index₂ (addFunctionSite ⟨y, body, wrapsResult⟩)
      (addFunctionSite ⟨y, body, wrapsResult⟩) fun _ => Eq := by
  intro h
  have hchange : ∀ index : Index, index.HasScope y → Changes (fun _ => True) index
      { index with functionSites := index.functionSites.push ⟨y, body, wrapsResult⟩ } :=
    fun _ hy => .single (.functionSite hy)
  have hchanges₁ := hchange index₁ hy
  have hchanges₂ := hchange index₂ (h.frame.hasScope hy)
  have hsites := h.frame.functionSites
  exact ⟨h.keep hchanges₁ hchanges₂ { h.frame with functionSites := congrArg (Array.push · _) hsites }
    rfl rfl, ⟨hchanges₁, id⟩, congrArg (fun sites => FunctionId.mk sites.size) hsites⟩

theorem classView_carries (name : Option String) (members : List ClassMember) (exported : Bool)
    (leading : List Comment) : Carries spot x log index₁ index₂ (classView name members exported leading)
      (classView name members exported leading) fun _ => Eq := by
  intro h
  have hsites := h.frame.classSites
  refine ⟨h.keep (.single (.classSite _)) (.single (.classSite _))
    { h.frame with classSites := congrArg (Array.push · _) hsites } rfl rfl,
    ⟨.single (.classSite _), id⟩, ?_⟩
  exact congrArg (fun sites => Declaration.classDecl ⟨⟨Array.size sites⟩, name, exported⟩) hsites

/-- What is kept for a view is kept in both indexes. -/
def carryingView (spot : Spot) (x : ScopeId) (log : List Addition) (y : ScopeId) : Keeping y where
  Holds step _ := ∀ index₁ index₂, index₁.HasScope y → Carries spot x log index₁ index₂ step step fun _ => Eq
  done _ _ _ _ := .done rfl
  bind hfirst hnext index₁ index₂ hy := (hfirst index₁ index₂ hy).bind_eq
    fun index₁' index₂' answer hcontinues => hnext answer index₁' index₂' (hcontinues.hasScope hy)
  typeSite type _ _ hy := addTypeSite_carries hy type
  functionSite body wrapsResult _ _ hy := addFunctionSite_carries hy body wrapsResult

/-! ## Namespaces -/

theorem exportAdditions_notes (exported : Bool) (name : String) :
    (exportAdditions exported name).map Addition.note = exportNotes exported name := by
  cases exported <;> rfl

theorem exportIf_carries : CarriesIn spot x log index₁ index₂ place y (exportIf exported y name)
    (exportIf exported y name) (place.noting (exportNotes exported name)) :=
  .of_plays (fun _ => exportIf_plays) (exportAdditions_notes exported name)

/-- A scope is made in both indexes; those that there were stay as they are. -/
theorem newScope_carries (hy : index₁.HasScope y) :
    Carries spot x log index₁ index₂ (newScope (some name) (some y)) (newScope (some name) (some y))
      fun index inner inner' => inner = inner' ∧ index.HasScope inner ∧
        (index.scope inner).name = some name ∧ (index.scope inner).parent = some y ∧
          ∀ z, index₁.HasScope z → index.scope z = index₁.scope z := by
  intro h
  have hchange : ∀ index : Index, index.HasScope y → Changes (fun _ => True) index
      (index.pushScope (Scope.empty (some name) (some y))) :=
    fun index hy => .single (.newScope _ fun p hp => Option.some.inj hp ▸ hy)
  have hold : ∀ z, index₁.HasScope z →
      (index₁.pushScope (Scope.empty (some name) (some y))).scope z = index₁.scope z :=
    fun z hz => by rw [scope_push, if_neg (Nat.ne_of_lt hz)]
  refine ⟨h.keep (hchange _ hy) (hchange _ (h.frame.hasScope hy)) (h.frame.pushScope _)
    (contents_pushScope ..) (contents_pushScope ..), ⟨hchange _ hy, fun {z _ _} hlook => ?_⟩,
    congrArg ScopeId.mk h.frame.size, ?_⟩
  · show List.lookup _ ((index₁.pushScope _).scope z).namespaces = _
    rw [namespaces_pushScope, hlook]
  · have hmakes : Makes (fun _ => True) index₁ (newScope (some name) (some y)) _ := newScope_makes hy
    obtain ⟨-, hinner, hname, hparent⟩ := hmakes h.bound₁.nested
    exact ⟨hinner, hname, hparent, hold⟩

/-- The scope of a namespace is found or made in both indexes. -/
theorem namespaceScope_carries (hat : index₁.At place y)
    (hfree : Undisturbed spot log (place.noting (exportNotes exported name))) :
    Carries spot x log index₁ index₂ (namespaceScope y name exported) (namespaceScope y name exported)
      fun index inner inner' => inner = inner' ∧ index.At (place.enter name) inner := by
  refine (exportIf_carries hat hfree).bind_eq fun index₁ index₂ _ hcontinues => .get_bind ?_
  have hat' := hcontinues.changes.at hat
  refine .of_ahead fun hahead => ?_
  rw [← hahead.frame.namespaces y]
  rcases hlook : (index₁.scope y).namespaces.lookup name with _ | inner
  · refine (newScope_carries hat'.hasScope).bind
      fun index₁' index₂' inner _ hcontinues' ⟨heq, hinner, hname, hparent, hold⟩ => ?_
    subst heq
    have hat'' := hcontinues'.changes.at hat'
    have hentered := At.enter hinner hname hparent hat''
    refine Carries.bind (Q := fun index _ _ => index.At (place.enter name) inner) ?_
      fun _ _ _ _ _ hentered' => .done ⟨rfl, hentered'⟩
    intro h
    have hchange : ∀ index : Index, SameFrame index₁' index → Changes (fun _ => True) index
        (index.modifyScope y fun data => { data with namespaces := (name, inner) :: data.namespaces }) :=
      fun index hframe => .single (.addNamespace (hframe.hasScope hat''.hasScope)
        (hframe.hasScope hinner) ((hframe.name inner).symm.trans hname)
        ((hframe.parent inner).symm.trans hparent))
    refine ⟨h.keep (hchange _ (.refl _)) (hchange _ h.frame)
      (h.frame.modifyScope hat''.hasScope fun data data' hsame => ?_)
      (contents_modifyScope hat''.hasScope (fun _ => rfl) fun _ => rfl)
      (contents_modifyScope (h.frame.hasScope hat''.hasScope) (fun _ => rfl) fun _ => rfl),
      ⟨hchange _ (.refl _), fun {z other found} hfound => ?_⟩, (hchange _ (.refl _)).at hentered⟩
    · exact congrArg (fun data : Scope =>
        { data with namespaces := (name, inner) :: data.namespaces }) hsame
    · show List.lookup other ((index₁'.modifyScope y _).scope z).namespaces = some found
      rw [scope_modify index₁' z _ hat''.hasScope]
      split
      · rename_i hzy
        subst hzy
        rw [hold z hat'.hasScope] at hfound ⊢
        exact (lookup_cons_iff hlook).2 (.inr hfound)
      · exact hfound
  · refine .done ⟨rfl, ?_⟩
    obtain ⟨hname, hparent⟩ := hahead.bound₁.enters y _ (mem_of_lookup hlook)
    exact .enter (hahead.bound₁.nested.namespaces (mem_of_lookup hlook)) hname hparent hat'

/-- The note of a namespace in the scope around it. -/
def namespaceNotes (exported : Bool) : NamespaceName → List Note
  | .identifier name => exportNotes exported name
  | .string _ | .global => []

/-- The body of a namespace is bound in the same scope in both indexes. -/
theorem enter_carries (hat : index₁.At place y) (namespaceName : NamespaceName)
    (hfree : Undisturbed spot log (place.noting (namespaceNotes exported namespaceName))) :
    Carries spot x log index₁ index₂ (enter y exported namespaceName) (enter y exported namespaceName)
      fun index inner inner' => inner = inner' ∧ index.At (place.within namespaceName) inner := by
  cases namespaceName with
  | identifier name => exact namespaceScope_carries hat hfree
  | string name =>
    intro hahead
    have hcarries : Carries spot x log index₁ index₂ (newScope (some name) (some y)) _ _ :=
      newScope_carries hat.hasScope
    obtain ⟨hahead', hcontinues, heq, hinner, hname, hparent, -⟩ := hcarries hahead
    exact ⟨hahead', hcontinues, heq, .enter hinner hname hparent (hcontinues.changes.at hat)⟩
  | global => exact .of_ahead fun hahead => .done ⟨rfl, hahead.bound₁.at_global⟩

/-! ## Clauses -/

/-- A scope may change in both indexes in its imports and star exports. -/
theorem modifyScope_carries (hy : index₁.HasScope y) {change : Scope → Scope}
    (hchange : ∀ index : Index, index.HasScope y →
      Change (fun _ => True) index (index.modifyScope y change))
    (hframe : ∀ data data', data.frame = data'.frame → (change data).frame = (change data').frame)
    (htypes : ∀ data, (change data).types = data.types)
    (hexports : ∀ data, (change data).exports = data.exports)
    (hnamespaces : ∀ data, (change data).namespaces = data.namespaces) :
    Carries spot x log index₁ index₂ (modifyScope y change) (modifyScope y change) fun _ => Eq := by
  intro h
  have hy₂ := h.frame.hasScope hy
  refine ⟨h.keep (.single (hchange _ hy)) (.single (hchange _ hy₂)) (h.frame.modifyScope hy hframe)
    (contents_modifyScope hy htypes hexports) (contents_modifyScope hy₂ htypes hexports),
    ⟨.single (hchange _ hy), fun {z _ _} hlook => ?_⟩, rfl⟩
  show List.lookup _ ((index₁.modifyScope y change).scope z).namespaces = _
  rw [scope_modify index₁ z change hy]
  split
  · rename_i hzy
    rw [hnamespaces, ← hzy, hlook]
  · exact hlook

theorem forM_carries {ι : Type} {step step' : ι → Binding Unit} (items : List ι)
    {notes : ι → List (Spot × Note)}
    (hstep : ∀ item (index₁' index₂' : Index),
      CarriesIn spot x log index₁' index₂' place y (step item) (step' item) (notes item)) :
    CarriesIn spot x log index₁ index₂ place y (items.forM step) (items.forM step')
      (items.flatMap notes) := by
  induction items generalizing index₁ index₂ with
  | nil => exact fun _ _ => .done rfl
  | cons item rest ih =>
    intro hat hfree
    rw [List.flatMap_cons, undisturbed_append] at hfree
    exact (hstep item _ _ hat hfree.1).bind_eq fun _ _ _ hcontinues =>
      ih (hcontinues.changes.at hat) hfree.2

section

variable {file file' : ModuleFile} (hfile : ∀ source, file.dependency? source = file'.dependency? source)
include hfile

theorem bindImport_carries (hy : index₁.HasScope y) (source : StringLiteral)
    (specifiers : List ImportSpecifier) : Carries spot x log index₁ index₂
      (bindImport file y source specifiers) (bindImport file' y source specifiers) fun _ => Eq := by
  unfold bindImport
  rw [← hfile source]
  rcases file.dependency? source with _ | g
  · exact .done rfl
  · simp only
    induction specifiers generalizing index₁ index₂ with
    | nil => exact .done rfl
    | cons specifier rest ih =>
      have hone : Carries spot x log index₁ index₂
          (addImport y (importBinding g specifier).1 (importBinding g specifier).2)
          (addImport y (importBinding g specifier).1 (importBinding g specifier).2) fun _ => Eq :=
        modifyScope_carries hy (fun _ hy => .addImport hy _ _ trivial)
          (fun _ _ hsame => congrArg (fun data : Scope =>
            { data with imports := importBinding g specifier :: data.imports }) hsame)
          (fun _ => rfl) (fun _ => rfl) fun _ => rfl
      exact hone.bind_eq fun _ _ _ hcontinues => ih (hcontinues.hasScope hy)

omit hfile in
/-- An entry of an export clause whose source is known, if it has one. -/
theorem bindExportEntry_carries (source : Option ModuleId) (specifier : ExportSpecifier) :
    CarriesIn spot x log index₁ index₂ place y (bindExportEntry y source specifier)
      (bindExportEntry y source specifier) (place.noting (specifier.note? source.isSome).toList) := by
  cases specifier with
  | named original exported =>
    cases source <;> exact .of_plays (fun _ => addExport_plays _) rfl
  | all exported =>
    cases source with
    | none => exact fun _ _ => .done rfl
    | some g => exact .of_plays (fun _ => addExport_plays _) rfl

omit hfile in
theorem noting_flatMap {ι : Type} (items : List ι) (notes : ι → List Note) :
    items.flatMap (fun item => place.noting (notes item)) = place.noting (items.flatMap notes) :=
  List.map_flatMap.symm

theorem bindExportClause_carries (kind : ItemKind) :
    CarriesIn spot x log index₁ index₂ place y (bindExportClause file y kind)
      (bindExportClause file' y kind) (place.noting kind.clauseNotes) := by
  have hentries : ∀ (source : Option ModuleId) (entries : List ExportSpecifier),
      CarriesIn spot x log index₁ index₂ place y (entries.forM (bindExportEntry y source))
        (entries.forM (bindExportEntry y source))
        (place.noting (entries.filterMap (·.note? source.isSome))) := by
    intro source entries
    have hall : CarriesIn spot x log index₁ index₂ place y _ _ _ :=
      forM_carries entries fun entry _ _ => bindExportEntry_carries source entry
    rwa [noting_flatMap, ← List.filterMap_eq_flatMap_toList] at hall
  unfold bindExportClause ItemKind.clauseNotes
  split
  · exact hentries none _
  · rw [← hfile]
    split
    · exact hentries (some _) _
    · exact fun _ _ => .done rfl
  · rw [← hfile]
    split
    · rename_i g _
      intro hat _
      exact modifyScope_carries hat.hasScope (fun _ hy => .addStarExport hy _ trivial)
        (fun _ _ hsame => congrArg (fun data : Scope =>
          { data with starExports := data.starExports ++ [g] }) hsame)
        (fun _ => rfl) (fun _ => rfl) fun _ => rfl
    · exact fun _ _ => .done rfl
  · exact fun _ _ => .done rfl

/-! ## Items -/

omit hfile in
theorem declare_carries {kind : TypeDeclKind} (hkind : kind.isInterface = false) :
    CarriesIn spot x log index₁ index₂ place y (declare y name kind exported)
      (declare y name kind exported) (place.noting (.declares name :: exportNotes exported name)) :=
  .of_plays (fun _ => declareFirst_plays exported hkind)
    (congrArg (Note.declares name :: ·) (exportAdditions_notes exported name))

omit hfile in
theorem declareInterface_carries (members : List TypeMember) :
    CarriesIn spot x log index₁ index₂ place y (declareInterface y name members exported)
      (declareInterface y name members exported)
      (place.noting (.declares name :: exportNotes exported name)) :=
  .of_plays (fun _ => declareInterface_plays members)
    (congrArg (Note.declares name :: ·) (exportAdditions_notes exported name))

omit hfile in
/-- The notes of an act. -/
def Act.notes : Act → List Note
  | .nominal name exported | .typeAlias name _ exported | .interface name _ exported =>
    .declares name :: exportNotes exported name
  | .exportDefault name => [.exports defaultExportName (some name)]
  | .clause kind => kind.clauseNotes
  | .function .. | .declarator .. | .classView .. | .imports .. => []

theorem act_carries (act : Act) : CarriesIn spot x log index₁ index₂ place y (act.bind file y)
    (act.bind file' y) (place.noting act.notes) := by
  intro hat hfree
  cases act with
  | function _ _ _ definition => exact ((carryingView spot x log y).function definition _ _ hat.hasScope).bind_pure
  | declarator aliases exported written =>
    exact ((carryingView spot x log y).variableDecl exported aliases written _ _ hat.hasScope).bind_pure
  | classView name members exported leading =>
    exact (classView_carries name members exported leading).bind_pure
  | nominal => exact (declare_carries rfl hat hfree).bind_pure
  | typeAlias => exact (declare_carries rfl hat hfree).bind_pure
  | interface _ members => exact (declareInterface_carries members hat hfree).bind_pure
  | exportDefault => exact (Carries.of_plays (fun _ => addExport_plays _) rfl hat hfree).bind_pure
  | imports source specifiers =>
    exact (bindImport_carries hfile hat.hasScope source specifiers).bind_pure
  | clause kind => exact (bindExportClause_carries hfile kind hat hfree).bind_pure

omit hfile in
/-- What is bound at any spot of both indexes leaves the second one ahead, if none of the additions is of a
name that is noted there. -/
def carrying (spot : Spot) (x : ScopeId) (log : List Addition) : Judgement where
  Account := Spot → List (Spot × Note)
  Holds y y' step step' notes := y = y' →
    ∀ {index₁ index₂ place}, CarriesIn spot x log index₁ index₂ place y step step' (notes place)
  nothing _ := []
  both notes notes' place := notes place ++ notes' place
  within name exported notes place :=
    place.noting (namespaceNotes exported name) ++ notes (place.within name)
  holds_nothing _ _ _ _ _ _ := .done rfl
  holds_both h h' heq _ _ _ hat hfree := by
    obtain ⟨hfirst, hsecond⟩ := undisturbed_append.1 hfree
    subst heq
    exact (h rfl hat hfirst).bind_eq fun _ _ _ hcontinues =>
      (h' rfl (hcontinues.changes.at hat) hsecond).bind_pure
  holds_within h heq _ _ _ hat hfree := by
    obtain ⟨hname, hinside⟩ := undisturbed_append.1 hfree
    subst heq
    refine (enter_carries hat _ hname).bind fun _ _ inner _ _ ⟨heq, hinner⟩ => ?_
    subst heq
    exact (h inner inner rfl hinner hinside).bind_pure

omit hfile in
theorem notes_of_decl {aliases : List (String × String)} {leading : List Comment} {decl : Decl}
    {acts : List Act} (h : decl.acts? aliases exported leading = some acts) (place : Spot) :
    (acts.flatMap fun act => place.noting act.notes) = decl.notes place exported := by
  cases decl with
  | namespaceDecl => cases h
  | _ =>
    cases h
    simp [Act.notes, Decl.notes, Spot.noting]

omit hfile in
theorem notes_of_item {item : Item} {acts : List Act} (h : item.acts? = some acts) (place : Spot) :
    (acts.flatMap fun act => place.noting act.notes) = item.notes place := by
  obtain ⟨leading, kind⟩ := item
  cases kind with
  | declaration | exportDecl => cases h
  | exportDefaultClass name =>
    cases name <;> cases h <;> simp [Act.notes, Item.notes, Spot.noting, exportNotes]
  | exportDefaultExpr value => cases value <;> cases h <;> simp [Act.notes, Item.notes, Spot.noting]
  | _ =>
    cases h
    simp [Act.notes, Item.notes, Spot.noting, exportNotes]

def carryingLedger (spot : Spot) (x : ScopeId) (log : List Addition) :
    (carrying spot x log).Ledger file file' where
  ofAct act place := place.noting act.notes
  ofDecl _ exported _ decl place := decl.notes place exported
  ofBody body place := body.notes place
  ofItems _ items place := notesAll place items
  ofItem _ item place := item.notes place
  act act _ _ heq _ _ _ := heq ▸ act_carries hfile act
  decl_acts h := .of_eq (funext fun place =>
    (Judgement.foldr_append_at _ _ place).trans (notes_of_decl h place))
  decl_namespaceDecl {_ _ _ name _} := .of_eq (funext fun _ => by cases name <;> rw [Decl.notes] <;> rfl)
  body_absent := .of_eq (funext fun _ => by rw [NamespaceBody.notes]; rfl)
  body_nested := .of_eq (funext fun _ => by rw [NamespaceBody.notes]; rfl)
  body_items {items} := .of_eq (funext fun place => by
    rw [NamespaceBody.notes, ← noting_flatMap]
    refine congrArg (· ++ _) ((Judgement.foldr_append_at _ _ place).trans ?_)
    rw [clauseActs, List.flatMap_map]
    rfl)
  items_nil := .of_eq (funext fun _ => by rw [notesAll]; rfl)
  items_cons := .of_eq (funext fun _ => by rw [notesAll]; rfl)
  item_acts h := .of_eq (funext fun place =>
    (Judgement.foldr_append_at _ _ place).trans (notes_of_item h place))
  item_declaration := .of_eq (funext fun _ => by rw [Item.notes])
  item_exportDecl := .of_eq (funext fun _ => by rw [Item.notes])

theorem bindBody_carries (body : NamespaceBody) :
    CarriesIn spot x log index₁ index₂ place y (bindBody file y body) (bindBody file' y body)
      (body.notes place) :=
  (carryingLedger hfile spot x log).bindBody body y y rfl

theorem bindItems_carries (items : List Item) (aliases : List (String × String)) :
    CarriesIn spot x log index₁ index₂ place y (bindItems file aliases y items)
      (bindItems file' aliases y items) (notesAll place items) :=
  (carryingLedger hfile spot x log).bindItems items aliases y y rfl

theorem bindItem_carries (item : Item) (aliases : List (String × String)) :
    CarriesIn spot x log index₁ index₂ place y (bindItem file aliases y item)
      (bindItem file' aliases y item) (item.notes place) :=
  (carryingLedger hfile spot x log).bindItem item aliases y y rfl

end

end Binding

/-! ## Items that declare a type -/

/-- The declaration of an interface, an alias or an enum: its name, and what it declares. -/
def Syntax.Decl.type? : Decl → Option (String × TypeDeclKind)
  | .interface name members => some (name, .interface [members])
  | .typeAlias name type => some (name, .typeAlias type)
  | .enum name => some (name, .nominal)
  | _ => none

/-- The additions of an item that declares an interface, an alias or an enum. -/
def Syntax.Item.additions? : Item → Option (List Addition)
  | ⟨_, .declaration decl⟩ => decl.type?.map fun (name, kind) => [.declares name kind]
  | ⟨_, .exportDecl decl⟩ =>
    decl.type?.map fun (name, kind) => [.declares name kind, .exports name (.own name)]
  | ⟨_, .exportDefaultInterface name members⟩ =>
    some [.declares name (.interface [members]), .exports defaultExportName (.own name)]
  | _ => none

namespace Binding

variable (file : ModuleFile) (aliases : List (String × String)) (y : ScopeId) {item : Item}
  {log : List Addition}

theorem bindDecl_plays {decl : Decl} {name : String} {kind : TypeDeclKind}
    (h : decl.type? = some (name, kind)) (exported : Bool) (leading : List Comment) :
    ∃ step : Binding Unit,
      bindDecl file aliases y exported leading decl = (step >>= fun _ => pure []) ∧
        ∀ index, Plays index y step (.declares name kind :: exportAdditions exported name) := by
  cases decl with
  | interface =>
    obtain ⟨rfl, rfl⟩ := Prod.mk.inj (Option.some.inj h)
    exact ⟨_, by simp only [bindDecl], fun _ => declareInterface_plays _⟩
  | typeAlias =>
    obtain ⟨rfl, rfl⟩ := Prod.mk.inj (Option.some.inj h)
    exact ⟨_, by simp only [bindDecl], fun _ => declareFirst_plays exported rfl⟩
  | enum =>
    obtain ⟨rfl, rfl⟩ := Prod.mk.inj (Option.some.inj h)
    exact ⟨_, by simp only [bindDecl], fun _ => declareFirst_plays exported rfl⟩
  | _ => cases h

/-- Binding an item that declares a type makes its additions, and no view. -/
theorem bindItem_plays (h : item.additions? = some log) : ∃ step : Binding Unit,
    bindItem file aliases y item = (step >>= fun _ => pure []) ∧ ∀ index, Plays index y step log := by
  obtain ⟨leading, kind⟩ := item
  cases kind with
  | declaration decl =>
    obtain ⟨⟨name, kind⟩, htype, rfl⟩ := Option.map_eq_some_iff.1 h
    obtain ⟨step, hstep, hplays⟩ := bindDecl_plays file aliases y htype false leading
    exact ⟨step, by rw [← hstep, bindItem], hplays⟩
  | exportDecl decl =>
    obtain ⟨⟨name, kind⟩, htype, rfl⟩ := Option.map_eq_some_iff.1 h
    obtain ⟨step, hstep, hplays⟩ := bindDecl_plays file aliases y htype true leading
    exact ⟨step, by rw [← hstep, bindItem], hplays⟩
  | exportDefaultInterface name members =>
    obtain rfl := Option.some.inj h
    refine ⟨do
      declareInterface y name members false
      addExport y defaultExportName (.own name), ?_, fun index => ?_⟩
    · simp only [bindItem, bind_assoc]
    · exact Plays.cons (declareInterface_plays members) (addExport_plays _)
  | _ => cases h

/-- Its names are noted. -/
theorem notes_of_additions (h : item.additions? = some log) (spot : Spot) :
    item.notes spot = spot.noting (log.map Addition.note) := by
  have hdecl : ∀ {decl : Decl} {name : String} {kind : TypeDeclKind} (exported : Bool),
      decl.type? = some (name, kind) →
        decl.notes spot exported = spot.noting (.declares name :: exportNotes exported name) := by
    intro decl name kind exported htype
    cases decl with
    | interface | typeAlias | enum =>
      obtain ⟨rfl, rfl⟩ := Prod.mk.inj (Option.some.inj htype)
      rfl
    | _ => cases htype
  obtain ⟨leading, kind⟩ := item
  cases kind with
  | declaration decl | exportDecl decl =>
    obtain ⟨⟨name, kind⟩, htype, rfl⟩ := Option.map_eq_some_iff.1 h
    exact hdecl _ htype
  | exportDefaultInterface name members =>
    obtain rfl := Option.some.inj h
    rfl
  | _ => cases h

end Binding

end ComponentSchema
