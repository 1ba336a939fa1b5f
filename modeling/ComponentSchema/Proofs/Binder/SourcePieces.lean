import ComponentSchema.Proofs.Binder.WellFormedIndex

/-!
# Pieces of source

Of a file the annotations, the function bodies, the declarations and the imports are read later on. Each
of these pieces is written in a spot: inside namespaces, one in another, and outside of them in the file,
or in the global scope if there is a `declare global` block around it.

An index keeps a piece with a scope. Changes of an index lose nothing that is kept, and leave the scope
at a spot where it is (`Index.At`): the scopes around it are those of the namespaces around the spot.
What is written may so be compared with what has been added to the index (`Index.Gains`).

Results.
* `Index.Change.keeps`, `Index.Change.at`: one change at a time.
* `Index.Gains.declare`, `Index.Gains.addBody`, `Index.Gains.addImport`: what one more piece adds.
-/
namespace ComponentSchema

open Syntax Relation

/-! ## Pieces -/

/-- Where a piece is written: the names of the namespaces around it, innermost first, and the scope
outside of them. -/
structure Spot where
  root : ScopeId
  blocks : List String
  deriving DecidableEq, Repr

namespace Spot

/-- Inside no namespace. -/
def top (root : ScopeId) : Spot := ⟨root, []⟩

/-- Inside one more namespace. -/
def enter (spot : Spot) (name : String) : Spot := { spot with blocks := name :: spot.blocks }

/-- Inside a block: whatever is written in a `declare global` block is global. -/
def within (spot : Spot) : NamespaceName → Spot
  | .identifier name => spot.enter name
  | .string name => spot.enter name
  | .global => .top globalScope

/-- Pieces that are written in the same spot. -/
def holding (spot : Spot) (pieces : List Piece) : List (Spot × Piece) := pieces.map (spot, ·)

variable (spot : Spot)

@[simp] theorem holding_nil : spot.holding [] = [] := rfl

@[simp] theorem holding_cons (piece : Piece) (pieces : List Piece) :
    spot.holding (piece :: pieces) = (spot, piece) :: spot.holding pieces := rfl

@[simp] theorem holding_append (pieces others : List Piece) :
    spot.holding (pieces ++ others) = spot.holding pieces ++ spot.holding others :=
  List.map_append

theorem holding_flatMap {ι : Type} (items : List ι) (pieces : ι → List Piece) :
    spot.holding (items.flatMap pieces) = items.flatMap fun item => spot.holding (pieces item) :=
  List.map_flatMap

end Spot

/-- What the specifiers of an import bind, if its source is known. -/
def importPieces (file : ModuleFile) (source : StringLiteral) (specifiers : List ImportSpecifier) :
    List Piece :=
  match file.dependency? source with
  | none => []
  | some module => specifiers.map fun specifier =>
      .imports (Binding.importBinding module specifier).1 (Binding.importBinding module specifier).2

mutual

/-- The pieces of a declaration, each in its spot. -/
def Syntax.Decl.writes (file : ModuleFile) (spot : Spot) : Decl → List (Spot × Piece)
  | .function _ definition => spot.holding definition.pieces
  | .variables declarators => spot.holding (declarators.flatMap Declarator.pieces)
  | .classDecl name _ => [(spot, .declares name .nominal)]
  | .interface name members => [(spot, .declares name (.interface [members]))]
  | .typeAlias name type => [(spot, .declares name (.typeAlias type))]
  | .enum name => [(spot, .declares name .nominal)]
  | .namespaceDecl name body => body.writes file (spot.within name)
  | .other => []

/-- The pieces of the body of a namespace. -/
def Syntax.NamespaceBody.writes (file : ModuleFile) (spot : Spot) : NamespaceBody → List (Spot × Piece)
  | .absent => []
  | .nested name body => body.writes file (spot.enter name)
  | .items items => writesAll file spot items

/-- The pieces of several items. -/
def Syntax.writesAll (file : ModuleFile) (spot : Spot) : List Item → List (Spot × Piece)
  | [] => []
  | item :: rest => item.writes file spot ++ writesAll file spot rest

/-- The pieces of an item. -/
def Syntax.Item.writes (file : ModuleFile) (spot : Spot) : Item → List (Spot × Piece)
  | ⟨_, .declaration decl⟩ => decl.writes file spot
  | ⟨_, .exportDecl decl⟩ => decl.writes file spot
  | ⟨_, .exportDefaultFunction _ definition⟩ => spot.holding definition.pieces
  | ⟨_, .exportDefaultClass (some name) _⟩ => [(spot, .declares name .nominal)]
  | ⟨_, .exportDefaultInterface name members⟩ => [(spot, .declares name (.interface [members]))]
  | ⟨_, .imports source specifiers⟩ => spot.holding (importPieces file source specifiers)
  | _ => []

end

/-- The pieces of a file, given its scope. -/
def ModuleFile.writes (file : ModuleFile) (root : ScopeId) : List (Spot × Piece) :=
  writesAll file (.top root) file.tree.items

/-! ## What is kept -/

/-- Whether a declaration takes further bodies. -/
def TypeDeclKind.isInterface : TypeDeclKind → Bool
  | .interface _ => true
  | _ => false

/-- The declarations that a declaration is merged from. -/
def TypeDeclKind.parts : TypeDeclKind → List TypeDeclKind
  | .interface bodies => bodies.map fun members => .interface [members]
  | kind => [kind]

namespace Index

variable {index index' index'' : Index} {x y root : ScopeId} {spot : Spot} {piece : Piece}
  {written written' : List (Spot × Piece)} {M : ModuleId → Prop} {name : String}

/-- A piece is kept with a scope. -/
def Keeps (index : Index) (x : ScopeId) : Piece → Prop
  | .type type => ⟨x, type⟩ ∈ index.typeSites
  | .body body => ∃ site ∈ index.functionSites, site.scope = x ∧ site.body = some body
  | .declares name kind => ∃ decl ∈ index.decls, decl.name = name ∧ decl.scope = x ∧
      kind ∈ decl.kind.parts
  | .imports name binding => (name, binding) ∈ (index.scope x).imports

/-- A declaration is given up, because there is one of the same name in the scope, and the two are not
both interfaces. -/
def GivesUp (index : Index) (x : ScopeId) : Piece → Prop
  | .declares name kind => ∃ decl ∈ index.decls, decl.name = name ∧ decl.scope = x ∧
      (kind.isInterface && decl.kind.isInterface) = false
  | _ => False

/-- A declaration is kept or given up where there is one of its name. -/
theorem exists_decl {kind : TypeDeclKind} (h : index.Keeps x (.declares name kind) ∨
    index.GivesUp x (.declares name kind)) :
    ∃ decl ∈ index.decls, decl.name = name ∧ decl.scope = x := by
  rcases h with ⟨decl, hdecl, hname, hscope, -⟩ | ⟨decl, hdecl, hname, hscope, -⟩
  · exact ⟨decl, hdecl, hname, hscope⟩
  · exact ⟨decl, hdecl, hname, hscope⟩

/-- The scope of a spot: around it there are the scopes of the namespaces around the spot. -/
inductive At (index : Index) : Spot → ScopeId → Prop where
  | top {root : ScopeId} (hroot : index.HasScope root) (hparent : (index.scope root).parent = none) :
    At index (.top root) root
  | enter {spot : Spot} {name : String} {parent x : ScopeId} (hx : index.HasScope x)
    (hname : (index.scope x).name = some name) (hparent : (index.scope x).parent = some parent)
    (houter : At index spot parent) : At index (spot.enter name) x

theorem At.hasScope (h : index.At spot x) : index.HasScope x := by
  cases h <;> assumption

/-! ## Changes of an index -/

theorem Change.at (hchange : Change M index index')
    (h : index.At spot x) : index'.At spot x := by
  induction h with
  | top hroot hparent =>
    exact .top (Nat.lt_of_lt_of_le hroot hchange.size) ((hchange.frame hroot).2.trans hparent)
  | enter hx hname hparent _ ih =>
    obtain ⟨hsame, hsame'⟩ := hchange.frame hx
    exact .enter (Nat.lt_of_lt_of_le hx hchange.size) (hsame.trans hname) (hsame'.trans hparent) ih

theorem Changes.at (hchanges : Changes M index index')
    (h : index.At spot x) : index'.At spot x := by
  induction hchanges with
  | refl => exact h
  | tail _ hchange ih => exact hchange.at ih

/-- The scope of a module stays the same. -/
theorem Change.moduleScope_eq (hchange : Change M index index') {g : ModuleId} (hg : index.HasModule g) :
    index'.moduleScope g = index.moduleScope g := by
  cases hchange with
  | moduleScope =>
    unfold Index.moduleScope
    rw [getElem?_push_of_lt hg]
  | _ => rfl

theorem Changes.moduleScope_eq (hchanges : Changes M index index') {g : ModuleId}
    (hg : index.HasModule g) : index'.moduleScope g = index.moduleScope g := by
  induction hchanges with
  | refl => rfl
  | tail hchanges hchange ih =>
    exact (hchange.moduleScope_eq (Nat.lt_of_lt_of_le hg (Changes.modulesSize hchanges))).trans ih

/-- A declaration that gets another body is an interface, and this is its last part. -/
theorem addBody?_parts {decl decl' : TypeDecl} {members : List TypeMember}
    (h : decl.addBody? members = some decl') : decl'.kind.isInterface = decl.kind.isInterface ∧
      decl'.kind.parts = decl.kind.parts ++ [.interface [members]] := by
  unfold TypeDecl.addBody? at h
  split at h
  · rename_i bodies hkind
    obtain rfl := Option.some.inj h
    rw [hkind]
    exact ⟨rfl, List.map_append⟩
  · cases h

/-- What is declared stays declared, and may get more parts. -/
theorem Change.decls (hchange : Change M index index') {decl : TypeDecl} (h : decl ∈ index.decls) :
    ∃ decl' ∈ index'.decls, decl'.name = decl.name ∧ decl'.scope = decl.scope ∧
      decl'.kind.isInterface = decl.kind.isInterface ∧
        ∀ part ∈ decl.kind.parts, part ∈ decl'.kind.parts := by
  have hsame : decl ∈ index'.decls → ∃ decl' ∈ index'.decls, decl'.name = decl.name ∧
      decl'.scope = decl.scope ∧ decl'.kind.isInterface = decl.kind.isInterface ∧
        ∀ part ∈ decl.kind.parts, part ∈ decl'.kind.parts :=
    fun hmem => ⟨decl, hmem, rfl, rfl, rfl, fun _ => id⟩
  cases hchange with
  | newScope | moduleScope | addNamespace | addExport | addImport | addStarExport | typeSite
  | functionSite | classSite => exact hsame h
  | declare => exact hsame (Array.mem_push_of_mem _ h)
  | @addBody id old new members hold hbody =>
    obtain ⟨i, hi⟩ := Array.mem_iff_getElem?.1 h
    have hmodified : (index.decls.modify id.index fun _ => new)[i]? =
        if id.index = i then some new else some decl := by
      rw [Array.getElem?_modify, hi]
      split <;> rfl
    by_cases heq : id.index = i
    · obtain rfl : old = decl := Option.some.inj ((heq ▸ hold).symm.trans hi)
      rw [if_pos heq] at hmodified
      obtain ⟨hname, hscope⟩ := addBody?_same hbody
      obtain ⟨hkind, hparts⟩ := addBody?_parts hbody
      refine ⟨new, Array.mem_of_getElem? hmodified, hname, hscope, hkind, fun part hpart => ?_⟩
      rw [hparts]
      exact List.mem_append_left _ hpart
    · rw [if_neg heq] at hmodified
      exact hsame (Array.mem_of_getElem? hmodified)

theorem imports_modifyScope (hx : index.HasScope x) {change : Scope → Scope}
    (hchange : ∀ data, ∀ entry ∈ data.imports, entry ∈ (change data).imports) (z : ScopeId) :
    ∀ entry ∈ (index.scope z).imports, entry ∈ ((index.modifyScope x change).scope z).imports := by
  intro entry hentry
  rw [scope_modify index z change hx]
  split
  · rename_i hzx
    exact hchange _ _ (hzx ▸ hentry)
  · exact hentry

/-- What a scope imports stays imported. -/
theorem Change.imports (hchange : Change M index index') (z : ScopeId) :
    ∀ entry ∈ (index.scope z).imports, entry ∈ (index'.scope z).imports := by
  cases hchange with
  | @newScope _ name parent =>
    intro entry hentry
    rw [scope_push]
    split
    · rename_i hz
      rw [scope, Array.getElem?_eq_none (Nat.le_of_eq hz.symm)] at hentry
      cases hentry
    · exact hentry
  | moduleScope | addBody | typeSite | functionSite | classSite => exact fun _ => id
  | addNamespace hx | addStarExport hx | declare hx =>
    refine imports_modifyScope hx ?_ z
    exact fun _ _ => id
  | addExport hx =>
    refine imports_modifyScope hx (fun data entry hentry => ?_) z
    split <;> exact hentry
  | addImport hx =>
    refine imports_modifyScope hx ?_ z
    exact fun _ _ => List.mem_cons_of_mem _

/-- Nothing that is kept is lost. -/
theorem Change.keeps (hchange : Change M index index') (h : index.Keeps x piece) :
    index'.Keeps x piece := by
  cases piece with
  | type type =>
    cases hchange with
    | typeSite => exact Array.mem_push_of_mem _ h
    | _ => exact h
  | body body =>
    obtain ⟨site, hsite, hbody⟩ := h
    refine ⟨site, ?_, hbody⟩
    cases hchange with
    | functionSite => exact Array.mem_push_of_mem _ hsite
    | _ => exact hsite
  | declares name kind =>
    obtain ⟨decl, hdecl, hname, hscope, hpart⟩ := h
    obtain ⟨decl', hdecl', hname', hscope', -, hparts⟩ := hchange.decls hdecl
    exact ⟨decl', hdecl', hname'.trans hname, hscope'.trans hscope, hparts _ hpart⟩
  | imports name binding => exact hchange.imports x _ h

theorem Change.givesUp (hchange : Change M index index') (h : index.GivesUp x piece) :
    index'.GivesUp x piece := by
  cases piece with
  | declares name kind =>
    obtain ⟨decl, hdecl, hname, hscope, hkind⟩ := h
    obtain ⟨decl', hdecl', hname', hscope', hkind', -⟩ := hchange.decls hdecl
    exact ⟨decl', hdecl', hname'.trans hname, hscope'.trans hscope, hkind' ▸ hkind⟩
  | type | body | imports => exact h

theorem Changes.settled (hchanges : Changes M index index')
    (h : index.Keeps x piece ∨ index.GivesUp x piece) : index'.Keeps x piece ∨ index'.GivesUp x piece := by
  induction hchanges with
  | refl => exact h
  | tail _ hchange ih => exact ih.imp hchange.keeps hchange.givesUp

/-- The global scope stands in no other. -/
theorem Bound.at_global (h : Bound M index) : index.At (.top globalScope) globalScope := by
  refine .top h.nested.global (Option.eq_none_iff_forall_not_mem.2 fun p hp => ?_)
  exact Nat.not_lt_zero _ (h.nested.parent hp)

/-! ## What is added -/

/-- From one index to another by binding what is written: nothing else is kept that was not kept before,
and all of it is, each piece with the scope of its spot. -/
structure Gains (index index' : Index) (written : List (Spot × Piece)) : Prop where
  changes : Changes (fun _ => True) index index'
  sound : ∀ x piece, index'.Keeps x piece → index.Keeps x piece ∨
    ∃ spot, (spot, piece) ∈ written ∧ index'.At spot x
  complete : ∀ spot piece, (spot, piece) ∈ written →
    ∃ x, index'.At spot x ∧ (index'.Keeps x piece ∨ index'.GivesUp x piece)

theorem Gains.refl (index : Index) : Gains index index [] :=
  ⟨.refl, fun _ _ => .inl, fun _ _ h => nomatch h⟩

theorem Gains.trans (h : Gains index index' written) (h' : Gains index' index'' written') :
    Gains index index'' (written ++ written') where
  changes := h.changes.trans h'.changes
  sound x piece hkeeps := by
    rcases h'.sound x piece hkeeps with hkeeps | ⟨spot, hmem, hat⟩
    · rcases h.sound x piece hkeeps with hkeeps | ⟨spot, hmem, hat⟩
      · exact .inl hkeeps
      · exact .inr ⟨spot, List.mem_append_left _ hmem, h'.changes.at hat⟩
    · exact .inr ⟨spot, List.mem_append_right _ hmem, hat⟩
  complete spot piece hmem := by
    rcases List.mem_append.1 hmem with hmem | hmem
    · obtain ⟨x, hat, hsettled⟩ := h.complete spot piece hmem
      exact ⟨x, h'.changes.at hat, h'.changes.settled hsettled⟩
    · exact h'.complete spot piece hmem

/-- A change after which nothing new is kept. -/
theorem Gains.quiet (hchange : Change (fun _ => True) index index')
    (h : ∀ x piece, index'.Keeps x piece → index.Keeps x piece) : Gains index index' [] :=
  ⟨.single hchange, fun x piece hkeeps => .inl (h x piece hkeeps), fun _ _ h => nomatch h⟩

/-- A change after which one more piece is kept, with the scope of its spot. -/
theorem Gains.one (hchange : Change (fun _ => True) index index')
    (hat : index.At spot x) (hkept : index'.Keeps x piece)
    (h : ∀ y other, index'.Keeps y other → index.Keeps y other ∨ y = x ∧ other = piece) :
    Gains index index' [(spot, piece)] := by
  refine ⟨.single hchange, fun y other hkeeps => ?_, fun other piece' hmem => ?_⟩
  · rcases h y other hkeeps with hkeeps | ⟨rfl, rfl⟩
    · exact .inl hkeeps
    · exact .inr ⟨spot, List.mem_singleton_self _, hchange.at hat⟩
  · obtain ⟨rfl, rfl⟩ := Prod.mk.inj (List.mem_singleton.1 hmem)
    exact ⟨x, hchange.at hat, .inl hkept⟩

/-- A piece that is given up adds nothing. -/
theorem Gains.givenUp (hat : index.At spot x) (h : index.GivesUp x piece) :
    Gains index index [(spot, piece)] := by
  refine ⟨.refl, fun _ _ => .inl, fun other piece' hmem => ?_⟩
  obtain ⟨rfl, rfl⟩ := Prod.mk.inj (List.mem_singleton.1 hmem)
  exact ⟨x, hat, .inr h⟩

/-- Another body of an interface is one more part of it. -/
theorem Gains.addBody {id : DeclId} {kind : TypeDeclKind} {decl : TypeDecl} {members : List TypeMember}
    (hat : index.At spot x) (hdecl : index.decls[id.index]? = some ⟨name, x, kind⟩)
    (hbody : TypeDecl.addBody? ⟨name, x, kind⟩ members = some decl) :
    Gains index { index with decls := index.decls.modify id.index fun _ => decl }
      [(spot, .declares name (.interface [members]))] := by
  obtain ⟨hname, hscope⟩ := addBody?_same hbody
  obtain ⟨-, hparts⟩ := addBody?_parts hbody
  refine .one (.addBody hdecl hbody) hat ⟨decl, ?_, hname, hscope, ?_⟩ fun y other hkeeps => ?_
  · refine Array.mem_of_getElem? (i := id.index) ?_
    rw [Array.getElem?_modify, if_pos rfl, hdecl]
    rfl
  · rw [hparts]
    exact List.mem_append_right _ (List.mem_singleton_self _)
  · cases other with
    | type | body | imports => exact .inl hkeeps
    | declares other part =>
      obtain ⟨decl', hdecl', hname', hscope', hpart⟩ := hkeeps
      obtain ⟨i, hi⟩ := Array.mem_iff_getElem?.1 hdecl'
      rw [Array.getElem?_modify] at hi
      split at hi
      · obtain ⟨old, hold, rfl⟩ := Option.map_eq_some_iff.1 hi
        rw [hparts, List.mem_append, List.mem_singleton] at hpart
        refine hpart.imp (fun hpart => ?_) fun hpart => ?_
        · exact ⟨_, Array.mem_of_getElem? hdecl, hname.symm.trans hname', hscope.symm.trans hscope', hpart⟩
        · exact ⟨hscope'.symm.trans hscope, by rw [← hname', hname, hpart]⟩
      · exact .inl ⟨decl', Array.mem_of_getElem? hi, hname', hscope', hpart⟩

/-- What takes no further body is no interface. -/
theorem isInterface_of_addBody? {decl : TypeDecl} {members : List TypeMember}
    (h : decl.addBody? members = none) : decl.kind.isInterface = false := by
  unfold TypeDecl.addBody? at h
  split at h
  · cases h
  · rename_i hkind
    cases heq : decl.kind with
    | interface bodies => exact absurd heq (hkind bodies)
    | typeAlias | nominal => rfl

/-- No change to a scope that leaves its imports as they are makes anything kept. -/
theorem keeps_modifyScope (hx : index.HasScope x) {change : Scope → Scope}
    (hchange : ∀ data, (change data).imports = data.imports) (z : ScopeId) (piece : Piece)
    (h : (index.modifyScope x change).Keeps z piece) : index.Keeps z piece := by
  cases piece with
  | type | body | declares => exact h
  | imports name binding =>
    rw [Keeps, scope_modify index z change hx] at h
    split at h
    · rename_i hzx
      rwa [hchange, ← hzx] at h
    · exact h

/-- A scope that is made imports nothing. -/
theorem keeps_pushScope {data : Scope} (hdata : data.imports = []) (z : ScopeId) (piece : Piece)
    (h : (index.pushScope data).Keeps z piece) : index.Keeps z piece := by
  cases piece with
  | type | body | declares => exact h
  | imports name binding =>
    rw [Keeps, scope_push] at h
    split at h
    · rw [hdata] at h
      cases h
    · exact h

theorem Gains.addImport (hat : index.At spot x) (name : String)
    (binding : ImportBinding) :
    Gains index (index.modifyScope x fun data =>
      { data with imports := (name, binding) :: data.imports }) [(spot, .imports name binding)] := by
  have hscope := fun z => scope_modify index z
    (fun data => { data with imports := (name, binding) :: data.imports }) hat.hasScope
  refine .one (.addImport hat.hasScope name binding trivial) hat ?_ fun y other hkeeps => ?_
  · rw [Keeps, hscope, if_pos rfl]
    exact List.mem_cons_self ..
  · cases other with
    | type | body | declares => exact .inl hkeeps
    | imports name' binding' =>
      rw [Keeps, hscope] at hkeeps
      split at hkeeps
      · rename_i hyx
        refine (List.mem_cons.1 hkeeps).symm.imp (fun hold => hyx ▸ hold) fun heq => ⟨hyx, ?_⟩
        obtain ⟨rfl, rfl⟩ := Prod.mk.inj heq
        rfl
      · exact .inl hkeeps

/-- A new declaration is a part of its own. -/
theorem Gains.declare {kind : TypeDeclKind} (hat : index.At spot x)
    (hnew : (index.scope x).types.lookup name = none) (hparts : kind.parts = [kind]) :
    Gains index ({ index with decls := index.decls.push ⟨name, x, kind⟩ }.modifyScope x fun data =>
      { data with types := (name, ⟨index.decls.size⟩) :: data.types }) [(spot, .declares name kind)] := by
  refine .one (.declare hat.hasScope hnew kind) hat ?_ fun y other hkeeps => ?_
  · exact ⟨_, Array.mem_push_self, rfl, rfl, hparts ▸ List.mem_singleton_self _⟩
  · cases other with
    | type | body => exact .inl hkeeps
    | imports other binding =>
      refine .inl (keeps_modifyScope hat.hasScope ?_ y (.imports other binding) hkeeps)
      exact fun _ => rfl
    | declares other part =>
      obtain ⟨decl, hdecl, hname, hscope, hpart⟩ := hkeeps
      rcases Array.mem_push.1 hdecl with hdecl | rfl
      · exact .inl ⟨decl, hdecl, hname, hscope, hpart⟩
      · rw [hparts, List.mem_singleton] at hpart
        exact .inr ⟨hscope.symm, by rw [← hname, hpart]⟩

end Index

end ComponentSchema
