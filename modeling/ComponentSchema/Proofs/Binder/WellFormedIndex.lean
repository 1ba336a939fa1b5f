import ComponentSchema.Proofs.Checker.QuerySteps
import ComponentSchema.Proofs.Comparison.Counterparts
import ComponentSchema.Proofs.Comparison.RenumberedModules
import ComponentSchema.Proofs.Loader.LoadOrder
import ComponentSchema.Proofs.Lookup.NameDerivations

/-!
# Well-formed indices

Scopes, declarations and modules are referred to by their places in arrays, by the loader, by binding
and by the type questions. In the index of a program every such reference leads somewhere, and where it
should: a scope stands after the one around it, a namespace is entered in the scope that it is nested
in, under its own name, and a declaration is the one that is entered under its name in its scope.
Binding keeps all this up by every change it makes, whichever scopes files and blocks of namespaces
share.

What is read is only what there is: a name leads to the same declaration whatever stands behind the
ends of the arrays.

Results.
* `Index.Change.registered`, `Index.Change.refers` and their like: one change at a time.
* `Modules.bind_wellFormed`: the index of every program whose files refer to files of the program.
* `Index.WellFormed.lookup_pad`: nothing behind the ends of the arrays is read.
-/
namespace ComponentSchema

open Syntax Relation

/-- A scope imports from modules of `M`, and what it exports from modules is from those of `M`. -/
structure Scope.Refers (data : Scope) (M : ModuleId → Prop) : Prop where
  imports : ∀ entry ∈ data.imports, M entry.2.source
  exports : ∀ entry ∈ data.exports, ∀ g ∈ entry.2.source?, M g
  starExports : ∀ g ∈ data.starExports, M g

theorem Scope.Refers.empty (name : Option String) (parent : Option ScopeId) (M : ModuleId → Prop) :
    (Scope.empty name parent).Refers M := by
  constructor <;> simp [Scope.empty]

namespace Index

variable {index index' : Index} {x z : ScopeId} {M : ModuleId → Prop}

/-- There is such a scope. -/
def HasScope (index : Index) (x : ScopeId) : Prop := x.index < index.scopes.size

/-- There is such a module, and it has a scope. -/
def HasModule (index : Index) (g : ModuleId) : Prop := g.index < index.moduleScopes.size

/-! ## Scopes that change -/

/-- What holds of every scope holds after one of them has changed. -/
theorem forall_modifyScope (P : ScopeId → Scope → Prop) {change : Scope → Scope} (hx : index.HasScope x)
    (h : ∀ z, P z (index.scope z)) (hchange : P x (index.scope x) → P x (change (index.scope x))) :
    ∀ z, P z ((index.modifyScope x change).scope z) := by
  intro z
  rw [scope_modify index z change hx]
  split
  · rename_i hzx
    exact hzx ▸ hchange (h x)
  · exact h z

/-- What holds of every scope holds after one has been made. -/
theorem forall_pushScope (P : ScopeId → Scope → Prop) {data : Scope} (h : ∀ z, P z (index.scope z))
    (hnew : P ⟨index.scopes.size⟩ data) : ∀ z, P z ((index.pushScope data).scope z) := by
  rintro ⟨i⟩
  rw [scope_push]
  split
  · rename_i hi
    obtain rfl : i = index.scopes.size := hi
    exact hnew
  · exact h ⟨i⟩

/-- A scope keeps its name, and stays in the scope around it. -/
theorem Change.frame (hchange : Change M index index') (hx : index.HasScope x) :
    (index'.scope x).name = (index.scope x).name ∧
      (index'.scope x).parent = (index.scope x).parent := by
  have hmodified : ∀ {y : ScopeId} {change : Scope → Scope}, index.HasScope y →
      (∀ data, (change data).name = data.name ∧ (change data).parent = data.parent) →
      ((index.modifyScope y change).scope x).name = (index.scope x).name ∧
        ((index.modifyScope y change).scope x).parent = (index.scope x).parent := by
    intro y change hy hsame
    rw [scope_modify index x change hy]
    split
    · rename_i hxy
      exact hxy ▸ hsame _
    · exact ⟨rfl, rfl⟩
  cases hchange with
  | newScope =>
    rw [scope_push, if_neg (Nat.ne_of_lt hx)]
    exact ⟨rfl, rfl⟩
  | moduleScope | addBody | typeSite | functionSite | classSite => exact ⟨rfl, rfl⟩
  | addNamespace hy | addImport hy | addStarExport hy => exact hmodified hy fun _ => ⟨rfl, rfl⟩
  | declare hy => exact hmodified hy fun _ => ⟨rfl, rfl⟩
  | addExport hy => exact hmodified hy fun data => by split <;> exact ⟨rfl, rfl⟩

theorem Changes.frame (hchanges : Changes M index index') {x : ScopeId} (hx : index.HasScope x) :
    (index'.scope x).name = (index.scope x).name ∧ (index'.scope x).parent = (index.scope x).parent := by
  induction hchanges with
  | refl => exact ⟨rfl, rfl⟩
  | tail hchanges hchange ih =>
    obtain ⟨hname, hparent⟩ := hchange.frame (Nat.lt_of_lt_of_le hx (Changes.size hchanges))
    exact ⟨hname.trans ih.1, hparent.trans ih.2⟩

/-! ## Namespaces -/

/-- A new scope has no namespaces. -/
theorem namespaces_pushScope (index : Index) (z : ScopeId) (name : Option String)
    (parent : Option ScopeId) :
    ((index.pushScope (Scope.empty name parent)).scope z).namespaces = (index.scope z).namespaces := by
  rw [scope_push]
  split
  · rename_i hz
    simp [Index.scope, hz, Scope.empty]
  · rfl

/-- The namespaces of a scope have the names they are entered under, and are nested in the scope. -/
def Enters (index : Index) (x : ScopeId) (data : Scope) : Prop :=
  ∀ entry ∈ data.namespaces,
    (index.scope entry.2).name = some entry.1 ∧ (index.scope entry.2).parent = some x

theorem Change.enters (hchange : Change M index index') (hn : index.Nested)
    (h : ∀ x, index.Enters x (index.scope x)) : ∀ x, index'.Enters x (index'.scope x) := by
  have hframe : ∀ {x : ScopeId}, index.HasScope x → (index'.scope x).name = (index.scope x).name ∧
      (index'.scope x).parent = (index.scope x).parent := hchange.frame
  -- The scopes that are entered keep their names and places.
  have hold : ∀ x, index'.Enters x (index.scope x) := by
    intro x entry hentry
    obtain ⟨hname, hparent⟩ := hframe (hn.namespaces hentry)
    rw [hname, hparent]
    exact h x entry hentry
  cases hchange with
  | newScope => exact forall_pushScope (Enters _) hold (by simp [Enters, Scope.empty])
  | moduleScope | addBody | typeSite | functionSite | classSite => exact hold
  | addImport hx | addStarExport hx => exact forall_modifyScope (Enters _) hx hold id
  | declare hx => exact forall_modifyScope (Enters _) hx hold id
  | addExport hx =>
    refine forall_modifyScope (Enters _) hx hold fun hx => ?_
    split <;> exact hx
  | addNamespace hx hinner hname hparent =>
    refine forall_modifyScope (Enters _) hx hold fun hx => List.forall_mem_cons.2 ⟨?_, hx⟩
    obtain ⟨hsame, hsame'⟩ := hframe hinner
    exact ⟨hsame.trans hname, hsame'.trans hparent⟩

/-! ## Imports and exports -/

theorem Change.refers (hchange : Change M index index') (h : ∀ x, (index.scope x).Refers M) :
    ∀ x, (index'.scope x).Refers M := by
  cases hchange with
  | newScope => exact forall_pushScope (fun _ data => data.Refers M) h (.empty ..)
  | moduleScope | addBody | typeSite | functionSite | classSite => exact h
  | addNamespace hx => exact forall_modifyScope (fun _ data => data.Refers M) hx h fun hx => { hx with }
  | declare hx => exact forall_modifyScope (fun _ data => data.Refers M) hx h fun hx => { hx with }
  | addExport hx name binding hsource =>
    refine forall_modifyScope (fun _ data => data.Refers M) hx h fun hx => ?_
    split
    · exact hx
    · exact { hx with exports := List.forall_mem_cons.2 ⟨hsource, hx.exports⟩ }
  | addImport hx name binding hsource =>
    refine forall_modifyScope (fun _ data => data.Refers M) hx h fun hx => ?_
    exact { hx with imports := List.forall_mem_cons.2 ⟨hsource, hx.imports⟩ }
  | addStarExport hx g hsource =>
    refine forall_modifyScope (fun _ data => data.Refers M) hx h fun hx =>
      { hx with starExports := fun g' hg' => ?_ }
    rcases List.mem_append.1 hg' with hold | hnew
    · exact hx.starExports g' hold
    · exact List.mem_singleton.1 hnew ▸ hsource

/-! ## Declarations -/

/-- The types of a scope are declared in it, under the names they are entered under. -/
def Declares (index : Index) (x : ScopeId) (data : Scope) : Prop :=
  ∀ entry ∈ data.types, ∃ kind, index.decls[entry.2.index]? = some ⟨entry.1, x, kind⟩

/-- Scopes and declarations agree: what is entered in a scope is declared in it, and a declaration is
what is entered under its name in its scope. -/
structure Registered (index : Index) : Prop where
  declares : ∀ x, index.Declares x (index.scope x)
  entered : ∀ (d : DeclId) (decl : TypeDecl), index.decls[d.index]? = some decl →
    index.HasScope decl.scope ∧ (index.scope decl.scope).types.lookup decl.name = some d

theorem Registered.modifyScope (h : index.Registered) (hx : index.HasScope x)
    {change : Scope → Scope} (hsame : ∀ data, (change data).types = data.types) :
    (index.modifyScope x change).Registered where
  declares := forall_modifyScope (Declares _) hx h.declares fun hold => by rwa [Declares, hsame]
  entered d decl hdecl := by
    obtain ⟨hscope, hlook⟩ := h.entered d decl hdecl
    refine ⟨by rwa [HasScope, Array.size_modify], ?_⟩
    rw [scope_modify index _ change hx]
    split
    · rename_i heq
      rw [hsame, ← heq]
      exact hlook
    · exact hlook

/-- A declaration that gets another body keeps its name and its scope. -/
theorem addBody?_same {decl decl' : TypeDecl} {members : List TypeMember}
    (h : decl.addBody? members = some decl') : decl'.name = decl.name ∧ decl'.scope = decl.scope := by
  unfold TypeDecl.addBody? at h
  split at h
  · obtain rfl := Option.some.inj h
    exact ⟨rfl, rfl⟩
  · cases h

theorem Registered.addBody (h : index.Registered) {id : DeclId} {decl decl' : TypeDecl}
    (hdecl : index.decls[id.index]? = some decl) (hname : decl'.name = decl.name)
    (hscope : decl'.scope = decl.scope) :
    Registered { index with decls := index.decls.modify id.index fun _ => decl' } where
  declares x entry hentry := by
    obtain ⟨kind, hold⟩ := h.declares x entry hentry
    show ∃ kind, (index.decls.modify id.index fun _ => decl')[entry.2.index]? = _
    rw [Array.getElem?_modify]
    split
    · rename_i heq
      obtain rfl := Option.some.inj (hdecl.symm.trans (heq ▸ hold))
      rw [hold]
      exact ⟨decl'.kind, by rw [Option.map_some]; cases decl'; simp_all⟩
    · exact ⟨kind, hold⟩
  entered d other hother := by
    rw [Array.getElem?_modify] at hother
    split at hother
    · rename_i heq
      obtain ⟨old, hold, rfl⟩ := Option.map_eq_some_iff.1 hother
      obtain rfl := Option.some.inj (hdecl.symm.trans (heq ▸ hold))
      rw [hscope, hname]
      exact h.entered d decl hold
    · exact h.entered d other hother

theorem Registered.declare (h : index.Registered) (hx : index.HasScope x) {name : String}
    (hnew : (index.scope x).types.lookup name = none) (kind : TypeDeclKind) :
    Registered ({ index with decls := index.decls.push ⟨name, x, kind⟩ }.modifyScope x fun data =>
      { data with types := (name, ⟨index.decls.size⟩) :: data.types }) where
  declares := by
    have hlast : (index.decls.push ⟨name, x, kind⟩)[index.decls.size]? = some ⟨name, x, kind⟩ :=
      Array.getElem?_push_size
    have hold : ∀ z, Declares { index with decls := index.decls.push ⟨name, x, kind⟩ } z
        (index.scope z) := by
      intro z entry hentry
      obtain ⟨kind', hdecl⟩ := h.declares z entry hentry
      exact ⟨kind', (getElem?_push_of_lt (lt_size_of_getElem? hdecl)).trans hdecl⟩
    exact forall_modifyScope (Declares _) hx hold fun hx =>
      List.forall_mem_cons.2 ⟨⟨kind, hlast⟩, hx⟩
  entered d decl hdecl := by
    have hmodified := scope_modify index decl.scope
      (fun data => { data with types := (name, ⟨index.decls.size⟩) :: data.types }) hx
    rw [Array.getElem?_push] at hdecl
    split at hdecl
    · rename_i hlast
      obtain rfl := Option.some.inj hdecl
      obtain rfl : d = ⟨index.decls.size⟩ := congrArg DeclId.mk hlast
      refine ⟨by rwa [HasScope, Array.size_modify], ?_⟩
      rw [if_pos rfl] at hmodified
      exact (congrArg (List.lookup name ·.types) hmodified).trans List.lookup_cons_self
    · obtain ⟨hscope, hlook⟩ := h.entered d decl hdecl
      refine ⟨by rwa [HasScope, Array.size_modify], ?_⟩
      refine (congrArg (List.lookup decl.name ·.types) hmodified).trans ?_
      split
      · rename_i heq
        exact (lookup_cons_iff hnew).2 (.inr (heq ▸ hlook))
      · exact hlook

theorem Change.registered (hchange : Change M index index') (h : index.Registered) :
    index'.Registered := by
  cases hchange with
  | newScope =>
    refine ⟨forall_pushScope (Declares _) h.declares ?_, fun d decl hdecl => ?_⟩
    · simp [Declares, Scope.empty]
    · obtain ⟨hscope, hlook⟩ := h.entered d decl hdecl
      refine ⟨by rw [HasScope, Array.size_push]; exact Nat.lt_succ_of_lt hscope, ?_⟩
      rw [scope_push, if_neg (Nat.ne_of_lt hscope)]
      exact hlook
  | moduleScope | typeSite | functionSite | classSite => exact { h with }
  | addNamespace hx | addImport hx | addStarExport hx => exact h.modifyScope hx fun _ => rfl
  | addExport hx => exact h.modifyScope hx fun data => by split <;> rfl
  | declare hx hnew kind => exact h.declare hx hnew kind
  | addBody hdecl hbody =>
    obtain ⟨hname, hscope⟩ := addBody?_same hbody
    exact h.addBody hdecl hname hscope

/-! ## What is declared and kept -/

theorem Scoped.mono {S S' : ScopeId → Prop} (h : index.Scoped S) (himp : ∀ x, S x → S' x) :
    index.Scoped S' :=
  ⟨fun _ hd => himp _ (h.decls _ hd), fun _ hs => himp _ (h.typeSites _ hs),
    fun _ hf => himp _ (h.functionSites _ hf)⟩

/-- Everything that is declared and kept stands in a scope that there is. -/
theorem Change.sites (hchange : Change M index index') (h : index.Scoped index.HasScope) :
    index'.Scoped index'.HasScope := by
  have hold : index.Scoped index'.HasScope :=
    h.mono fun _ hx => Nat.lt_of_lt_of_le hx hchange.size
  have hpushed : ∀ {α : Type} {P : α → Prop} {items : Array α} {item : α}, (∀ i ∈ items, P i) →
      P item → ∀ i ∈ items.push item, P i := by
    intro α P items item hitems hitem i hi
    rcases Array.mem_push.1 hi with hi | rfl
    · exact hitems i hi
    · exact hitem
  cases hchange with
  | newScope | moduleScope | classSite => exact { hold with }
  | addNamespace | addImport | addStarExport | addExport => exact { hold with }
  | declare hx =>
    exact { hold with decls := hpushed hold.decls (by rwa [HasScope, Array.size_modify]) }
  | @addBody id decl decl' members hdecl hbody =>
    refine { hold with decls := fun other hother => ?_ }
    obtain ⟨i, hi⟩ := Array.mem_iff_getElem?.1 hother
    rw [Array.getElem?_modify] at hi
    split at hi
    · obtain ⟨old, hget, rfl⟩ := Option.map_eq_some_iff.1 hi
      rw [(addBody?_same hbody).2]
      exact hold.decls decl (Array.mem_of_getElem? hdecl)
    · exact hold.decls other (Array.mem_of_getElem? hi)
  | typeSite hx => exact { hold with typeSites := hpushed hold.typeSites hx }
  | functionSite hx => exact { hold with functionSites := hpushed hold.functionSites hx }

/-! ## Well-formed indices -/

/-- Every reference in an index leads somewhere, and where it should. -/
structure WellFormed (index : Index) : Prop where
  global : index.HasScope globalScope
  modules : ∀ x ∈ index.moduleScopes, index.HasScope x
  parents : ∀ x p, (index.scope x).parent = some p → p.index < x.index
  namespaces : ∀ x, ∀ entry ∈ (index.scope x).namespaces, index.HasScope entry.2 ∧
    (index.scope entry.2).name = some entry.1 ∧ (index.scope entry.2).parent = some x
  types : ∀ x, ∀ entry ∈ (index.scope x).types,
    ∃ kind, index.decls[entry.2.index]? = some ⟨entry.1, x, kind⟩
  decls : ∀ (d : DeclId) (decl : TypeDecl), index.decls[d.index]? = some decl →
    index.HasScope decl.scope ∧ (index.scope decl.scope).types.lookup decl.name = some d
  imports : ∀ x, ∀ entry ∈ (index.scope x).imports, index.HasModule entry.2.source
  exports : ∀ x, ∀ entry ∈ (index.scope x).exports, ∀ g ∈ entry.2.source?, index.HasModule g
  starExports : ∀ x, ∀ g ∈ (index.scope x).starExports, index.HasModule g
  typeSites : ∀ site ∈ index.typeSites, index.HasScope site.scope
  functionSites : ∀ site ∈ index.functionSites, index.HasScope site.scope

/-- What binding keeps up by every change; modules are referred to before all of them have scopes. -/
structure Bound (M : ModuleId → Prop) (index : Index) : Prop where
  nested : index.Nested
  enters : ∀ x, index.Enters x (index.scope x)
  refers : ∀ x, (index.scope x).Refers M
  registered : index.Registered
  sites : index.Scoped index.HasScope

theorem scope_empty (x : ScopeId) : Index.empty.scope x = Scope.empty none none := by
  obtain ⟨_ | i⟩ := x <;> rfl

theorem Bound.empty (M : ModuleId → Prop) : Bound M Index.empty where
  nested := .empty
  enters x := by simp [Enters, scope_empty, Scope.empty]
  refers x := by
    rw [scope_empty]
    exact .empty ..
  registered := ⟨fun x => by simp [Declares, scope_empty, Scope.empty], by simp [Index.empty]⟩
  sites := by constructor <;> simp [Index.empty]

theorem Change.bound (hchange : Change M index index') (h : Bound M index) : Bound M index' :=
  ⟨hchange.nested h.nested, hchange.enters h.nested h.enters, hchange.refers h.refers,
    hchange.registered h.registered, hchange.sites h.sites⟩

theorem Changes.bound (hchanges : Changes M index index') (h : Bound M index) : Bound M index' := by
  induction hchanges with
  | refl => exact h
  | tail _ hchange ih => exact hchange.bound ih

theorem Bound.wellFormed (h : Bound M index) (hmodules : ∀ g, M g → index.HasModule g) :
    index.WellFormed where
  global := h.nested.global
  modules := h.nested.modules
  parents _ _ := h.nested.parent
  namespaces x entry hentry := ⟨h.nested.namespaces hentry, h.enters x entry hentry⟩
  types := h.registered.declares
  decls := h.registered.entered
  imports x entry hentry := hmodules _ ((h.refers x).imports entry hentry)
  exports x entry hentry g hg := hmodules g ((h.refers x).exports entry hentry g hg)
  starExports x g hg := hmodules g ((h.refers x).starExports g hg)
  typeSites := h.sites.typeSites
  functionSites := h.sites.functionSites

theorem Change.modulesSize (hchange : Change M index index') :
    index.moduleScopes.size ≤ index'.moduleScopes.size := by
  cases hchange with
  | moduleScope => simp
  | _ => exact Nat.le_refl _

theorem Changes.modulesSize (hchanges : Changes M index index') :
    index.moduleScopes.size ≤ index'.moduleScopes.size := by
  induction hchanges with
  | refl => exact Nat.le_refl _
  | tail _ hchange ih => exact Nat.le_trans ih hchange.modulesSize

/-! ## What is read -/

/-- The index with anything behind the ends of its arrays of scopes. -/
def pad (index : Index) (scopes : Array Scope) (moduleScopes : Array ScopeId) : Index :=
  { index with scopes := index.scopes ++ scopes, moduleScopes := index.moduleScopes ++ moduleScopes }

variable {scopes : Array Scope} {moduleScopes : Array ScopeId}

theorem scope_pad (hx : index.HasScope x) :
    (index.pad scopes moduleScopes).scope x = index.scope x := by
  unfold scope pad
  rw [Array.getElem?_append_left hx]

theorem moduleScope_pad {g : ModuleId} (hg : index.HasModule g) :
    (index.pad scopes moduleScopes).moduleScope g = index.moduleScope g := by
  unfold moduleScope pad
  rw [Array.getElem?_append_left hg]

/-- What there is in an index is its own counterpart. -/
def present (index : Index) : Counterparts where
  module g h := index.HasModule g ∧ g = h
  scope x y := index.HasScope x ∧ x = y
  decl d e := d.index < index.decls.size ∧ d = e
  node := Eq
  function := Eq
  classSite := Eq

namespace WellFormed

/-- Scopes that there are hold the same, whatever stands behind them, and refer to what there is. -/
theorem sameNames (h : index.WellFormed) (scopes : Array Scope) (moduleScopes : Array ScopeId) :
    index.present.SameNames index (index.pad scopes moduleScopes) where
  scopes := by
    rintro x _ ⟨hx, rfl⟩
    rw [scope_pad hx]
    refine ⟨rfl, ?_, sameEntries_self fun entry hentry => ?_, sameEntries_self fun entry hentry => ?_,
      sameEntries_self fun entry hentry => ?_, sameEntries_self fun entry hentry => ?_,
      List.forall₂_same.2 fun g hg => ⟨h.starExports x g hg, rfl⟩⟩
    · rcases hparent : (index.scope x).parent with _ | p
      · exact .none
      · exact .some ⟨Nat.lt_trans (h.parents x p hparent) hx, rfl⟩
    · obtain ⟨kind, hdecl⟩ := h.types x entry hentry
      exact ⟨lt_size_of_getElem? hdecl, rfl⟩
    · exact ⟨(h.namespaces x entry hentry).1, rfl⟩
    · have hsource := h.imports x entry hentry
      rcases himport : entry.2 with ⟨g, name⟩ | g <;> rw [himport] at hsource
      · exact .named ⟨hsource, rfl⟩
      · exact .all ⟨hsource, rfl⟩
    · have hsource := h.exports x entry hentry
      rcases hexport : entry.2 with name | ⟨g, name⟩ | g <;> rw [hexport] at hsource
      · exact .own
      · exact .reexport ⟨hsource g rfl, rfl⟩
      · exact .all ⟨hsource g rfl, rfl⟩
  modules := by
    rintro g _ ⟨hg, rfl⟩
    rw [moduleScope_pad hg]
    refine ⟨h.modules _ ?_, rfl⟩
    rw [moduleScope, Array.getElem?_eq_getElem hg]
    exact Array.getElem_mem hg

/-- The walk outward from a scope goes on through scopes that there are, and ends. -/
theorem enclosing_pad (h : index.WellFormed) {steps steps' : Nat} (hx : index.HasScope x)
    (hsteps : x.index < steps) (hsteps' : x.index < steps') :
    (index.pad scopes moduleScopes).enclosing steps x = index.enclosing steps' x ∧
      ∀ y ∈ index.enclosing steps' x, index.HasScope y := by
  induction steps generalizing steps' x with
  | zero => omega
  | succ steps ih =>
    obtain ⟨steps', rfl⟩ : ∃ k, steps' = k + 1 := ⟨steps' - 1, by omega⟩
    rw [enclosing, enclosing, scope_pad hx]
    rcases hparent : (index.scope x).parent with _ | p
    · exact ⟨rfl, by simpa using hx⟩
    · have hlt := h.parents x p hparent
      have hp' : p.index < steps' := by omega
      obtain ⟨heq, hall⟩ := ih (Nat.lt_trans hlt hx) (by omega) hp'
      exact ⟨congrArg (x :: ·) heq, List.forall_mem_cons.2 ⟨hx, hall⟩⟩

/-- A name leads to a declaration that there is, and to the same one whatever stands behind the ends
of the arrays. -/
theorem lookup_pad (h : index.WellFormed) (hx : index.HasScope x) (segments : List String) :
    (index.pad scopes moduleScopes).lookup x segments = index.lookup x segments ∧
      ∀ d ∈ index.lookup x segments, d.index < index.decls.size := by
  have hpad : x.index < (index.pad scopes moduleScopes).scopes.size := by
    rw [pad, Array.size_append]
    exact Nat.lt_add_right _ hx
  have hwalks : (index.pad scopes moduleScopes).enclosing (index.pad scopes moduleScopes).scopes.size x =
      index.enclosing index.scopes.size x ∧ _ := h.enclosing_pad hx hpad hx
  have hwalk : List.Forall₂ index.present.scope
      (index.enclosing index.scopes.size x ++ [globalScope])
      ((index.pad scopes moduleScopes).enclosing (index.pad scopes moduleScopes).scopes.size x ++
        [globalScope]) := by
    rw [hwalks.1]
    refine List.forall₂_same.2 fun y hy => ⟨?_, rfl⟩
    rcases List.mem_append.1 hy with hy | hy
    · exact hwalks.2 y hy
    · exact List.mem_singleton.1 hy ▸ h.global
  have hfound := findSome?_rel hwalk fun _ _ hxy =>
    (h.sameNames scopes moduleScopes).lookupIn exportBudget hxy segments
  rw [lookup_eq, lookup_eq]
  rcases rel_cases hfound with ⟨hnone, hnone'⟩ | ⟨d, e, hd, he, hlt, rfl⟩
  · rw [hnone, hnone']
    exact ⟨rfl, by simp⟩
  · rw [hd, he]
    exact ⟨rfl, by simpa using hlt⟩

end WellFormed

end Index

namespace Modules

open Index

theorem length_moduleScopesFrom (next : Nat) (files : List ModuleFile) :
    (moduleScopesFrom next files).length = files.length := by
  induction files generalizing next with
  | nil => rfl
  | cons file rest ih =>
    rw [moduleScopesFrom]
    split <;> rw [List.length_cons, ih, List.length_cons]

/-- Every module has a scope before the first file is bound. -/
theorem unbound_modulesSize (modules : Modules) :
    modules.unbound.moduleScopes.size = modules.files.size := by
  have hscopes := (forM_moduleScope modules.files.toList Index.empty).2
  have hlength := congrArg List.length hscopes
  rw [List.length_append, length_moduleScopesFrom, Array.length_toList, Array.length_toList] at hlength
  exact hlength.trans (Nat.zero_add _)

/-- The modules of a program have scopes. -/
theorem bind_hasModule (modules : Modules) {g : ModuleId} (hg : g.index < modules.files.size) :
    modules.bind.2.HasModule g := by
  have hsize := (bound_changes modules.within_true).modulesSize
  rw [unbound_modulesSize] at hsize
  exact Nat.lt_of_lt_of_le hg hsize

/-- The index of a program is well formed if its files refer to files of the program. -/
theorem bind_wellFormed {modules : Modules}
    (h : modules.Within fun g => g.index < modules.files.size) : modules.bind.2.WellFormed :=
  ((bind_changes h).bound (.empty _)).wellFormed fun _ hg => modules.bind_hasModule hg

section

variable {tree : FileTree} {roots : List Path} {modules : Modules}

/-- The files of a loaded program refer to files of the program. -/
theorem within_of_load (h : Modules.load tree roots = .ok modules) :
    modules.Within fun g => g.index < modules.files.size := by
  obtain ⟨discovery, hloaded, rfl⟩ := Modules.exists_loaded h
  intro i file hfile source g hg
  obtain ⟨specifier, -, hlook⟩ := Option.bind_eq_some_iff.1 hg
  have hdependency := hloaded.sound.dependencies hfile (mem_of_lookup hlook)
  obtain ⟨-, found, location, -, -, hstands⟩ := hdependency
  exact hstands.lt

end

end Modules

end ComponentSchema
