import ComponentSchema.Proofs.Lookup.LexicalScoping

/-!
# What scopes hold

Names are led by the types and the exports of the scopes, and by what is declared there. Binding adds to
these contents entry by entry: of two entries of one name the first counts, but interfaces are joined. So
two additions may be made in either order unless they are of the same name (`Addition.Apart`).

All else that an index holds makes its frame: which scopes there are and how they are nested, what is
imported, and the syntax that is kept. Declaring and exporting leave the frame as it is.

Results.
* `Contents.add_comm`: two additions that are apart are made in either order.
* `Binding.declare_plays`, `Binding.declareInterface_plays`, `Binding.addExport_plays`: what these steps
  add, and that they leave the frame alone.
-/
namespace ComponentSchema

open Syntax Relation

/-! ## Additions -/

/-- The declaration with its bodies put into one, if it is an interface. -/
def TypeDeclKind.joined : TypeDeclKind → TypeDeclKind
  | .interface bodies => .interface [bodies.flatten]
  | kind => kind

/-- What a declaration is when its name is declared again: the bodies of interfaces are put into one, and
else the first declaration stays. -/
def TypeDeclKind.merge : TypeDeclKind → TypeDeclKind → TypeDeclKind
  | .interface bodies, .interface more => .interface [bodies.flatten ++ more.flatten]
  | kind, _ => kind.joined

/-- What is declared and exported under each name in each scope. -/
@[ext] structure Contents where
  declared : ScopeId → String → Option TypeDeclKind
  exported : ScopeId → String → Option ExportBinding

/-- What may be added to a scope. -/
inductive Addition where
  | declares (name : String) (kind : TypeDeclKind)
  | exports (name : String) (binding : ExportBinding)

/-- A declaration that may have been made before, and one more of the same name. -/
def redeclare (kind : TypeDeclKind) : Option TypeDeclKind → TypeDeclKind
  | none => kind.joined
  | some old => old.merge kind

namespace Contents

variable (contents : Contents) (x : ScopeId)

/-- The contents with one more declaration or export in a scope. -/
def add : Addition → Contents
  | .declares name kind =>
    { contents with
      declared := fun y other =>
        if y = x ∧ other = name then some (redeclare kind (contents.declared y other))
        else contents.declared y other }
  | .exports name binding =>
    { contents with
      exported := fun y other =>
        (contents.exported y other).or (if y = x ∧ other = name then some binding else none) }

/-- The contents with some more declarations and exports in a scope. -/
def addAll (log : List Addition) : Contents := log.foldl (fun contents entry => contents.add x entry) contents

@[simp] theorem addAll_nil : contents.addAll x [] = contents := rfl

@[simp] theorem addAll_cons (entry : Addition) (log : List Addition) :
    contents.addAll x (entry :: log) = (contents.add x entry).addAll x log := rfl

@[simp] theorem addAll_append (log log' : List Addition) :
    contents.addAll x (log ++ log') = (contents.addAll x log).addAll x log' :=
  List.foldl_append

end Contents

/-- Two additions of which either may come first: two declarations have different names, and what is
exported under the same name is the same. -/
def Addition.Apart (x : ScopeId) (first : Addition) (y : ScopeId) (second : Addition) : Prop :=
  match first, second with
  | .declares name _, .declares other _ => x = y → name ≠ other
  | .exports name binding, .exports other binding' => x = y → name = other → binding = binding'
  | _, _ => True

section

variable {contents : Contents} {x y : ScopeId}

theorem Contents.add_comm {first second : Addition} (h : first.Apart x y second) :
    (contents.add x first).add y second = (contents.add y second).add x first := by
  cases first with
  | declares name kind =>
    cases second with
    | exports => rfl
    | declares other kind' =>
      refine Contents.ext (funext fun z => funext fun found => ?_) rfl
      simp only [Contents.add]
      by_cases hfirst : z = x ∧ found = name
      · have hsecond : ¬ (z = y ∧ found = other) := fun hsecond =>
          h (hfirst.1.symm.trans hsecond.1) (hfirst.2.symm.trans hsecond.2)
        rw [if_pos hfirst, if_neg hsecond, if_pos hfirst, if_neg hsecond]
      · rw [if_neg hfirst, if_neg hfirst]
  | exports name binding =>
    cases second with
    | declares => rfl
    | exports other binding' =>
      refine Contents.ext rfl (funext fun z => funext fun found => ?_)
      simp only [Contents.add, Option.or_assoc]
      congr 1
      by_cases hfirst : z = x ∧ found = name
      · by_cases hsecond : z = y ∧ found = other
        · rw [if_pos hfirst, if_pos hsecond,
            h (hfirst.1.symm.trans hsecond.1) (hfirst.2.symm.trans hsecond.2)]
        · rw [if_neg hsecond, Option.or_none, Option.none_or]
      · rw [if_neg hfirst, Option.or_none, Option.none_or]

theorem Contents.addAll_add_comm {log : List Addition} {entry : Addition}
    (h : ∀ other ∈ log, other.Apart x y entry) :
    (contents.addAll x log).add y entry = (contents.add y entry).addAll x log := by
  induction log generalizing contents with
  | nil => rfl
  | cons first rest ih =>
    obtain ⟨hfirst, hrest⟩ := List.forall_mem_cons.1 h
    rw [addAll_cons, addAll_cons, ih hrest, add_comm hfirst]

theorem Contents.addAll_comm {log log' : List Addition}
    (h : ∀ first ∈ log, ∀ second ∈ log', first.Apart x y second) :
    (contents.addAll x log).addAll y log' = (contents.addAll y log').addAll x log := by
  induction log' generalizing contents with
  | nil => rfl
  | cons second rest ih =>
    rw [addAll_cons, addAll_cons, addAll_add_comm fun first hfirst => h first hfirst second (.head _),
      ih fun first hfirst other hother => h first hfirst other (.tail _ hother)]

/-- An interface whose members are written in two declarations. -/
theorem Contents.add_interface (name : String) (members more : List TypeMember) :
    (contents.add x (.declares name (.interface [members]))).add x (.declares name (.interface [more])) =
      contents.add x (.declares name (.interface [members ++ more])) := by
  refine Contents.ext (funext fun z => funext fun found => ?_) rfl
  simp only [Contents.add]
  by_cases hfound : z = x ∧ found = name
  · simp only [if_pos hfound]
    rcases contents.declared z found with _ | old
    · simp [redeclare, TypeDeclKind.joined, TypeDeclKind.merge]
    · cases old <;> simp [redeclare, TypeDeclKind.joined, TypeDeclKind.merge]
  · simp only [if_neg hfound]

/-- A name that is exported already. -/
theorem Contents.add_exported {name : String} (h : (contents.exported x name).isSome)
    (binding : ExportBinding) : contents.add x (.exports name binding) = contents := by
  refine Contents.ext rfl (funext fun z => funext fun found => ?_)
  simp only [Contents.add]
  split
  · rename_i hfound
    obtain ⟨rfl, rfl⟩ := hfound
    obtain ⟨old, hold⟩ := Option.isSome_iff_exists.1 h
    rw [hold, Option.some_or]
  · exact Option.or_none

end

/-! ## Frames -/

/-- The scope without its types and exports. -/
def Scope.frame (data : Scope) : Scope := { data with types := [], exports := [] }

namespace Index

variable {index index' index'' : Index} {x z : ScopeId}

/-- What the scopes of an index declare and export; the bodies of an interface are put into one. -/
def contents (index : Index) : Contents where
  declared x name := (index.scope x).types.lookup name >>= fun id =>
    index.decls[id.index]?.map (·.kind.joined)
  exported x name := (index.scope x).exports.lookup name

/-- Two indexes that hold the same but for what is declared and exported. -/
structure SameFrame (index index' : Index) : Prop where
  size : index.scopes.size = index'.scopes.size
  scopes : ∀ z, (index.scope z).frame = (index'.scope z).frame
  moduleScopes : index.moduleScopes = index'.moduleScopes
  typeSites : index.typeSites = index'.typeSites
  functionSites : index.functionSites = index'.functionSites
  classSites : index.classSites = index'.classSites

namespace SameFrame

theorem refl (index : Index) : SameFrame index index := ⟨rfl, fun _ => rfl, rfl, rfl, rfl, rfl⟩

theorem symm (h : SameFrame index index') : SameFrame index' index :=
  ⟨h.size.symm, fun z => (h.scopes z).symm, h.moduleScopes.symm, h.typeSites.symm,
    h.functionSites.symm, h.classSites.symm⟩

theorem trans (h : SameFrame index index') (h' : SameFrame index' index'') : SameFrame index index'' :=
  ⟨h.size.trans h'.size, fun z => (h.scopes z).trans (h'.scopes z),
    h.moduleScopes.trans h'.moduleScopes, h.typeSites.trans h'.typeSites,
    h.functionSites.trans h'.functionSites, h.classSites.trans h'.classSites⟩

theorem name (h : SameFrame index index') (z : ScopeId) :
    (index.scope z).name = (index'.scope z).name := (congrArg Scope.name (h.scopes z) :)

theorem parent (h : SameFrame index index') (z : ScopeId) :
    (index.scope z).parent = (index'.scope z).parent := (congrArg Scope.parent (h.scopes z) :)

theorem namespaces (h : SameFrame index index') (z : ScopeId) :
    (index.scope z).namespaces = (index'.scope z).namespaces := (congrArg Scope.namespaces (h.scopes z) :)

theorem imports (h : SameFrame index index') (z : ScopeId) :
    (index.scope z).imports = (index'.scope z).imports := (congrArg Scope.imports (h.scopes z) :)

theorem starExports (h : SameFrame index index') (z : ScopeId) :
    (index.scope z).starExports = (index'.scope z).starExports :=
  (congrArg Scope.starExports (h.scopes z) :)

theorem moduleScope (h : SameFrame index index') (g : ModuleId) :
    index.moduleScope g = index'.moduleScope g := by
  rw [Index.moduleScope, Index.moduleScope, h.moduleScopes]

theorem hasScope (h : SameFrame index index') (hx : index.HasScope x) : index'.HasScope x :=
  Nat.lt_of_lt_of_eq hx h.size

theorem «at» {spot : Spot} (h : SameFrame index index') (hat : index.At spot x) : index'.At spot x := by
  induction hat with
  | top hroot hparent => exact .top (h.hasScope hroot) ((h.parent _).symm.trans hparent)
  | enter hx hname hparent _ ih =>
    exact .enter (h.hasScope hx) ((h.name _).symm.trans hname) ((h.parent _).symm.trans hparent) ih

/-- A scope may change in both, in a way that its types and exports have no part in. -/
theorem modifyScope (h : SameFrame index index') (hx : index.HasScope x) {change change' : Scope → Scope}
    (hchange : ∀ data data', data.frame = data'.frame → (change data).frame = (change' data').frame) :
    SameFrame (index.modifyScope x change) (index'.modifyScope x change') := by
  refine { h with size := by simpa using h.size, scopes := fun z => ?_ }
  rw [scope_modify index z change hx, scope_modify index' z change' (h.hasScope hx)]
  split
  · exact hchange _ _ (h.scopes x)
  · exact h.scopes z

theorem pushScope (h : SameFrame index index') (data : Scope) :
    SameFrame (index.pushScope data) (index'.pushScope data) := by
  refine { h with size := by simpa using h.size, scopes := fun z => ?_ }
  rw [scope_push, scope_push, h.size]
  split
  · rfl
  · exact h.scopes z

end SameFrame

/-- A scope may change in its types and exports. -/
theorem sameFrame_modifyScope (hx : index.HasScope x) {change : Scope → Scope}
    (hchange : ∀ data, (change data).frame = data.frame) :
    SameFrame index (index.modifyScope x change) := by
  refine { SameFrame.refl index with size := by simp, scopes := fun z => ?_ }
  rw [scope_modify index z change hx]
  split
  · rename_i hzx
    rw [hchange, hzx]
  · rfl

/-! ## Contents -/

/-- The contents of an index are the types and the exports of its scopes. -/
theorem contents_congr {index' : Index} (hdecls : index'.decls = index.decls)
    (hsame : ∀ z, (index'.scope z).types = (index.scope z).types ∧
      (index'.scope z).exports = (index.scope z).exports) : index'.contents = index.contents := by
  refine Contents.ext (funext fun z => funext fun name => ?_) (funext fun z => funext fun name => ?_)
  · simp only [contents, hdecls, (hsame z).1]
  · simp only [contents, (hsame z).2]

/-- A scope may change in all but its types and exports. -/
theorem contents_modifyScope (hx : index.HasScope x) {change : Scope → Scope}
    (htypes : ∀ data, (change data).types = data.types)
    (hexports : ∀ data, (change data).exports = data.exports) :
    (index.modifyScope x change).contents = index.contents := by
  refine contents_congr rfl fun z => ?_
  rw [scope_modify index z change hx]
  split
  · rename_i hzx
    exact hzx ▸ ⟨htypes _, hexports _⟩
  · exact ⟨rfl, rfl⟩

/-- In a new scope nothing is declared and exported. -/
theorem contents_pushScope (index : Index) (name : Option String) (parent : Option ScopeId) :
    (index.pushScope (Scope.empty name parent)).contents = index.contents := by
  have hold : ∀ z : ScopeId, z.index = index.scopes.size → index.scope z = Scope.empty none none := by
    intro z hz
    simp [Index.scope, hz]
  refine contents_congr rfl fun z => ?_
  rw [scope_push]
  split
  · rename_i hz
    rw [hold z hz]
    exact ⟨rfl, rfl⟩
  · exact ⟨rfl, rfl⟩

theorem contents_addExport (hx : index.HasScope x) (name : String) (binding : ExportBinding) :
    (index.modifyScope x fun data =>
      match data.exports.lookup name with
      | some _ => data
      | none => { data with exports := (name, binding) :: data.exports }).contents =
      index.contents.add x (.exports name binding) := by
  refine Contents.ext (funext fun z => funext fun found => ?_) (funext fun z => funext fun found => ?_)
  · simp only [contents, Contents.add]
    rw [scope_modify index z _ hx]
    split
    · rename_i hzx
      split <;> rw [hzx]
    · rfl
  · simp only [contents, Contents.add]
    rw [scope_modify index z _ hx]
    by_cases hzx : z = x
    · subst hzx
      rw [if_pos rfl]
      rcases hlook : (index.scope z).exports.lookup name with _ | old
      · by_cases hfound : found = name
        · simp [hfound, hlook]
        · simp [List.lookup_cons, beq_eq_false_iff_ne.2 hfound, hfound]
      · by_cases hfound : found = name
        · simp [hfound, hlook]
        · simp [hfound]
    · simp [hzx]

/-- A declaration that is not entered in a scope. -/
theorem contents_pushDecl (h : index.Registered) (decl : TypeDecl) :
    ({ index with decls := index.decls.push decl } : Index).contents = index.contents := by
  refine Contents.ext (funext fun z => funext fun found => ?_) rfl
  show ((index.scope z).types.lookup found >>= fun id =>
    (index.decls.push decl)[id.index]?.map (·.kind.joined)) = _
  simp only [contents]
  rcases hlook : (index.scope z).types.lookup found with _ | id
  · rfl
  · obtain ⟨kind, hdecl⟩ := h.declares z _ (mem_of_lookup hlook)
    simp only [Option.bind_eq_bind, Option.bind_some,
      getElem?_push_of_lt (lt_size_of_getElem? hdecl)]

/-- A declaration that is entered under a name that was free. -/
theorem contents_enter (hx : index.HasScope x) {name : String} {id : DeclId} {decl : TypeDecl}
    (hdecl : index.decls[id.index]? = some decl)
    (hnew : (index.scope x).types.lookup name = none) :
    (index.modifyScope x fun data => { data with types := (name, id) :: data.types }).contents =
      index.contents.add x (.declares name decl.kind) := by
  refine Contents.ext (funext fun z => funext fun found => ?_) (funext fun z => funext fun found => ?_)
  · simp only [contents, Contents.add]
    rw [scope_modify index z _ hx]
    by_cases hzx : z = x
    · subst hzx
      by_cases hfound : found = name
      · subst hfound
        simp [hnew, hdecl, redeclare]
      · simp [hfound, List.lookup_cons, beq_eq_false_iff_ne.2 hfound]
    · simp [hzx]
  · simp only [contents, Contents.add]
    rw [scope_modify index z _ hx]
    split
    · rename_i hzx
      rw [hzx]
    · rfl

/-- The first declaration of its name in a scope. -/
theorem contents_declare (h : index.Registered) (hx : index.HasScope x) {name : String}
    (hnew : (index.scope x).types.lookup name = none) (kind : TypeDeclKind) :
    ({ index with decls := index.decls.push ⟨name, x, kind⟩ }.modifyScope x fun data =>
      { data with types := (name, ⟨index.decls.size⟩) :: data.types }).contents =
      index.contents.add x (.declares name kind) := by
  have hx' : ({ index with decls := index.decls.push ⟨name, x, kind⟩ } : Index).HasScope x := hx
  rw [← contents_pushDecl h ⟨name, x, kind⟩]
  exact contents_enter hx' Array.getElem?_push_size hnew

/-- What is declared under a name, by the declaration that is entered under it. -/
theorem contents_declared (h : index.Registered) {name : String} {id : DeclId}
    (hlook : (index.scope x).types.lookup name = some id) :
    ∃ kind, index.decls[id.index]? = some ⟨name, x, kind⟩ ∧
      index.contents.declared x name = some kind.joined := by
  obtain ⟨kind, hdecl⟩ := h.declares x _ (mem_of_lookup hlook)
  refine ⟨kind, hdecl, ?_⟩
  simp only [contents, hlook, Option.bind_eq_bind, Option.bind_some, hdecl, Option.map_some]

/-- An interface that gets another body. -/
theorem contents_addBody (h : index.Registered) {name : String} {id : DeclId}
    (hlook : (index.scope x).types.lookup name = some id) {decl decl' : TypeDecl}
    (hdecl : index.decls[id.index]? = some decl) {members : List TypeMember}
    (hbody : decl.addBody? members = some decl') :
    ({ index with decls := index.decls.modify id.index fun _ => decl' } : Index).contents =
      index.contents.add x (.declares name (.interface [members])) := by
  obtain ⟨kind, hkind, hdeclared⟩ := contents_declared h hlook
  obtain rfl := Option.some.inj (hdecl.symm.trans hkind)
  refine Contents.ext (funext fun z => funext fun found => ?_) rfl
  show ((index.scope z).types.lookup found >>= fun id' =>
    (index.decls.modify id.index fun _ => decl')[id'.index]?.map (·.kind.joined)) = _
  simp only [Contents.add]
  by_cases hsame : z = x ∧ found = name
  · obtain ⟨rfl, rfl⟩ := hsame
    rw [if_pos ⟨rfl, rfl⟩, hlook, hdeclared]
    simp only [Option.bind_eq_bind, Option.bind_some, Array.getElem?_modify, if_true, hdecl,
      Option.map_some, redeclare]
    unfold TypeDecl.addBody? at hbody
    split at hbody
    · rename_i bodies hinterface
      obtain rfl := Option.some.inj hbody
      obtain rfl : kind = .interface bodies := hinterface
      simp [TypeDeclKind.joined, TypeDeclKind.merge]
    · cases hbody
  · rw [if_neg hsame]
    simp only [contents]
    rcases hother : (index.scope z).types.lookup found with _ | other
    · rfl
    · have hne : id ≠ other := by
        rintro rfl
        obtain ⟨kind', hdecl', -⟩ := contents_declared h hother
        obtain ⟨rfl, rfl, -⟩ := TypeDecl.mk.inj (Option.some.inj (hdecl.symm.trans hdecl'))
        exact hsame ⟨rfl, rfl⟩
      have hindex : id.index ≠ other.index := fun heq => hne (congrArg DeclId.mk heq)
      simp only [Option.bind_eq_bind, Option.bind_some, Array.getElem?_modify, if_neg hindex]

/-- A declaration is given up where there is one of its name, unless both are interfaces. -/
theorem contents_givenUp (h : index.Registered) {name : String} {id : DeclId}
    (hlook : (index.scope x).types.lookup name = some id) {kind : TypeDeclKind}
    (hother : ∀ decl, index.decls[id.index]? = some decl →
      (kind.isInterface && decl.kind.isInterface) = false) :
    index.contents.add x (.declares name kind) = index.contents := by
  obtain ⟨old, hdecl, hdeclared⟩ := contents_declared h hlook
  refine Contents.ext (funext fun z => funext fun found => ?_) rfl
  simp only [Contents.add]
  split
  · rename_i hsame
    obtain ⟨rfl, rfl⟩ := hsame
    have hkinds := hother _ hdecl
    rw [hdeclared]
    cases old <;> cases kind <;>
      simp_all [redeclare, TypeDeclKind.joined, TypeDeclKind.merge, TypeDeclKind.isInterface]
  · rfl

end Index

/-! ## Steps that declare and export -/

open Index

namespace Binding

variable {index : Index} {y : ScopeId} {name : String} {exported : Bool} {log log' : List Addition}

/-- A step that makes some additions to a scope and leaves the frame of the index as it is. -/
def Plays (index : Index) (y : ScopeId) (step : Binding Unit) (log : List Addition) : Prop :=
  Bound (fun _ => True) index → index.HasScope y →
    Changes (fun _ => True) index (step.run index).2 ∧ SameFrame index (step.run index).2 ∧
      (step.run index).2.contents = index.contents.addAll y log

theorem Plays.done : Plays index y (pure ()) [] := fun _ _ => ⟨.refl, .refl index, rfl⟩

theorem Plays.bind {first : Binding Unit} {next : Unit → Binding Unit} (h : Plays index y first log)
    (hnext : Plays (first.run index).2 y (next ()) log') :
    Plays index y (first >>= next) (log ++ log') := by
  intro hbound hy
  obtain ⟨hchanges, hframe, hcontents⟩ := h hbound hy
  obtain ⟨hchanges', hframe', hcontents'⟩ := hnext (hchanges.bound hbound) (hframe.hasScope hy)
  refine ⟨hchanges.trans hchanges', hframe.trans hframe', ?_⟩
  rw [Contents.addAll_append, ← hcontents]
  exact hcontents'

/-- A step that makes one addition, and then the others. -/
theorem Plays.cons {first : Binding Unit} {next : Unit → Binding Unit} {entry : Addition}
    (h : Plays index y first [entry]) (hnext : Plays (first.run index).2 y (next ()) log) :
    Plays index y (first >>= next) (entry :: log) := h.bind hnext

theorem Plays.of_bound {step : Binding Unit}
    (h : Bound (fun _ => True) index → index.HasScope y → Plays index y step log) :
    Plays index y step log :=
  fun hbound hy => h hbound hy hbound hy

theorem Plays.get_bind {next : Index → Binding Unit} (h : Plays index y (next index) log) :
    Plays index y (get >>= next) log := h

/-- Additions that are apart may be counted in either order. -/
theorem Plays.swap {step : Binding Unit} {log : List Addition} (log' : List Addition)
    (h : Plays index y step (log ++ log'))
    (hapart : ∀ first ∈ log, ∀ second ∈ log', first.Apart y y second) :
    Plays index y step (log' ++ log) := by
  intro hbound hy
  obtain ⟨hchanges, hframe, hcontents⟩ := h hbound hy
  rw [Contents.addAll_append, Contents.addAll_comm hapart, ← Contents.addAll_append] at hcontents
  exact ⟨hchanges, hframe, hcontents⟩

theorem addExport_plays (binding : ExportBinding) :
    Plays index y (addExport y name binding) [.exports name binding] := by
  refine fun _ hy => ⟨.single (.addExport hy name binding fun _ _ => trivial),
    sameFrame_modifyScope hy fun data => ?_, contents_addExport hy name binding⟩
  split <;> rfl

/-- The additions of a declaration that may carry an `export` modifier. -/
def exportAdditions (exported : Bool) (name : String) : List Addition :=
  if exported then [.exports name (.own name)] else []

theorem exportAdditions_apart {kind : TypeDeclKind} : ∀ first ∈ exportAdditions exported name,
    ∀ second ∈ [Addition.declares name kind], first.Apart y y second := by
  intro first hfirst second hsecond
  obtain rfl := List.mem_singleton.1 hsecond
  cases exported with
  | true =>
    obtain rfl := List.mem_singleton.1 hfirst
    trivial
  | false => cases hfirst

theorem exportIf_plays : Plays index y (exportIf exported y name) (exportAdditions exported name) := by
  cases exported with
  | true => exact addExport_plays _
  | false => exact .done

/-- Exporting leaves the declarations as they are. -/
theorem exportIf_types (exported : Bool) (name : String) (hy : index.HasScope y) :
    ((exportIf exported y name).run index).2.decls = index.decls ∧
      (((exportIf exported y name).run index).2.scope y).types = (index.scope y).types := by
  cases exported with
  | false => exact ⟨rfl, rfl⟩
  | true =>
    refine ⟨rfl, (congrArg Scope.types (scope_modify index y _ hy)).trans ?_⟩
    rw [if_pos rfl]
    split <;> rfl

theorem declare_plays {kind : TypeDeclKind}
    (hother : ∀ id decl, (index.scope y).types.lookup name = some id →
      index.decls[id.index]? = some decl → (kind.isInterface && decl.kind.isInterface) = false) :
    Plays index y (declare y name kind exported)
      (exportAdditions exported name ++ [.declares name kind]) := by
  refine .of_bound fun _ hy => exportIf_plays.bind ?_
  obtain ⟨hdecls, htypes⟩ := exportIf_types exported name hy
  generalize ((exportIf exported y name).run index).2 = index' at hdecls htypes ⊢
  refine .of_bound fun hbound hy' => .get_bind ?_
  rcases hlook : (index'.scope y).types.lookup name with _ | id
  · refine fun _ _ => ⟨.single (.declare hy' hlook kind), ?_,
      contents_declare hbound.registered hy' hlook kind⟩
    have hframe : SameFrame index' (index'.modifyScope y fun data =>
        { data with types := (name, ⟨index'.decls.size⟩) :: data.types }) :=
      sameFrame_modifyScope hy' fun _ => rfl
    exact { hframe with }
  · refine fun _ _ => ⟨.refl, .refl _, ?_⟩
    refine (contents_givenUp hbound.registered hlook fun decl hdecl => ?_).symm
    exact hother id decl (htypes ▸ hlook) (hdecls ▸ hdecl)

/-- A declaration of something else than an interface. -/
theorem declareFirst_plays {kind : TypeDeclKind} (exported : Bool) (hkind : kind.isInterface = false) :
    Plays index y (declare y name kind exported) (.declares name kind :: exportAdditions exported name) :=
  .swap [_] (declare_plays fun _ _ _ _ => by rw [hkind, Bool.false_and]) exportAdditions_apart

/-- Where an interface is declared already, its members are a further body; where something else is, they
are given up. -/
theorem declareInterface_plays (members : List TypeMember) :
    Plays index y (declareInterface y name members exported)
      (.declares name (.interface [members]) :: exportAdditions exported name) := by
  refine .of_bound fun hbound hy => ?_
  have hdeclare : (∀ id decl, (index.scope y).types.lookup name = some id →
      index.decls[id.index]? = some decl → decl.kind.isInterface = false) →
      Plays index y (declare y name (.interface [members]) exported)
        (.declares name (.interface [members]) :: exportAdditions exported name) := by
    intro hother
    refine Plays.swap [_] (declare_plays fun id decl hlook hdecl => ?_) ?_
    · rw [hother id decl hlook hdecl, Bool.and_false]
    · exact exportAdditions_apart
  refine .get_bind ?_
  rcases hlook : (index.scope y).types.lookup name with _ | id
  · simp only [Option.bind_eq_bind, Option.bind_none]
    exact hdeclare fun _ _ h => by rw [hlook] at h; cases h
  · obtain ⟨kind, hdecl⟩ := hbound.registered.declares y _ (mem_of_lookup hlook)
    rcases hbody : TypeDecl.addBody? ⟨name, y, kind⟩ members with _ | decl
    · simp only [hdecl, hbody, Option.bind_eq_bind, Option.bind_some, Option.bind_none]
      refine hdeclare fun id' decl' hlook' hdecl' => ?_
      obtain rfl := Option.some.inj (hlook.symm.trans hlook')
      obtain rfl := Option.some.inj (hdecl.symm.trans hdecl')
      simpa [TypeDeclKind.isInterface] using isInterface_of_addBody? hbody
    · simp only [hdecl, hbody, Option.bind_eq_bind, Option.bind_some]
      refine Plays.cons ?_ exportIf_plays
      refine fun _ _ => ⟨.single (.addBody hdecl hbody), ?_,
        contents_addBody hbound.registered hlook hdecl hbody⟩
      exact ⟨rfl, fun _ => rfl, rfl, rfl, rfl, rfl⟩

end Binding

end ComponentSchema
