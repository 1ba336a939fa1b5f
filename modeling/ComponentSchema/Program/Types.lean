import ComponentSchema.Program.Scopes

/-!
# Resolved types

Type expressions resolve to types in an arena. A declaration is resolved once, when it is first
asked for, and always yields the same type; while it is being resolved it yields none, so that an
alias cannot be made of itself. The types of members are resolved when they are asked for, not when
the member is made.

Every declaration under resolution is another one, so resolutions nest at most as deep as there are
declarations; `resolveDecl` is given that depth.

The definitions model the checker, and their docstrings name the operations of it that they mirror.
-/
namespace ComponentSchema

open Syntax

/-- A resolved type. Mirrors `TypeData`. -/
structure TypeData where
  symbol : Option TypeSymbol
  aliasName : Option String
  intrinsic : Option KeywordType
  members : List MemberId
  deriving DecidableEq, Repr, Inhabited

/-- A type of which nothing is known. -/
def TypeData.blank : TypeData := ⟨none, none, none, []⟩

/-- What a member's type is made from. Mirrors `MemberType`. -/
inductive MemberType where
  | written (type : TypeExpr)
  /-- A property without annotation is of type `any`. -/
  | implicitAny
  /-- A method has an anonymous function type of its own. -/
  | method

/-- A member, with the scope its annotation is read in. Mirrors `MemberData`. -/
structure MemberData where
  name : String
  optional : Bool
  scope : ScopeId
  type : MemberType

instance : Inhabited MemberData := ⟨⟨"", false, ⟨0⟩, .method⟩⟩

/-- How far a declaration is resolved. Mirrors `DeclState`. -/
inductive DeclState where
  | resolving
  | done (type : Option TypeId)
  deriving DecidableEq, Repr, Inhabited

/-- The types made so far, and the answers given so far. Mirrors `TypeArena`. -/
structure Arena where
  types : Array TypeData
  members : Array MemberData
  memberTypes : List (MemberId × Option TypeId)
  intrinsics : List (KeywordType × TypeId)
  declared : List (DeclId × DeclState)
  nodes : List (NodeId × Option TypeId)
  /-- The type that stands for `JSX.Element` where that name leads nowhere. -/
  jsxElement : Option TypeId

/-- A question to the arena, which may make types. -/
abbrev Resolve := StateM Arena

namespace Arena

/-- No types yet. -/
def empty : Arena := ⟨#[], #[], [], [], [], [], none⟩

def typeData (arena : Arena) (type : TypeId) : TypeData :=
  (arena.types[type.index]?).getD TypeData.blank

def memberData (arena : Arena) (member : MemberId) : MemberData :=
  (arena.members[member.index]?).getD ⟨"", false, globalScope, .method⟩

end Arena

/-! ## Members -/

/-- The type of a member with an annotation that may be missing. -/
def MemberType.ofWritten : Option TypeExpr → MemberType
  | some type => .written type
  | none => .implicitAny

/-- The member that a signature declares, if its name is known. Mirrors `member_data`. -/
def Syntax.TypeMember.data? (scope : ScopeId) : TypeMember → Option MemberData
  | .property key optional type =>
    key.name?.map fun name => ⟨name, optional, scope, .ofWritten type⟩
  | .method key optional => key.name?.map fun name => ⟨name, optional, scope, .method⟩
  | .getter key type => key.name?.map fun name => ⟨name, false, scope, .ofWritten type⟩
  | .other => none

/-- The first of each name, in order. -/
def firstOfEachName {α : Type} (name : α → String) : List String → List α → List α
  | _, [] => []
  | seen, item :: rest =>
    if seen.contains (name item) then firstOfEachName name seen rest
    else item :: firstOfEachName name (name item :: seen) rest

/-- The members that a list of signatures declares; a later member of a name already seen is
dropped. -/
def declaredMembers (scope : ScopeId) (members : List TypeMember) : List MemberData :=
  firstOfEachName (·.name) [] (members.filterMap (·.data? scope))

namespace Resolve

/-- Makes a type. -/
def push (data : TypeData) : Resolve TypeId := do
  let arena ← get
  set { arena with types := arena.types.push data }
  pure ⟨arena.types.size⟩

/-- Makes a member. -/
def pushMember (data : MemberData) : Resolve MemberId := do
  let arena ← get
  set { arena with members := arena.members.push data }
  pure ⟨arena.members.size⟩

/-- The type of a keyword; there is one of each. Mirrors `intrinsic`. -/
def intrinsic (keyword : KeywordType) : Resolve TypeId := do
  match (← get).intrinsics.lookup keyword with
  | some type => pure type
  | none =>
    let type ← push { TypeData.blank with intrinsic := some keyword }
    modify fun arena => { arena with intrinsics := (keyword, type) :: arena.intrinsics }
    pure type

/-- A new type without members. Mirrors `anonymous`. -/
def anonymous (aliasName : Option String) : Resolve TypeId :=
  push { TypeData.blank with symbol := some TypeSymbol.anonymous, aliasName }

/-- A new type with the members that signatures declare. Mirrors `object_type`. -/
def objectType (symbol : TypeSymbol) (aliasName : Option String) (scope : ScopeId)
    (members : List TypeMember) : Resolve TypeId := do
  let ids ← (declaredMembers scope members).mapM pushMember
  push ⟨some symbol, aliasName, none, ids⟩

/-- The members of several types, the first of each name. Mirrors the member loop of
`intersection`. -/
def joinMembers (types : List TypeId) : Resolve (List MemberId) := do
  let arena ← get
  let members := types.flatMap fun type => (arena.typeData type).members
  pure (firstOfEachName (fun member => (arena.memberData member).name) [] members)

/-- The type of `JSX.Element` where that name leads nowhere; there is one. Mirrors
`builtin_jsx_element`. -/
def builtinJsxElement : Resolve TypeId := do
  match (← get).jsxElement with
  | some type => pure type
  | none =>
    let type ← push { TypeData.blank with symbol := some TypeSymbol.jsxElement }
    modify fun arena => { arena with jsxElement := some type }
    pure type

/-! ## Type expressions -/

/-- Whether a part of a union is dropped from it. Mirrors `is_nullish`. -/
def isNullish : TypeExpr → Bool
  | .keyword keyword => keyword.isNullish
  | _ => false

/-- The type that a name leads to; `declared` resolves a declaration. Mirrors `resolve_name`. -/
def resolveName (index : Index) (declared : DeclId → Resolve (Option TypeId)) (scope : ScopeId)
    (segments : List String) : Resolve (Option TypeId) :=
  match index.lookup scope segments with
  | some decl => declared decl
  | none => if segments == jsxElementSegments then some <$> builtinJsxElement else pure none

mutual

/-- The type that a type expression denotes. `aliasName` is the alias it is the right-hand side
of. Mirrors `resolve`. -/
def resolveWith (index : Index) (declared : DeclId → Resolve (Option TypeId)) (scope : ScopeId)
    (aliasName : Option String) : TypeExpr → Resolve (Option TypeId)
  | .keyword keyword => some <$> intrinsic keyword
  | .parenthesized inner => resolveWith index declared scope aliasName inner
  | .reference name => resolveName index declared scope name.segments
  | .literal members => some <$> objectType TypeSymbol.anonymous aliasName scope members
  | .union parts =>
    if (parts.filter fun part => !isNullish part).length == 1 then
      resolveSingle index declared scope parts
    else some <$> push { TypeData.blank with aliasName }
  | .intersection parts => do
    let types ← resolveParts index declared scope parts
    let members ← joinMembers types
    some <$> push ⟨none, aliasName, none, members⟩
  | .function _ _ => some <$> anonymous aliasName
  | .constructor => some <$> anonymous aliasName
  | .other => some <$> push TypeData.blank

/-- The type of the first part of a union that is not dropped from it. Mirrors the one-constituent
case of `union`. -/
def resolveSingle (index : Index) (declared : DeclId → Resolve (Option TypeId)) (scope : ScopeId) :
    List TypeExpr → Resolve (Option TypeId)
  | [] => pure none
  | part :: rest =>
    if isNullish part then resolveSingle index declared scope rest
    else resolveWith index declared scope none part

/-- The types of the parts of an intersection that denote one. Mirrors the constituent loop of
`intersection`. -/
def resolveParts (index : Index) (declared : DeclId → Resolve (Option TypeId)) (scope : ScopeId) :
    List TypeExpr → Resolve (List TypeId)
  | [] => pure []
  | part :: rest => do
    match ← resolveWith index declared scope none part with
    | some type => return type :: (← resolveParts index declared scope rest)
    | none => resolveParts index declared scope rest

end

/-! ## Declarations -/

/-- The type that a declaration makes, when nothing stands in the way. -/
def declaredType (index : Index) (declared : DeclId → Resolve (Option TypeId)) (decl : TypeDecl) :
    Resolve (Option TypeId) :=
  let symbol : TypeSymbol := ⟨decl.name, (index.scope decl.scope).name⟩
  match decl.kind with
  | .interface bodies => some <$> objectType symbol none decl.scope bodies.flatten
  | .typeAlias type => resolveWith index declared decl.scope (some decl.name) type
  | .nominal => some <$> push { TypeData.blank with symbol := some symbol }

/-- The type of a declaration. The first argument bounds the nesting of resolutions. Mirrors
`declared_type`. -/
def resolveDecl (index : Index) : Nat → DeclId → Resolve (Option TypeId)
  | 0, _ => pure none
  | depth + 1, id => do
    match (← get).declared.lookup id with
    | some (.done type) => pure type
    | some .resolving => pure none
    | none =>
      match index.decls[id.index]? with
      | none => pure none
      | some decl =>
        modify fun arena => { arena with declared := (id, .resolving) :: arena.declared }
        let type ← declaredType index (resolveDecl index depth) decl
        modify fun arena => { arena with declared := (id, .done type) :: arena.declared }
        pure type

/-- The type of a declaration. -/
def declared (index : Index) (id : DeclId) : Resolve (Option TypeId) :=
  resolveDecl index (index.decls.size + 1) id

/-- The type that a type expression denotes in a scope. -/
def resolve (index : Index) (scope : ScopeId) (type : TypeExpr) : Resolve (Option TypeId) :=
  resolveWith index (declared index) scope none type

/-- `JSX.Element` as seen from a scope. Mirrors `jsx_element`. -/
def jsxElement (index : Index) (scope : ScopeId) : Resolve (Option TypeId) :=
  resolveName index (declared index) scope jsxElementSegments

/-! ## Questions -/

/-- The type that an annotation of the view denotes. Mirrors `type_at_site`. -/
def typeOfNode (index : Index) (node : NodeId) : Resolve (Option TypeId) := do
  match (← get).nodes.lookup node with
  | some type => pure type
  | none =>
    match index.typeSites[node.index]? with
    | none => pure none
    | some site =>
      let type ← resolve index site.scope site.type
      modify fun arena => { arena with nodes := (node, type) :: arena.nodes }
      pure type

/-- The type that a member has by what it is made from. -/
def typeOfMember (index : Index) (data : MemberData) : Resolve (Option TypeId) :=
  match data.type with
  | .written type => resolve index data.scope type
  | .implicitAny => some <$> intrinsic .any
  | .method => some <$> anonymous none

/-- The type of a member; there is none if there is no such member. Mirrors `member_type`. -/
def memberType (index : Index) (member : MemberId) : Resolve (Option TypeId) := do
  match (← get).memberTypes.lookup member with
  | some type => pure type
  | none =>
    match (← get).members[member.index]? with
    | none => pure none
    | some data =>
      let type ← typeOfMember index data
      modify fun arena => { arena with memberTypes := (member, type) :: arena.memberTypes }
      pure type

end Resolve

end ComponentSchema
