import ComponentSchema.Proofs.Checker.TypeReferences
import Mathlib.Data.List.Basic

/-!
# Outlines

An outline says everything about a type but its identity, and where the type and each of its members
come from: a keyword, a declaration, an annotation of the view, or a member with an annotation of its
own. The outline that a type expression denotes is defined here by the index and by what declarations
denote, with no arena and no answers given before.

Results.
* `outlineOf_congr`: it depends on the declarations that the type expression mentions alone.
* `outlineOf_isName`: a mere name denotes what the declaration does that it mentions.
* `outlineOf_nodup`: a type has one member of each name.
* `outlineOf_takenFrom`: each member is of a literal in it or of a declaration that it mentions.
-/
namespace ComponentSchema

open Syntax Relation

/-- Where a type comes from. -/
inductive TypeOrigin where
  | keyword (keyword : KeywordType)
  /-- The type that stands for `JSX.Element`. -/
  | jsxElement
  | declared (decl : DeclId)
  | site (node : NodeId)
  /-- The annotation of a member that comes from `owner`. -/
  | member (owner : TypeOrigin) (data : MemberData)

/-- A member and where it comes from. -/
structure OutlineMember where
  owner : TypeOrigin
  data : MemberData

/-- What is known about a type. -/
structure Outline where
  origin : TypeOrigin
  symbol : Option TypeSymbol
  aliasName : Option String
  intrinsic : Option KeywordType
  members : List OutlineMember

namespace Outline

/-- A type without members. -/
def plain (origin : TypeOrigin) (symbol : Option TypeSymbol) (aliasName : Option String) : Outline :=
  ⟨origin, symbol, aliasName, none, []⟩

def keyword (keyword : KeywordType) : Outline := ⟨.keyword keyword, none, none, some keyword, []⟩

def jsxElement : Outline := plain .jsxElement (some TypeSymbol.jsxElement) none

/-- A type with the members that signatures declare. -/
def object (origin : TypeOrigin) (symbol : TypeSymbol) (aliasName : Option String) (scope : ScopeId)
    (members : List TypeMember) : Outline :=
  ⟨origin, some symbol, aliasName, none,
    (declaredMembers scope members).map fun data => ⟨origin, data⟩⟩

/-- A type with the members of several types, the first of each name. -/
def join (origin : TypeOrigin) (aliasName : Option String) (parts : List Outline) : Outline :=
  ⟨origin, none, aliasName, none,
    firstOfEachName (·.data.name) [] (parts.flatMap (·.members))⟩

/-- The names of the members of a type. -/
def names (outline : Outline) : List String := outline.members.map (·.data.name)

end Outline

/-! ## Type expressions -/

section

variable (index : Index) (declared : DeclId → Option Outline) (own : TypeOrigin) (scope : ScopeId)

/-- What a name denotes; `declared` says what a declaration does. -/
def outlineOfName (segments : List String) : Option Outline :=
  match index.lookup scope segments with
  | some decl => declared decl
  | none => if segments == jsxElementSegments then some Outline.jsxElement else none

mutual

/-- What a type expression denotes. A type that it makes comes from `own`. -/
def outlineOf (aliasName : Option String) : TypeExpr → Option Outline
  | .keyword keyword => some (Outline.keyword keyword)
  | .parenthesized inner => outlineOf aliasName inner
  | .reference name => outlineOfName index declared scope name.segments
  | .literal members =>
    some (Outline.object own TypeSymbol.anonymous aliasName scope members)
  | .union parts =>
    if (parts.filter fun part => !Resolve.isNullish part).length == 1 then outlineOfSingle parts
    else some (Outline.plain own none aliasName)
  | .intersection parts => some (Outline.join own aliasName (outlinesOf parts))
  | .function _ _ => some (Outline.plain own (some TypeSymbol.anonymous) aliasName)
  | .constructor => some (Outline.plain own (some TypeSymbol.anonymous) aliasName)
  | .other => some (Outline.plain own none none)

/-- What the first part of a union that is not dropped from it denotes. -/
def outlineOfSingle : List TypeExpr → Option Outline
  | [] => none
  | part :: rest =>
    if Resolve.isNullish part then outlineOfSingle rest else outlineOf none part

/-- What the parts of an intersection denote, those left out that denote nothing. -/
def outlinesOf : List TypeExpr → List Outline
  | [] => []
  | part :: rest =>
    match outlineOf none part with
    | some outline => outline :: outlinesOf rest
    | none => outlinesOf rest

end

end

section

variable {index : Index} {own : TypeOrigin} {scope : ScopeId}
variable {declared declared' : DeclId → Option Outline}

theorem outlineOf_single {parts : List TypeExpr} {part : TypeExpr}
    (h : (parts.filter fun part => !Resolve.isNullish part) = [part]) (aliasName : Option String) :
    outlineOf index declared own scope aliasName (.union parts) =
      outlineOf index declared own scope none part := by
  have hparts : outlineOfSingle index declared own scope parts =
      outlineOf index declared own scope none part := ofSingle_eq (fun _ _ => rfl) h
  rw [outlineOf, if_pos (by simp [h]), hparts]

theorem outlineOf_several {parts : List TypeExpr}
    (h : (parts.filter fun part => !Resolve.isNullish part).length ≠ 1) (aliasName : Option String) :
    outlineOf index declared own scope aliasName (.union parts) =
      some (Outline.plain own none aliasName) := by
  rw [outlineOf, if_neg (by simpa using h)]

theorem outlinesOf_eq (parts : List TypeExpr) : outlinesOf index declared own scope parts =
    parts.filterMap (outlineOf index declared own scope none) := by
  induction parts with
  | nil => rw [outlinesOf, List.filterMap_nil]
  | cons part rest ih =>
    rw [outlinesOf, ih, List.filterMap_cons]
    split <;> rename_i hpart <;> simp only [hpart]

theorem outlineOfName_congr {segments : List String}
    (h : ∀ d, index.lookup scope segments = some d → declared d = declared' d) :
    outlineOfName index declared scope segments = outlineOfName index declared' scope segments := by
  unfold outlineOfName
  split
  · rename_i d hd
    exact h d hd
  · rfl

/-- What a type expression denotes depends on what the declarations do that it mentions. -/
theorem outlineOf_congr (aliasName : Option String) (type : TypeExpr)
    (h : ∀ d, index.Mentions scope type.names d → declared d = declared' d) :
    outlineOf index declared own scope aliasName type =
      outlineOf index declared' own scope aliasName type := by
  induction type using TypeExpr.resolutionRec generalizing aliasName with
  | parenthesized inner ih =>
    rw [TypeExpr.names] at h
    rw [outlineOf, outlineOf]
    exact ih aliasName h
  | reference name =>
    rw [TypeExpr.names] at h
    rw [outlineOf, outlineOf]
    exact outlineOfName_congr fun d hd => h d ⟨name.segments, List.mem_singleton_self _, hd⟩
  | single parts part hsingle ih =>
    rw [TypeExpr.names_single hsingle] at h
    rw [outlineOf_single hsingle, outlineOf_single hsingle]
    exact ih none h
  | several parts hseveral => rw [outlineOf_several hseveral, outlineOf_several hseveral]
  | intersection parts ih =>
    have hparts : outlinesOf index declared own scope parts = outlinesOf index declared' own scope parts := by
      rw [outlinesOf_eq, outlinesOf_eq]
      exact List.filterMap_congr fun part hpart =>
        ih part hpart none fun d hd => h d (Index.mentions_intersection.2 ⟨part, hpart, hd⟩)
    rw [outlineOf, outlineOf, hparts]
  | keyword | literal | function | constructor | other => simp only [outlineOf]

theorem outlineOf_of_isName (aliasName : Option String) (type : TypeExpr) (h : type.isName = true)
    (segments : List String) (hs : segments ∈ type.names) :
    outlineOf index declared own scope aliasName type = outlineOfName index declared scope segments := by
  induction type using TypeExpr.resolutionRec generalizing aliasName with
  | parenthesized inner ih =>
    rw [TypeExpr.isName] at h
    rw [TypeExpr.names] at hs
    rw [outlineOf]
    exact ih aliasName h hs
  | reference name =>
    rw [TypeExpr.names, List.mem_singleton] at hs
    rw [outlineOf, hs]
  | single parts part hsingle ih =>
    rw [TypeExpr.isName_single hsingle] at h
    rw [TypeExpr.names_single hsingle] at hs
    rw [outlineOf_single hsingle]
    exact ih none h hs
  | several parts hseveral =>
    rw [TypeExpr.isName_several hseveral] at h
    cases h
  | keyword | literal | intersection | function | constructor | other => simp [TypeExpr.isName] at h

/-- What a mere name denotes is what the declaration does that it mentions. -/
theorem outlineOf_isName {type : TypeExpr} {d : DeclId} (h : type.isName = true)
    (hm : index.Mentions scope type.names d) (aliasName : Option String) :
    outlineOf index declared own scope aliasName type = declared d := by
  obtain ⟨segments, hs, hd⟩ := hm
  rw [outlineOf_of_isName aliasName type h segments hs]
  simp only [outlineOfName, hd]

end

/-! ## Names of members -/

theorem notMem_names_firstOfEachName {α : Type} (name : α → String) (seen : List String)
    (items : List α) : ∀ item ∈ firstOfEachName name seen items, name item ∉ seen := by
  induction items generalizing seen with
  | nil => simp [firstOfEachName]
  | cons item rest ih =>
    intro other hother
    rw [firstOfEachName] at hother
    split at hother
    · exact ih seen other hother
    · rename_i hseen
      rcases List.mem_cons.1 hother with rfl | hother
      · simpa using hseen
      · exact fun h => ih _ other hother (List.mem_cons_of_mem _ h)

theorem mem_of_mem_firstOfEachName {α : Type} {name : α → String} {seen : List String}
    {items : List α} {item : α} (h : item ∈ firstOfEachName name seen items) : item ∈ items := by
  induction items generalizing seen with
  | nil => cases h
  | cons first rest ih =>
    rw [firstOfEachName] at h
    split at h
    · exact List.mem_cons_of_mem _ (ih h)
    · rcases List.mem_cons.1 h with rfl | h
      · exact List.mem_cons_self ..
      · exact List.mem_cons_of_mem _ (ih h)

theorem nodup_firstOfEachName {α : Type} (name : α → String) (seen : List String) (items : List α) :
    ((firstOfEachName name seen items).map name).Nodup := by
  induction items generalizing seen with
  | nil => exact List.nodup_nil
  | cons item rest ih =>
    rw [firstOfEachName]
    split
    · exact ih seen
    · rw [List.map_cons, List.nodup_cons]
      refine ⟨fun h => ?_, ih _⟩
      obtain ⟨other, hother, hname⟩ := List.mem_map.1 h
      exact notMem_names_firstOfEachName name _ rest other hother (hname ▸ List.mem_cons_self ..)

namespace Outline

theorem nodup_names_object (origin : TypeOrigin) (symbol : TypeSymbol) (aliasName : Option String)
    (scope : ScopeId) (members : List TypeMember) :
    (object origin symbol aliasName scope members).names.Nodup := by
  have h := nodup_firstOfEachName (·.name) [] (members.filterMap (·.data? scope))
  simp only [names, object, List.map_map]
  exact h

theorem nodup_names_join (origin : TypeOrigin) (aliasName : Option String) (parts : List Outline) :
    (join origin aliasName parts).names.Nodup :=
  nodup_firstOfEachName _ _ _

end Outline

section

variable {index : Index} {own : TypeOrigin} {scope : ScopeId}
variable {declared : DeclId → Option Outline}

theorem outlineOfName_nodup (hd : ∀ d, ∀ v ∈ declared d, v.names.Nodup) (segments : List String) :
    ∀ v ∈ outlineOfName index declared scope segments, v.names.Nodup := by
  intro v hv
  unfold outlineOfName at hv
  split at hv
  · exact hd _ v hv
  · split at hv
    · obtain rfl := Option.some.inj hv
      exact List.nodup_nil
    · cases hv

theorem outlineOf_nodup (hd : ∀ d, ∀ v ∈ declared d, v.names.Nodup) (aliasName : Option String)
    (type : TypeExpr) : ∀ v ∈ outlineOf index declared own scope aliasName type, v.names.Nodup := by
  intro v hv
  induction type using TypeExpr.resolutionRec generalizing aliasName with
  | parenthesized inner ih =>
    rw [outlineOf] at hv
    exact ih aliasName hv
  | reference name =>
    rw [outlineOf] at hv
    exact outlineOfName_nodup hd name.segments v hv
  | literal members =>
    rw [outlineOf] at hv
    obtain rfl := Option.some.inj hv
    exact Outline.nodup_names_object ..
  | single parts part hsingle ih =>
    rw [outlineOf_single hsingle] at hv
    exact ih none hv
  | several parts hseveral =>
    rw [outlineOf_several hseveral] at hv
    obtain rfl := Option.some.inj hv
    exact List.nodup_nil
  | intersection parts =>
    rw [outlineOf] at hv
    obtain rfl := Option.some.inj hv
    exact Outline.nodup_names_join ..
  | keyword | function | constructor | other =>
    rw [outlineOf] at hv
    obtain rfl := Option.some.inj hv
    exact List.nodup_nil

/-! ## Where members come from -/

/-- A member is of one of several literals, or of a declaration that one of several names leads
to. -/
def TakenFrom (index : Index) (declared : DeclId → Option Outline) (scope : ScopeId)
    (literals : List (List TypeMember)) (names : List (List String)) (o : OutlineMember) : Prop :=
  (∃ members ∈ literals, o.data ∈ declaredMembers scope members) ∨
    ∃ d, index.Mentions scope names d ∧ ∃ v ∈ declared d, o ∈ v.members

/-- What is taken from a part of an intersection is taken from it. -/
theorem TakenFrom.intersection {parts : List TypeExpr} {part : TypeExpr} {o : OutlineMember}
    (hpart : part ∈ parts) (h : TakenFrom index declared scope part.literals part.names o) :
    TakenFrom index declared scope (TypeExpr.intersection parts).literals
      (TypeExpr.intersection parts).names o := by
  rw [TypeExpr.literals, literalsOfAll_eq]
  refine h.imp ?_ ?_
  · rintro ⟨members, hm, ho⟩
    exact ⟨members, List.mem_flatMap.2 ⟨part, hpart, hm⟩, ho⟩
  · rintro ⟨d, hd, hv⟩
    exact ⟨d, Index.mentions_intersection.2 ⟨part, hpart, hd⟩, hv⟩

theorem outlineOf_takenFrom (aliasName : Option String) (type : TypeExpr) :
    ∀ v ∈ outlineOf index declared own scope aliasName type, ∀ o ∈ v.members,
      TakenFrom index declared scope type.literals type.names o := by
  intro v hv o ho
  induction type using TypeExpr.resolutionRec generalizing aliasName v with
  | parenthesized inner ih =>
    rw [outlineOf] at hv
    rw [TypeExpr.literals, TypeExpr.names]
    exact ih aliasName v hv ho
  | reference name =>
    rw [outlineOf, outlineOfName] at hv
    rw [TypeExpr.names]
    split at hv
    · rename_i d hd
      exact .inr ⟨d, ⟨_, List.mem_singleton_self _, hd⟩, v, hv, ho⟩
    · split at hv
      · obtain rfl := Option.some.inj hv
        cases ho
      · cases hv
  | literal members =>
    rw [outlineOf] at hv
    rw [TypeExpr.literals]
    obtain rfl := Option.some.inj hv
    obtain ⟨data, hdata, rfl⟩ := List.mem_map.1 ho
    exact .inl ⟨members, List.mem_singleton_self _, hdata⟩
  | single parts part hsingle ih =>
    rw [outlineOf_single hsingle] at hv
    rw [TypeExpr.literals_single hsingle, TypeExpr.names_single hsingle]
    exact ih none v hv ho
  | several parts hseveral =>
    rw [outlineOf_several hseveral] at hv
    obtain rfl := Option.some.inj hv
    cases ho
  | intersection parts ih =>
    rw [outlineOf, outlinesOf_eq] at hv
    obtain rfl := Option.some.inj hv
    obtain ⟨inner, hinner, ho⟩ := List.mem_flatMap.1 (mem_of_mem_firstOfEachName ho)
    obtain ⟨part, hpart, houtline⟩ := List.mem_filterMap.1 hinner
    exact (ih part hpart none inner houtline ho).intersection hpart
  | keyword | function | constructor | other =>
    rw [outlineOf] at hv
    obtain rfl := Option.some.inj hv
    cases ho

end

end ComponentSchema
