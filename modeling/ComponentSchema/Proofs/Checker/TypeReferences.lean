import ComponentSchema.Proofs.Checker.ResolutionInduction
import Mathlib.Logic.Relation

/-!
# What a type expression refers to

For a type expression to be resolved, some of the names in it are resolved first: the name that it
consists of, or those of its parts. The names in the annotations of its members are not among them.

Aliases may refer to each other in circles. A circle of mere names denotes nothing, wherever it is
entered. An alias of anything more that refers to another declaration, and through that one back to
itself, is entangled: what it denotes depends on which of the two is resolved first.

Results.
* `Untangled.of_refers`, `Untangled.isName`: what an untangled declaration refers to is untangled,
  and on a circle of several declarations it is a mere name.
* `UntangledSite.names`: all that an untangled annotation mentions is untangled.
-/
namespace ComponentSchema

open Syntax Relation

/-! ## Names -/

mutual

/-- The names that are resolved when a type expression is. -/
def Syntax.TypeExpr.names : TypeExpr → List (List String)
  | .parenthesized inner => inner.names
  | .reference name => [name.segments]
  | .union parts =>
    if (parts.filter fun part => !Resolve.isNullish part).length == 1 then namesOfSingle parts
    else []
  | .intersection parts => namesOfAll parts
  | _ => []

/-- The names in the first part of a union that is not dropped from it. -/
def Syntax.namesOfSingle : List TypeExpr → List (List String)
  | [] => []
  | part :: rest => if Resolve.isNullish part then namesOfSingle rest else part.names

/-- The names in several type expressions. -/
def Syntax.namesOfAll : List TypeExpr → List (List String)
  | [] => []
  | part :: rest => part.names ++ namesOfAll rest

end

mutual

/-- Whether a type expression passes on what a name denotes. -/
def Syntax.TypeExpr.isName : TypeExpr → Bool
  | .parenthesized inner => inner.isName
  | .reference _ => true
  | .union parts =>
    (parts.filter fun part => !Resolve.isNullish part).length == 1 && singleIsName parts
  | _ => false

/-- Whether the first part of a union that is not dropped from it passes on what a name denotes. -/
def Syntax.singleIsName : List TypeExpr → Bool
  | [] => false
  | part :: rest => if Resolve.isNullish part then singleIsName rest else part.isName

end

mutual

/-- The literals that a type expression takes its members from. -/
def Syntax.TypeExpr.literals : TypeExpr → List (List TypeMember)
  | .parenthesized inner => inner.literals
  | .literal members => [members]
  | .union parts =>
    if (parts.filter fun part => !Resolve.isNullish part).length == 1 then literalsOfSingle parts
    else []
  | .intersection parts => literalsOfAll parts
  | _ => []

/-- The literals of the first part of a union that is not dropped from it. -/
def Syntax.literalsOfSingle : List TypeExpr → List (List TypeMember)
  | [] => []
  | part :: rest => if Resolve.isNullish part then literalsOfSingle rest else part.literals

/-- The literals of several type expressions. -/
def Syntax.literalsOfAll : List TypeExpr → List (List TypeMember)
  | [] => []
  | part :: rest => part.literals ++ literalsOfAll rest

end

section

variable {parts : List TypeExpr} {part : TypeExpr}

theorem Syntax.TypeExpr.names_single (h : (parts.filter fun part => !Resolve.isNullish part) = [part]) :
    (TypeExpr.union parts).names = part.names := by
  have hparts : namesOfSingle parts = part.names := ofSingle_eq (fun _ _ => rfl) h
  rw [TypeExpr.names, if_pos (by simp [h]), hparts]

theorem Syntax.TypeExpr.names_several
    (h : (parts.filter fun part => !Resolve.isNullish part).length ≠ 1) :
    (TypeExpr.union parts).names = [] := by
  rw [TypeExpr.names, if_neg (by simpa using h)]

theorem Syntax.TypeExpr.isName_single (h : (parts.filter fun part => !Resolve.isNullish part) = [part]) :
    (TypeExpr.union parts).isName = part.isName := by
  have hparts : singleIsName parts = part.isName := ofSingle_eq (fun _ _ => rfl) h
  simp only [TypeExpr.isName, h, hparts]
  rfl

theorem Syntax.TypeExpr.isName_several
    (h : (parts.filter fun part => !Resolve.isNullish part).length ≠ 1) :
    (TypeExpr.union parts).isName = false := by
  rw [TypeExpr.isName, beq_false_of_ne h, Bool.false_and]

theorem Syntax.TypeExpr.literals_single
    (h : (parts.filter fun part => !Resolve.isNullish part) = [part]) :
    (TypeExpr.union parts).literals = part.literals := by
  have hparts : literalsOfSingle parts = part.literals := ofSingle_eq (fun _ _ => rfl) h
  rw [TypeExpr.literals, if_pos (by simp [h]), hparts]

theorem Syntax.namesOfAll_eq (parts : List TypeExpr) : namesOfAll parts = parts.flatMap TypeExpr.names := by
  induction parts with
  | nil => rfl
  | cons part rest ih => rw [namesOfAll, ih, List.flatMap_cons]

theorem Syntax.literalsOfAll_eq (parts : List TypeExpr) :
    literalsOfAll parts = parts.flatMap TypeExpr.literals := by
  induction parts with
  | nil => rfl
  | cons part rest ih => rw [literalsOfAll, ih, List.flatMap_cons]

end

/-! ## Declarations -/

namespace Index

variable {index : Index} {d e f : DeclId} {decl : TypeDecl} {type : TypeExpr}

/-- One of several names leads to a declaration. -/
def Mentions (index : Index) (scope : ScopeId) (names : List (List String)) (d : DeclId) : Prop :=
  ∃ segments ∈ names, index.lookup scope segments = some d

theorem not_mentions_nil {scope : ScopeId} : ¬ index.Mentions scope [] d := fun ⟨_, hs, _⟩ => nomatch hs

/-- What an intersection mentions is mentioned by one of its parts. -/
theorem mentions_intersection {scope : ScopeId} {parts : List TypeExpr} :
    index.Mentions scope (TypeExpr.intersection parts).names d ↔
      ∃ part ∈ parts, index.Mentions scope part.names d := by
  rw [TypeExpr.names, namesOfAll_eq]
  constructor
  · rintro ⟨segments, hs, hd⟩
    obtain ⟨part, hpart, hs⟩ := List.mem_flatMap.1 hs
    exact ⟨part, hpart, segments, hs, hd⟩
  · rintro ⟨part, hpart, segments, hs, hd⟩
    exact ⟨segments, List.mem_flatMap.2 ⟨part, hpart, hs⟩, hd⟩

/-- A declaration is an alias of a type expression. -/
def IsAlias (index : Index) (d : DeclId) (scope : ScopeId) (type : TypeExpr) : Prop :=
  ∃ name, index.decls[d.index]? = some ⟨name, scope, .typeAlias type⟩

/-- A declaration is an alias whose right-hand side mentions another one. -/
def Refers (index : Index) (d e : DeclId) : Prop :=
  ∃ scope type, index.IsAlias d scope type ∧ index.Mentions scope type.names e

/-- A declaration is an alias of more than a name, and refers to another declaration that leads back
to it. -/
def Entangled (index : Index) (d : DeclId) : Prop :=
  ∃ scope type, index.IsAlias d scope type ∧ type.isName = false ∧
    ∃ e, index.Mentions scope type.names e ∧ e ≠ d ∧ ReflTransGen index.Refers e d

/-- A declaration leads to no entangled one. -/
def Untangled (index : Index) (d : DeclId) : Prop :=
  ∀ e, ReflTransGen index.Refers d e → ¬ index.Entangled e

/-- All that several names lead to is untangled. -/
def UntangledNames (index : Index) (scope : ScopeId) (names : List (List String)) : Prop :=
  ∀ d, index.Mentions scope names d → index.Untangled d

theorem Untangled.of_refers (h : index.Untangled d) (hr : index.Refers d e) : index.Untangled e :=
  fun f hf => h f (hf.head hr)

theorem Untangled.rightSide {scope : ScopeId} (h : index.Untangled d)
    (ha : index.IsAlias d scope type) : index.UntangledNames scope type.names :=
  fun _ he => h.of_refers ⟨scope, type, ha, he⟩

/-- On a circle of several declarations there are only aliases of names. -/
theorem Untangled.isName {scope : ScopeId} (h : index.Untangled d)
    (ha : index.IsAlias d scope type) (hm : index.Mentions scope type.names e) (hne : e ≠ d)
    (hback : ReflTransGen index.Refers e d) : type.isName = true := by
  rcases hname : type.isName with _ | _
  · exact absurd ⟨scope, type, ha, hname, e, hm, hne, hback⟩ (h d .refl)
  · rfl

/-- A way to another declaration has a first step away from where it starts. -/
theorem exists_refers_ne (h : ReflTransGen index.Refers d e) (hne : d ≠ e) :
    ∃ f, index.Refers d f ∧ f ≠ d ∧ ReflTransGen index.Refers f e := by
  induction h using ReflTransGen.head_induction_on with
  | refl => exact absurd rfl hne
  | head hstep hrest ih =>
    rename_i a c
    by_cases hc : c = a
    · rw [hc] at ih
      exact ih hne
    · exact ⟨c, hstep, hc, hrest⟩

/-! ## Annotations -/

/-- One annotation involves another: the right-hand side of an alias that it mentions, or the
annotation of a member that it takes from an interface or a literal. -/
inductive Involves (index : Index) (site : TypeSite) : TypeSite → Prop
  | rightSide {d : DeclId} {scope : ScopeId} {type : TypeExpr} :
    index.Mentions site.scope site.type.names d → index.IsAlias d scope type →
      Involves index site ⟨scope, type⟩
  | interfaceMember {d : DeclId} {name : String} {scope : ScopeId} {bodies : List (List TypeMember)}
    {data : MemberData} {type : TypeExpr} :
    index.Mentions site.scope site.type.names d →
      index.decls[d.index]? = some ⟨name, scope, .interface bodies⟩ →
      data ∈ declaredMembers scope bodies.flatten → data.type = .written type →
        Involves index site ⟨data.scope, type⟩
  | literalMember {members : List TypeMember} {data : MemberData} {type : TypeExpr} :
    members ∈ site.type.literals → data ∈ declaredMembers site.scope members →
      data.type = .written type → Involves index site ⟨data.scope, type⟩

/-- Nothing that an annotation involves mentions an entangled declaration. -/
def UntangledSite (index : Index) (site : TypeSite) : Prop :=
  ∀ inner, ReflTransGen index.Involves site inner →
    ∀ d, index.Mentions inner.scope inner.type.names d → ¬ index.Entangled d

theorem UntangledSite.of_involves {site inner : TypeSite} (h : index.UntangledSite site)
    (hi : ReflTransGen index.Involves site inner) : index.UntangledSite inner :=
  fun other ho => h other (hi.trans ho)

theorem UntangledSite.names {site : TypeSite} (h : index.UntangledSite site) :
    index.UntangledNames site.scope site.type.names := by
  intro d hd e he
  induction he using ReflTransGen.head_induction_on generalizing site with
  | refl => exact h site .refl e hd
  | head hr _ ih =>
    obtain ⟨scope, type, halias, hm⟩ := hr
    exact ih (h.of_involves (.single (.rightSide hd halias))) hm

end Index

end ComponentSchema
