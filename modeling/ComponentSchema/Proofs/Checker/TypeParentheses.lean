import ComponentSchema.Program.Returns
import Mathlib.Data.List.Forall2
import Mathlib.Data.Option.Defs

/-!
# Parentheses in types

A type that stands in parentheses denotes what it denotes without them. Types are related here that are
the same but for parentheses at any places inside them, and with them what is made of types: members,
bodies of declarations, and expressions with casts in them.

A part of a union is dropped from it if it reads `null` or `undefined`, and one in parentheses does not.
That decides the type of the union if it leaves a single part, so the parts that are dropped have to be
the same in that case.

Results.
* `TypeExpr.regrouped_refl` and its like: nothing has to be regrouped.
* `TypeExpr.Regrouped.resolutionRec`: by induction on what is resolved of two such types.
-/
namespace ComponentSchema

open Syntax

/-! ## Types -/

/-- The parts of a union that are not dropped from it. -/
def Syntax.keptParts (parts : List TypeExpr) : List TypeExpr :=
  parts.filter fun part => !Resolve.isNullish part

mutual

/-- Two type expressions that are the same but for redundant parentheses. -/
inductive Syntax.TypeExpr.Regrouped : TypeExpr → TypeExpr → Prop
  | wrapped {type type' : TypeExpr} : TypeExpr.Regrouped type type' →
    TypeExpr.Regrouped (.parenthesized type) type'
  | wrapping {type type' : TypeExpr} : TypeExpr.Regrouped type type' →
    TypeExpr.Regrouped type (.parenthesized type')
  | keyword (keyword : KeywordType) : TypeExpr.Regrouped (.keyword keyword) (.keyword keyword)
  | reference (name : EntityName) : TypeExpr.Regrouped (.reference name) (.reference name)
  | literal {members members' : List TypeMember} : RegroupedMembers members members' →
    TypeExpr.Regrouped (.literal members) (.literal members')
  | union {parts parts' : List TypeExpr} : RegroupedParts parts parts' →
    ((keptParts parts).length = 1 ∨ (keptParts parts').length = 1 →
      parts.map Resolve.isNullish = parts'.map Resolve.isNullish) →
    TypeExpr.Regrouped (.union parts) (.union parts')
  | intersection {parts parts' : List TypeExpr} : RegroupedParts parts parts' →
    TypeExpr.Regrouped (.intersection parts) (.intersection parts')
  | function {parameters parameters' : List TypeParameter} {returnType returnType' : TypeExpr} :
    RegroupedParameters parameters parameters' → TypeExpr.Regrouped returnType returnType' →
      TypeExpr.Regrouped (.function parameters returnType) (.function parameters' returnType')
  | constructor : TypeExpr.Regrouped .constructor .constructor
  | other : TypeExpr.Regrouped .other .other

inductive Syntax.RegroupedParts : List TypeExpr → List TypeExpr → Prop
  | nil : RegroupedParts [] []
  | cons {part part' : TypeExpr} {rest rest' : List TypeExpr} : TypeExpr.Regrouped part part' →
    RegroupedParts rest rest' → RegroupedParts (part :: rest) (part' :: rest')

/-- Two annotations, or none. -/
inductive Syntax.RegroupedAnnotation : Option TypeExpr → Option TypeExpr → Prop
  | none : RegroupedAnnotation none none
  | some {type type' : TypeExpr} : TypeExpr.Regrouped type type' →
    RegroupedAnnotation (some type) (some type')

inductive Syntax.TypeMember.Regrouped : TypeMember → TypeMember → Prop
  | property (key : PropertyKey) (optional : Bool) {type type' : Option TypeExpr} :
    RegroupedAnnotation type type' →
      TypeMember.Regrouped (.property key optional type) (.property key optional type')
  | method (key : PropertyKey) (optional : Bool) :
    TypeMember.Regrouped (.method key optional) (.method key optional)
  | getter (key : PropertyKey) {type type' : Option TypeExpr} : RegroupedAnnotation type type' →
    TypeMember.Regrouped (.getter key type) (.getter key type')
  | other : TypeMember.Regrouped .other .other

inductive Syntax.RegroupedMembers : List TypeMember → List TypeMember → Prop
  | nil : RegroupedMembers [] []
  | cons {member member' : TypeMember} {rest rest' : List TypeMember} :
    TypeMember.Regrouped member member' →
    RegroupedMembers rest rest' → RegroupedMembers (member :: rest) (member' :: rest')

/-- The parameters of two function types. -/
inductive Syntax.RegroupedParameters : List TypeParameter → List TypeParameter → Prop
  | nil : RegroupedParameters [] []
  | cons {name : Option String} {type type' : Option TypeExpr} {rest rest' : List TypeParameter} :
    RegroupedAnnotation type type' → RegroupedParameters rest rest' →
      RegroupedParameters (⟨name, type⟩ :: rest) (⟨name, type'⟩ :: rest')

end

mutual

theorem Syntax.TypeExpr.regrouped_refl : ∀ type : TypeExpr, type.Regrouped type
  | .keyword keyword => .keyword keyword
  | .reference name => .reference name
  | .parenthesized inner => .wrapped (.wrapping inner.regrouped_refl)
  | .literal members => .literal (regroupedMembers_refl members)
  | .union parts => .union (regroupedParts_refl parts) fun _ => rfl
  | .intersection parts => .intersection (regroupedParts_refl parts)
  | .function parameters returnType =>
    .function (regroupedParameters_refl parameters) returnType.regrouped_refl
  | .constructor => .constructor
  | .other => .other

theorem Syntax.regroupedParts_refl : ∀ parts : List TypeExpr, RegroupedParts parts parts
  | [] => .nil
  | part :: rest => .cons part.regrouped_refl (regroupedParts_refl rest)

theorem Syntax.TypeMember.regrouped_refl : ∀ member : TypeMember, member.Regrouped member
  | .property key optional none => .property key optional .none
  | .property key optional (some type) => .property key optional (.some type.regrouped_refl)
  | .method key optional => .method key optional
  | .getter key none => .getter key .none
  | .getter key (some type) => .getter key (.some type.regrouped_refl)
  | .other => .other

theorem Syntax.regroupedMembers_refl : ∀ members : List TypeMember, RegroupedMembers members members
  | [] => .nil
  | member :: rest => .cons member.regrouped_refl (regroupedMembers_refl rest)

theorem Syntax.regroupedParameters_refl : ∀ parameters : List TypeParameter,
    RegroupedParameters parameters parameters
  | [] => .nil
  | ⟨_, none⟩ :: rest => .cons .none (regroupedParameters_refl rest)
  | ⟨_, some type⟩ :: rest => .cons (.some type.regrouped_refl) (regroupedParameters_refl rest)

end

theorem Syntax.RegroupedMembers.append : ∀ {members members' more more' : List TypeMember},
    RegroupedMembers members members' → RegroupedMembers more more' →
      RegroupedMembers (members ++ more) (members' ++ more')
  | _, _, _, _, .nil, hmore => hmore
  | _, _, _, _, .cons hmember hrest, hmore => .cons hmember (hrest.append hmore)

theorem Syntax.RegroupedAnnotation.refl (type : Option TypeExpr) : RegroupedAnnotation type type := by
  cases type with
  | none => exact .none
  | some type => exact .some type.regrouped_refl

/-! ## Induction along resolution -/

/-- The same parts are kept if the same ones are dropped. -/
theorem forall₂_keptParts {R : TypeExpr → TypeExpr → Prop} {parts parts' : List TypeExpr}
    (h : List.Forall₂ R parts parts') (hnullish : parts.map Resolve.isNullish = parts'.map Resolve.isNullish) :
    List.Forall₂ R (keptParts parts) (keptParts parts') := by
  induction h with
  | nil => exact .nil
  | cons hpart _ ih =>
    obtain ⟨hfirst, hrest⟩ := List.cons.inj hnullish
    rw [keptParts, keptParts, List.filter_cons, List.filter_cons, hfirst]
    split
    · exact .cons hpart (ih hrest)
    · exact ih hrest

section

set_option linter.unusedSectionVars false

variable {motive : TypeExpr → TypeExpr → Prop}
  (wrapped : ∀ {type type'}, motive type type' → motive (.parenthesized type) type')
  (wrapping : ∀ {type type'}, motive type type' → motive type (.parenthesized type'))
  (keyword : ∀ keyword, motive (.keyword keyword) (.keyword keyword))
  (reference : ∀ name, motive (.reference name) (.reference name))
  (literal : ∀ {members members'}, RegroupedMembers members members' →
    motive (.literal members) (.literal members'))
  (single : ∀ {parts parts' part part'}, keptParts parts = [part] → keptParts parts' = [part'] →
    motive part part' → motive (.union parts) (.union parts'))
  (several : ∀ {parts parts'}, (keptParts parts).length ≠ 1 → (keptParts parts').length ≠ 1 →
    motive (.union parts) (.union parts'))
  (intersection : ∀ {parts parts'}, List.Forall₂ motive parts parts' →
    motive (.intersection parts) (.intersection parts'))
  (function : ∀ {parameters parameters' returnType returnType'},
    motive (.function parameters returnType) (.function parameters' returnType'))
  (constructor : motive .constructor .constructor) (other : motive .other .other)
include wrapped wrapping keyword reference literal single several intersection function constructor other

mutual

/-- By induction on what is resolved of two types that were regrouped. -/
@[elab_as_elim]
theorem Syntax.TypeExpr.Regrouped.resolutionRec : ∀ {type type' : TypeExpr}, type.Regrouped type' →
    motive type type'
  | _, _, .wrapped h => wrapped h.resolutionRec
  | _, _, .wrapping h => wrapping h.resolutionRec
  | _, _, .keyword word => keyword word
  | _, _, .reference name => reference name
  | _, _, .literal hmembers => literal hmembers
  | .union parts, .union parts', .union hparts hnullish => by
    by_cases hsingle : (keptParts parts).length = 1 ∨ (keptParts parts').length = 1
    · -- one part decides, and it is the same one
      have hkept := forall₂_keptParts hparts.resolutionRec (hnullish hsingle)
      have hone : (keptParts parts).length = 1 := hsingle.elim id hkept.length_eq.trans
      obtain ⟨part, hpart⟩ := List.length_eq_one_iff.1 hone
      rw [hpart] at hkept
      obtain ⟨part', _, hmotive, ⟨⟩, hpart'⟩ := List.forall₂_cons_left_iff.1 hkept
      exact single hpart hpart' hmotive
    · exact several (fun h => hsingle (.inl h)) fun h => hsingle (.inr h)
  | _, _, .intersection hparts => intersection hparts.resolutionRec
  | _, _, .function _ _ => function
  | _, _, .constructor => constructor
  | _, _, .other => other

theorem Syntax.RegroupedParts.resolutionRec : ∀ {parts parts' : List TypeExpr},
    RegroupedParts parts parts' → List.Forall₂ motive parts parts'
  | _, _, .nil => .nil
  | _, _, .cons hpart hrest => .cons hpart.resolutionRec hrest.resolutionRec

end

end

/-! ## Members and declarations -/

/-- What the types of two members are made from. -/
inductive MemberType.Regrouped : MemberType → MemberType → Prop
  | written {type type' : TypeExpr} : TypeExpr.Regrouped type type' →
    Regrouped (.written type) (.written type')
  | implicitAny : Regrouped .implicitAny .implicitAny
  | method : Regrouped .method .method

theorem MemberType.regrouped_ofWritten {type type' : Option TypeExpr}
    (h : RegroupedAnnotation type type') : (MemberType.ofWritten type).Regrouped (.ofWritten type') := by
  cases h with
  | none => exact .implicitAny
  | some htype => exact .written htype

/-- What two declarations declare; it does not matter how the members of an interface are divided into
bodies. -/
inductive TypeDeclKind.Regrouped : TypeDeclKind → TypeDeclKind → Prop
  | interface {bodies bodies' : List (List TypeMember)} :
    RegroupedMembers bodies.flatten bodies'.flatten → Regrouped (.interface bodies) (.interface bodies')
  | typeAlias {type type' : TypeExpr} : TypeExpr.Regrouped type type' →
    Regrouped (.typeAlias type) (.typeAlias type')
  | nominal : Regrouped .nominal .nominal

theorem TypeDeclKind.regrouped_refl (kind : TypeDeclKind) : kind.Regrouped kind := by
  cases kind with
  | interface bodies => exact .interface (regroupedMembers_refl _)
  | typeAlias type => exact .typeAlias type.regrouped_refl
  | nominal => exact .nominal

/-! ## Expressions -/

/-- Two expressions from which the same is known about their values: the types of casts may be
regrouped, and what stands inside of elements, functions and the like is not looked at. -/
inductive Syntax.Expr.Regrouped : Expr → Expr → Prop
  | identifier (name : String) : Regrouped (.identifier name) (.identifier name)
  | null : Regrouped .null .null
  | string (value : StringLiteral) : Regrouped (.string value) (.string value)
  | template {parts parts' : List Expr} : Regrouped (.template parts) (.template parts')
  | number (value : Binary64) : Regrouped (.number value) (.number value)
  | boolean : Regrouped .boolean .boolean
  | jsx {parts parts' : List Expr} : Regrouped (.jsx parts) (.jsx parts')
  | parenthesized {inner inner' : Expr} : Regrouped inner inner' →
    Regrouped (.parenthesized inner) (.parenthesized inner')
  | void {operand operand' : Expr} : Regrouped (.void operand) (.void operand')
  | conditional {test test' consequent consequent' alternate alternate' : Expr} :
    Regrouped consequent consequent' → Regrouped alternate alternate' →
      Regrouped (.conditional test consequent alternate) (.conditional test' consequent' alternate')
  | logicalAnd {left left' right right' : Expr} : Regrouped right right' →
    Regrouped (.logicalAnd left right) (.logicalAnd left' right')
  | alternative {left left' right right' : Expr} : Regrouped left left' → Regrouped right right' →
    Regrouped (.alternative left right) (.alternative left' right')
  | cast {operand operand' : Expr} {type type' : TypeExpr} : TypeExpr.Regrouped type type' →
    Regrouped (.cast operand type) (.cast operand' type')
  | satisfies {inner inner' : Expr} : Regrouped inner inner' →
    Regrouped (.satisfies inner) (.satisfies inner')
  | nonNull {inner inner' : Expr} : Regrouped inner inner' →
    Regrouped (.nonNull inner) (.nonNull inner')
  | constCast {inner inner' : Expr} : Regrouped inner inner' →
    Regrouped (.constCast inner) (.constCast inner')
  | arrow {function function' : Function} : Regrouped (.arrow function) (.arrow function')
  | function {function function' : Function} : Regrouped (.function function) (.function function')
  | classExpr {members members' : List ClassMember} :
    Regrouped (.classExpr members) (.classExpr members')
  | access {parts parts' : List Expr} : Regrouped (.access parts) (.access parts')
  | collection {parts parts' : List Expr} : Regrouped (.collection parts) (.collection parts')
  | other {parts parts' : List Expr} : Regrouped (.other parts) (.other parts')

theorem Syntax.Expr.regrouped_refl : ∀ value : Expr, value.Regrouped value
  | .identifier name => .identifier name
  | .null => .null
  | .string value => .string value
  | .template _ => .template
  | .number value => .number value
  | .boolean => .boolean
  | .jsx _ => .jsx
  | .parenthesized inner => .parenthesized inner.regrouped_refl
  | .void _ => .void
  | .conditional _ consequent alternate =>
    .conditional consequent.regrouped_refl alternate.regrouped_refl
  | .logicalAnd _ right => .logicalAnd right.regrouped_refl
  | .alternative left right => .alternative left.regrouped_refl right.regrouped_refl
  | .cast _ type => .cast type.regrouped_refl
  | .satisfies inner => .satisfies inner.regrouped_refl
  | .nonNull inner => .nonNull inner.regrouped_refl
  | .constCast inner => .constCast inner.regrouped_refl
  | .arrow _ => .arrow
  | .function _ => .function
  | .classExpr _ => .classExpr
  | .access _ => .access
  | .collection _ => .collection
  | .other _ => .other

/-- What a body returns, in order. -/
def Syntax.Body.returned : Body → List (Option Expr)
  | .expression value => [some value]
  | .block statements => returnedByAll statements

/-- Two bodies that return the same values, in which casts may be regrouped. -/
def Syntax.Body.Regrouped (body body' : Body) : Prop :=
  List.Forall₂ (Option.Rel Expr.Regrouped) body.returned body'.returned

theorem Syntax.Body.regrouped_of_returned_eq {body body' : Body} (h : body.returned = body'.returned) :
    body.Regrouped body' := by
  have hrefl : ∀ value : Option Expr, Option.Rel Expr.Regrouped value value := by
    intro value
    cases value with
    | none => exact .none
    | some value => exact .some value.regrouped_refl
  rw [Body.Regrouped, ← h, List.forall₂_same]
  exact fun value _ => hrefl value

end ComponentSchema
