import ComponentSchema.Proofs.Checker.QuestionAnswers
import ComponentSchema.Proofs.Checker.ResolutionSteps

/-!
# What inference resolves

An inferred return type comes from the values that a function returns. On the way the types that
these are cast to are resolved, keywords, and `JSX.Element`; nothing else happens to the arena.

So a relation between arenas that goes along with each of these resolutions goes along with the
inference, if it may be followed step by step (`Along`).

Results.
* `returnTypeOf_along`: for inferred return types.
-/
namespace ComponentSchema

open Syntax

/-- The types that the value of an expression may be cast to. -/
def Syntax.Expr.casts : Expr → List TypeExpr
  | .parenthesized inner => inner.casts
  | .conditional _ consequent alternate => consequent.casts ++ alternate.casts
  | .logicalAnd _ right => right.casts
  | .alternative left right => left.casts ++ right.casts
  | .cast _ type => [type]
  | .satisfies inner => inner.casts
  | .nonNull inner => inner.casts
  | .constCast inner => inner.casts
  | _ => []

/-- The types that the values of a body may be cast to. -/
def Syntax.Body.casts : Body → List TypeExpr
  | .expression value => value.casts
  | .block statements =>
    (returnedByAll statements).flatMap fun value => (value.map Expr.casts).getD []

/-- `JSX.Element`, as it may be written. -/
def jsxElementReference : TypeExpr := .reference (.qualified (.ident "JSX") "Element")

/-- `R` goes along with the resolution of type expressions for which `P` holds, and `P` holds of all
that inference may resolve without a cast. -/
structure Along (index : Index) (R : Arena → Arena → Prop) (scope : ScopeId) (P : TypeExpr → Prop) :
    Prop where
  resolve : ∀ type, P type → ∀ a, R a ((Resolve.resolve index scope type).run a).2
  keyword : ∀ keyword, P (.keyword keyword)
  jsxElement : P jsxElementReference

namespace Resolve

variable {index : Index} {R : Arena → Arena → Prop} {scope : ScopeId} {P : TypeExpr → Prop}
variable {a : Arena}

theorem inferKeyword_along (h : Along index R scope P) (keyword : KeywordType) :
    Runs R a (intrinsic keyword) fun _ _ => True :=
  ⟨h.resolve _ (h.keyword keyword) a, trivial⟩

variable [Std.Refl R]

theorem inferredType_along (h : Along index R scope P) (known : Inferred) :
    Runs R a (inferredType index scope known) fun _ _ => True := by
  cases known with
  | jsx => exact ⟨h.resolve _ h.jsxElement a, trivial⟩
  | nullish | type | unknown => exact .done trivial

variable [IsTrans Arena R]

theorem inferCast_along (h : Along index R scope P) {type : TypeExpr} (hp : P type) :
    Runs R a (inferCast index scope type) fun _ _ => True := by
  have hresolve : Runs R a (resolve index scope type) fun _ _ => True :=
    ⟨h.resolve type hp a, trivial⟩
  refine hresolve.bind fun r _ _ _ => ?_
  cases r <;> exact .done trivial

theorem inferExpr_along (h : Along index R scope P) (value : Expr)
    (hp : ∀ type ∈ value.casts, P type) :
    Runs R a (inferExpr index scope value) fun _ _ => True := by
  fun_induction inferExpr index scope value generalizing a with
  | case1 | case3 | case4 | case5 | case17 => exact .done trivial
  | case2 inner ih | case7 _ inner ih | case10 inner ih | case11 inner ih | case12 inner ih =>
    exact ih hp
  | case6 _ left right ih ih' | case8 left right ih ih' =>
    rw [Expr.casts] at hp
    refine (ih fun type ht => hp type (List.mem_append_left _ ht)).bind fun _ _ _ _ => ?_
    exact (ih' fun type ht => hp type (List.mem_append_right _ ht)).bind fun _ _ _ _ => .done trivial
  | case9 _ type => exact inferCast_along h (hp type (List.mem_singleton_self _))
  | case13 | case14 | case15 | case16 => exact (inferKeyword_along h _).map fun _ _ _ => trivial

theorem inferReturned_along (h : Along index R scope P) (value : Option Expr)
    (hp : ∀ type ∈ (value.map Expr.casts).getD [], P type) :
    Runs R a (inferReturned index scope value) fun _ _ => True := by
  cases value with
  | none => exact .done trivial
  | some value => exact inferExpr_along h value hp

theorem inferAny_along (h : Along index R scope P) (known : Inferred) (values : List (Option Expr))
    (hp : ∀ value ∈ values, ∀ type ∈ (value.map Expr.casts).getD [], P type) :
    Runs R a
      (values.foldlM (fun known value => return known.combine (← inferReturned index scope value))
        known) fun _ _ => True := by
  induction values generalizing a known with
  | nil => exact .done trivial
  | cons value rest ih =>
    obtain ⟨hvalue, hrest⟩ := List.forall_mem_cons.1 hp
    rw [List.foldlM_cons]
    have hfirst : Runs R a
        (inferReturned index scope value >>= fun other => pure (known.combine other))
        fun _ _ => True :=
      (inferReturned_along h value hvalue).bind fun _ _ _ _ => .done trivial
    exact hfirst.bind fun known _ _ _ => ih known hrest

theorem inferReturn_along (h : Along index R scope P) (body : Body)
    (hp : ∀ type ∈ body.casts, P type) :
    Runs R a (inferReturn index scope body) fun _ _ => True := by
  cases body with
  | expression value =>
    exact (inferExpr_along h value hp).bind fun _ _ _ _ => inferredType_along h _
  | block statements =>
    rw [inferReturn]
    split
    · exact (inferKeyword_along h .void).map fun _ _ _ => trivial
    · refine (inferAny_along h _ _ fun value hvalue type ht => hp type ?_).bind
        fun _ _ _ _ => inferredType_along h _
      exact List.mem_flatMap.2 ⟨value, hvalue, ht⟩

/-- What is resolved for an inferred return type. -/
theorem returnTypeOf_along {function : FunctionId} {P : ScopeId → TypeExpr → Prop}
    (h : ∀ site, index.functionSites[function.index]? = some site →
      Along index R site.scope (P site.scope) ∧
        ∀ body ∈ site.body, ∀ type ∈ body.casts, P site.scope type) :
    Runs R a (returnTypeOf index function) fun _ _ => True := by
  unfold returnTypeOf
  rcases hsite : index.functionSites[function.index]? with _ | site
  · exact .done trivial
  · obtain ⟨halong, hcasts⟩ := h site hsite
    simp only
    split
    · exact .done trivial
    · split
      · exact .done trivial
      · rename_i body hbody
        exact inferReturn_along halong body (hcasts body hbody)

end Resolve

end ComponentSchema
