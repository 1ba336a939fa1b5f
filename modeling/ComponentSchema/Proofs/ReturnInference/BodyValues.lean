import ComponentSchema.Proofs.ReturnInference.InferenceSteps

/-!
# The values of a function body

What a function returns comes down to its values: the expressions that its return arguments choose
from, seen through parentheses and through whatever else passes a value on. What is known about each of
them is joined. `null`, `undefined` and `void` values say nothing; all others have to agree.

Results.
* `inferExpr_leaves`, `inferReturn_values`: inference goes from value to value.
* `Inferred.joined_iff`: something is known of several values if it is known of each of them.
* `inferEach_sees`: by induction on the values, what holds of each value holds in the end.
-/
namespace ComponentSchema

open Syntax

/-! ## Values -/

/-- The expressions that the value of an expression may come from. -/
def Syntax.Expr.leaves : Expr → List Expr
  | .parenthesized inner => inner.leaves
  | .conditional _ consequent alternate => consequent.leaves ++ alternate.leaves
  | .logicalAnd _ right => right.leaves
  | .alternative left right => left.leaves ++ right.leaves
  | .satisfies inner => inner.leaves
  | .nonNull inner => inner.leaves
  | .constCast inner => inner.leaves
  | value => [value]

/-- Whether the value of an expression is looked for inside it. -/
def Syntax.Expr.isLeaf : Expr → Bool
  | .parenthesized _ | .conditional .. | .logicalAnd .. | .alternative .. | .satisfies _ | .nonNull _
  | .constCast _ => false
  | _ => true

/-- Whether an expression is `null`, `undefined` or a `void` expression. -/
def Syntax.Expr.isNullish : Expr → Bool
  | .null => true
  | .identifier name => name == "undefined"
  | .void _ => true
  | _ => false

/-- Whether an expression is a JSX element or fragment. -/
def Syntax.Expr.isJsx : Expr → Bool
  | .jsx _ => true
  | _ => false

/-- The type that a value is cast to. -/
def Syntax.Expr.castType? : Expr → Option TypeExpr
  | .cast _ type => some type
  | _ => none

/-- The expressions that what a body returns may come from. -/
def Syntax.Body.leaves : Body → List Expr
  | .expression value => value.leaves
  | .block statements =>
    (returnedByAll statements).flatMap fun value => (value.map Expr.leaves).getD []

/-- The values of a body: `null`, `undefined` and `void` expressions are none. -/
def Syntax.Body.values (body : Body) : List Expr := body.leaves.filter fun leaf => !leaf.isNullish

theorem Syntax.Expr.isLeaf_of_mem_leaves {value leaf : Expr} (h : leaf ∈ value.leaves) :
    leaf.isLeaf = true := by
  fun_induction Expr.leaves value with
  | case1 _ ih | case3 _ _ ih | case5 _ ih | case6 _ ih | case7 _ ih => exact ih h
  | case2 _ _ _ ih ih' | case4 _ _ ih ih' => exact (List.mem_append.1 h).elim ih ih'
  | case8 value =>
    obtain rfl := List.mem_singleton.1 h
    cases leaf <;> simp_all [Expr.isLeaf]

theorem Syntax.Body.isLeaf_of_mem_values {body : Body} {value : Expr} (h : value ∈ body.values) :
    value.isLeaf = true := by
  have hleaf := List.mem_of_mem_filter h
  cases body with
  | expression whole => exact Expr.isLeaf_of_mem_leaves hleaf
  | block statements =>
    obtain ⟨returned, -, hleaf⟩ := List.mem_flatMap.1 hleaf
    cases returned with
    | none => cases hleaf
    | some whole => exact Expr.isLeaf_of_mem_leaves hleaf

theorem Syntax.Body.isNullish_of_mem_values {body : Body} {value : Expr} (h : value ∈ body.values) :
    value.isNullish = false := by
  simpa using (List.mem_filter.1 h).2

/-! ## Joining -/

theorem forall_mem_iff_of_forall₂ {α β : Type} {p : α → Prop} {q : β → Prop} {left : List α}
    {right : List β} (h : List.Forall₂ (fun one other => p one ↔ q other) left right) :
    (∀ one ∈ left, p one) ↔ ∀ other ∈ right, q other := by
  induction h with
  | nil => simp
  | cons hfirst _ ih => rw [List.forall_mem_cons, List.forall_mem_cons, hfirst, ih]

namespace Inferred

@[simp] theorem nullish_combine (known : Inferred) : nullish.combine known = known := by
  cases known <;> rfl

@[simp] theorem nullish_combine_id : nullish.combine = id := funext nullish_combine

@[simp] theorem combine_nullish (known : Inferred) : known.combine nullish = known := by
  cases known <;> rfl

theorem combine_eq {left right : Inferred} (hleft : left ≠ nullish) (hright : right ≠ nullish) :
    left.combine right = if left = right then left else unknown := by
  cases left <;> cases right <;> simp_all [combine]

theorem combine_ne_nullish {left right : Inferred} (hleft : left ≠ nullish) :
    left.combine right ≠ nullish := by
  by_cases hright : right = nullish
  · rwa [hright, combine_nullish]
  · rw [combine_eq hleft hright]
    split
    · exact hleft
    · simp

theorem combine_assoc (first second third : Inferred) :
    (first.combine second).combine third = first.combine (second.combine third) := by
  by_cases hfirst : first = nullish
  · simp [hfirst]
  by_cases hsecond : second = nullish
  · simp [hsecond]
  by_cases hthird : third = nullish
  · simp [hthird]
  rw [combine_eq (combine_ne_nullish hfirst) hthird, combine_eq hfirst (combine_ne_nullish hsecond),
    combine_eq hfirst hsecond, combine_eq hsecond hthird]
  grind

/-- What is known about a value that is one of several. -/
def joined (known : List Inferred) : Inferred := known.foldr combine nullish

theorem joined_ne_nullish {known : List Inferred} (hsome : known ≠ [])
    (hknown : ∀ one ∈ known, one ≠ nullish) : joined known ≠ nullish := by
  cases known with
  | nil => exact absurd rfl hsome
  | cons first rest => exact combine_ne_nullish (hknown first (List.mem_cons_self ..))

/-- Something is known about values of which all are known to be the same. -/
theorem joined_eq_iff {known : List Inferred} {all : Inferred} (hsome : known ≠ [])
    (hknown : ∀ one ∈ known, one ≠ nullish) (hall : all ≠ unknown) :
    joined known = all ↔ ∀ one ∈ known, one = all := by
  induction known with
  | nil => exact absurd rfl hsome
  | cons first rest ih =>
    obtain ⟨hfirst, hrest⟩ := List.forall_mem_cons.1 hknown
    rw [List.forall_mem_cons]
    by_cases hnil : rest = []
    · simp [hnil, joined]
    · rw [← ih hnil hrest, joined, List.foldr_cons, ← joined,
        combine_eq hfirst (joined_ne_nullish hnil hrest)]
      grind

/-- What is known of some values, none of which says nothing. -/
theorem says_of_forall₂ {values : List Expr} {known : List Inferred} (hsome : values ≠ [])
    (h : List.Forall₂ (fun _ one => one ≠ nullish) values known) :
    known ≠ [] ∧ ∀ one ∈ known, one ≠ nullish := by
  refine ⟨?_, (forall_mem_iff_of_forall₂ (p := fun _ => True) (h.imp fun _ _ hone => by simp [hone])).1
    fun _ _ => trivial⟩
  rintro rfl
  exact hsome (List.forall₂_nil_right_iff.1 h)

/-- Something is known of values just if it is known of each. -/
theorem joined_iff {values : List Expr} {known : List Inferred} {p : Expr → Prop} {all : Inferred}
    (hsome : values ≠ []) (hsaid : List.Forall₂ (fun _ one => one ≠ nullish) values known)
    (hall : all ≠ unknown) (h : List.Forall₂ (fun value one => one = all ↔ p value) values known) :
    joined known = all ↔ ∀ value ∈ values, p value := by
  obtain ⟨hknown, hsaid⟩ := says_of_forall₂ hsome hsaid
  rw [joined_eq_iff hknown hsaid hall]
  exact (forall_mem_iff_of_forall₂ (h.imp fun _ _ hone => hone.symm)).symm

/-- The type that a value is known to be of. -/
def type? : Inferred → Option TypeId
  | type t => some t
  | _ => none

theorem type?_eq_some {known : Inferred} {t : TypeId} : known.type? = some t ↔ known = type t := by
  cases known <;> simp [type?]

/-- What is known of the type of a value. -/
def ofType? : Option TypeId → Inferred
  | some id => .type id
  | none => .unknown

theorem ofType?_eq_type_iff {answer : Option TypeId} {t : TypeId} :
    ofType? answer = .type t ↔ answer = some t := by
  cases answer <;> simp [ofType?]

theorem ofType?_ne_nullish (answer : Option TypeId) : ofType? answer ≠ nullish := by
  cases answer <;> simp [ofType?]

theorem ofType?_ne_jsx (answer : Option TypeId) : ofType? answer ≠ jsx := by
  cases answer <;> simp [ofType?]

end Inferred

/-! ## From value to value -/

namespace Resolve

variable {index : Index} {scope : ScopeId}

/-- What is known about a value that is one of several expressions. -/
def inferEach (index : Index) (scope : ScopeId) : List Expr → Resolve Inferred
  | [] => pure .nullish
  | leaf :: rest => do
    let first ← inferExpr index scope leaf
    let second ← inferEach index scope rest
    pure (first.combine second)

theorem inferEach_append (leaves others : List Expr) :
    inferEach index scope (leaves ++ others) = (do
      let first ← inferEach index scope leaves
      let second ← inferEach index scope others
      pure (first.combine second)) := by
  induction leaves with
  | nil => simp [inferEach]
  | cons leaf rest ih =>
    simp only [List.cons_append, inferEach, ih, bind_assoc, pure_bind, Inferred.combine_assoc]

theorem inferEach_singleton (leaf : Expr) : inferEach index scope [leaf] = inferExpr index scope leaf := by
  simp [inferEach]

/-- What is known about the value of an expression is known about what it may come from. -/
theorem inferExpr_leaves (value : Expr) :
    inferExpr index scope value = inferEach index scope value.leaves := by
  fun_induction Expr.leaves value with
  | case1 _ ih | case3 _ _ ih | case5 _ ih | case6 _ ih | case7 _ ih => rw [inferExpr, ih]
  | case2 _ _ _ ih ih' | case4 _ _ ih ih' => rw [inferExpr, ih, ih', inferEach_append]
  | case8 => rw [inferEach_singleton]

theorem inferExpr_isNullish {leaf : Expr} (h : leaf.isNullish = true) :
    inferExpr index scope leaf = pure .nullish := by
  cases leaf <;> simp_all [Expr.isNullish, inferExpr]

/-- `null`, `undefined` and `void` values say nothing. -/
theorem inferEach_filter (leaves : List Expr) :
    inferEach index scope (leaves.filter fun leaf => !leaf.isNullish) =
      inferEach index scope leaves := by
  induction leaves with
  | nil => rfl
  | cons leaf rest ih =>
    rw [inferEach]
    by_cases hnull : leaf.isNullish = true
    · rw [List.filter_cons_of_neg (by simp [hnull]), ih, inferExpr_isNullish hnull]
      simp
    · rw [List.filter_cons_of_pos (by simp [hnull]), inferEach, ih]

theorem inferReturned_leaves (returned : Option Expr) :
    inferReturned index scope returned = inferEach index scope ((returned.map Expr.leaves).getD []) := by
  cases returned with
  | none => rfl
  | some value => exact inferExpr_leaves value

theorem inferAny_from (returned : List (Option Expr)) (known : Inferred) :
    returned.foldlM (fun (known : Inferred) value =>
        return known.combine (← inferReturned index scope value)) known =
      known.combine <$>
        inferEach index scope (returned.flatMap fun value => (value.map Expr.leaves).getD []) := by
  induction returned generalizing known with
  | nil => simp [inferEach]
  | cons value rest ih =>
    simp only [List.foldlM_cons, List.flatMap_cons, inferEach_append, ← inferReturned_leaves,
      map_eq_pure_bind, bind_assoc, pure_bind, ih, Inferred.combine_assoc]

theorem inferAny_leaves (returned : List (Option Expr)) :
    inferAny index scope returned =
      inferEach index scope (returned.flatMap fun value => (value.map Expr.leaves).getD []) := by
  rw [inferAny, inferAny_from, Inferred.nullish_combine_id, id_map]

/-- What a body with values returns is what is known about its values. -/
theorem inferReturn_values {body : Body} (h : body.values ≠ []) :
    inferReturn index scope body =
      inferEach index scope body.values >>= inferredType index scope := by
  rw [Body.values, inferEach_filter]
  cases body with
  | expression value => rw [inferReturn, inferExpr_leaves, Body.leaves]
  | block statements =>
    rw [inferReturn]
    split
    · rename_i hnone
      simp [Body.values, Body.leaves, hnone] at h
    · rw [inferAny_leaves, Body.leaves]

/-- A body without values returns nothing that is of a known type, but for `void`. -/
theorem inferReturn_noValues (index : Index) (scope : ScopeId) {body : Body} (h : body.values = []) :
    inferReturn index scope body = pure none ∨
      inferReturn index scope body = some <$> intrinsic .void := by
  have hnone : inferEach index scope body.leaves = pure .nullish := by
    rw [← inferEach_filter]
    exact congrArg (inferEach index scope) h
  cases body with
  | expression value =>
    rw [inferReturn, inferExpr_leaves]
    exact .inl (by rw [show value.leaves = (Body.expression value).leaves from rfl, hnone]; rfl)
  | block statements =>
    rw [inferReturn]
    split
    · exact .inr rfl
    · rw [inferAny_leaves]
      exact .inl (by rw [show List.flatMap _ (returnedByAll statements) =
        (Body.block statements).leaves from rfl, hnone]; rfl)

/-- The type that a value is known to be of, if it is not JSX. -/
def valueType (index : Index) (scope : ScopeId) : Expr → Resolve (Option TypeId)
  | .cast _ type => resolve index scope type
  | .string _ => some <$> intrinsic .string
  | .template _ => some <$> intrinsic .string
  | .number _ => some <$> intrinsic .number
  | .boolean => some <$> intrinsic .boolean
  | _ => pure none

theorem inferExpr_value {value : Expr} (hleaf : value.isLeaf = true) (hsome : value.isNullish = false)
    (hjsx : value.isJsx = false) :
    inferExpr index scope value = Inferred.ofType? <$> valueType index scope value := by
  cases value with
  | parenthesized | conditional | logicalAnd | alternative | satisfies | nonNull | constCast =>
    cases hleaf
  | null | void => cases hsome
  | jsx => cases hjsx
  | identifier name =>
    rw [Expr.isNullish, beq_eq_false_iff_ne] at hsome
    simp [inferExpr, valueType, hsome, Inferred.ofType?]
  | cast operand type =>
    rw [inferExpr, valueType, inferCast, map_eq_pure_bind]
    refine bind_congr fun answer => ?_
    cases answer <;> rfl
  | string | template | number | boolean => simp [inferExpr, valueType, Inferred.ofType?]
  | arrow | function | classExpr | access | collection | other =>
    simp [inferExpr, valueType, Inferred.ofType?]

/-! ## What holds of each value -/

section

variable {R : Arena → Arena → Prop} [Std.Refl R] [IsTrans Arena R] {I : Arena → Prop}
  {P : Expr → Inferred → Arena → Prop}

/-- What is known of values that are looked at one after the other is joined. What holds when a value
has been looked at holds in the end, if nothing that comes later changes it. -/
theorem inferEach_sees (hkept : ∀ value known a a', R a a' → P value known a → P value known a')
    {values : List Expr} (hvalue : ∀ value ∈ values, ∀ a, I a →
      Runs R a (inferExpr index scope value) fun known a' => I a' ∧ P value known a') {a : Arena}
    (hi : I a) :
    Runs R a (inferEach index scope values) fun all a' => I a' ∧
      ∃ known, List.Forall₂ (fun value one => P value one a') values known ∧
        all = Inferred.joined known := by
  induction values generalizing a with
  | nil => exact .done ⟨hi, [], .nil, rfl⟩
  | cons value rest ih =>
    obtain ⟨hfirst, hrest⟩ := List.forall_mem_cons.1 hvalue
    rw [inferEach]
    refine (hfirst a hi).bind fun one b _ ⟨hb, hone⟩ => ?_
    -- What is found out about the other values leaves the first as it is.
    have hboth : Runs R b (inferEach index scope rest) fun all a' =>
        (I a' ∧ ∃ known, List.Forall₂ (fun value one => P value one a') rest known ∧
          all = Inferred.joined known) ∧ P value one a' :=
      (ih hrest hb).imp fun all c hbc hall => ⟨hall, hkept value one b c hbc hone⟩
    refine hboth.bind fun all c _ ⟨⟨hc, known, hknown, hall⟩, hone⟩ => ?_
    exact .done ⟨hc, one :: known, .cons hone hknown, by rw [hall]; rfl⟩

end

end Resolve

end ComponentSchema
