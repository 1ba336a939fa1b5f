import ComponentSchema.Proofs.Checker.DistinctTypes

/-!
# When a function returns `JSX.Element`

Inference knows two things that both stand for `JSX.Element`: that a value is JSX, and that a value is
of the type that the name `JSX.Element` leads to. It takes them for different. So a function is inferred
to return `JSX.Element` if all of its values are JSX, or if all of them are of that type; if some are JSX
and the others are cast to `JSX.Element`, nothing is known of what it returns.

Results.
* `Program.inferReturn_element_iff`: for every scope and body, after any queries.
* `Program.inferReturn_mixed`: an element next to a cast.
-/
namespace ComponentSchema

open Syntax Relation Arena

namespace Resolve

variable {index : Index} {scope : ScopeId} {a : Arena} {t : TypeId}

/-- What has been found out about a value: whether it is JSX, and of which of the types that are given to
a keyword or a declaration it is, now or whenever it is looked at again. -/
structure Known (index : Index) (scope : ScopeId) (value : Expr) (known : Inferred) (a : Arena) :
    Prop where
  rest : AtRest index (fun _ => True) a
  jsx : known = .jsx ↔ value.isJsx = true
  notNullish : known ≠ .nullish
  type : ∀ c t, a.Later index c → c.Stands t →
    (known = .type t ↔ ((valueType index scope value).run c).1 = some t)

theorem Known.goesOn {value : Expr} {known : Inferred} {a' : Arena} (h : GoesOn index a a')
    (hk : Known index scope value known a) : Known index scope value known a' := by
  have hlater := h hk.rest
  exact ⟨hlater.rest, hk.jsx, hk.notNullish, fun c t hc => hk.type c t (later_trans hlater hc)⟩

theorem known_jsx {parts : List Expr} (ha : AtRest index (fun _ => True) a) :
    Known index scope (.jsx parts) .jsx a :=
  ⟨ha, iff_of_true rfl rfl, nofun, fun _ _ _ _ => iff_of_false nofun nofun⟩

theorem inferExpr_known {value : Expr} (hleaf : value.isLeaf = true) (hsome : value.isNullish = false)
    (ha : AtRest index (fun _ => True) a) :
    Runs (GoesOn index) a (inferExpr index scope value) fun known a' =>
      AtRest index (fun _ => True) a' ∧ Known index scope value known a' := by
  have hgoes : GoesOn index a ((inferExpr index scope value).run a).2 :=
    (inferExpr_along (along_goesOn scope) value fun _ _ => trivial).1
  have hlater := hgoes ha
  refine ⟨hgoes, hlater.rest, ?_⟩
  by_cases hjsx : value.isJsx = true
  · obtain ⟨_, rfl⟩ : ∃ parts, value = .jsx parts := by
      cases value with
      | jsx parts => exact ⟨parts, rfl⟩
      | _ => cases hjsx
    rw [inferExpr]
    exact known_jsx ha
  · rw [inferExpr_value hleaf hsome (Bool.eq_false_iff.2 hjsx)] at hlater ⊢
    refine ⟨hlater.rest, iff_of_false (Inferred.ofType?_ne_jsx _) hjsx, Inferred.ofType?_ne_nullish _,
      fun c t hc ht => ?_⟩
    exact Inferred.ofType?_eq_type_iff.trans (valueType_again ha scope value c t hc ht)

/-- What is known of all values of a body. -/
theorem inferEach_known (scope : ScopeId) (body : Body) (ha : AtRest index (fun _ => True) a) :
    Runs (GoesOn index) a (inferEach index scope body.values) fun all a' =>
      AtRest index (fun _ => True) a' ∧
        ∃ known, List.Forall₂ (fun value one => Known index scope value one a') body.values known ∧
          all = Inferred.joined known :=
  inferEach_sees (I := AtRest index fun _ => True) (P := Known index scope)
    (fun _ _ _ _ h hk => hk.goesOn h)
    (fun _ hvalue _ ha =>
      inferExpr_known (Body.isLeaf_of_mem_values hvalue) (Body.isNullish_of_mem_values hvalue) ha) ha

/-- What the values of a body come to. `c` is any later arena. -/
theorem joined_known {values : List Expr} {known : List Inferred} {c : Arena} (hsome : values ≠ [])
    (h : List.Forall₂ (fun value one => Known index scope value one a) values known)
    (hc : a.Later index c) :
    (Inferred.joined known = .jsx ↔ ∀ value ∈ values, value.isJsx = true) ∧
      ∀ t, c.Stands t → (Inferred.joined known = .type t ↔
        ∀ value ∈ values, ((valueType index scope value).run c).1 = some t) := by
  have hsaid := h.imp fun _ _ hone => hone.notNullish
  refine ⟨Inferred.joined_iff hsome hsaid nofun (h.imp fun _ _ hone => hone.jsx), fun t ht => ?_⟩
  exact Inferred.joined_iff hsome hsaid nofun (h.imp fun _ _ hone => hone.type c t hc ht)

theorem jsxElement_goesOn (scope : ScopeId) (a : Arena) :
    GoesOn index a ((jsxElement index scope).run a).2 :=
  resolve_goesOn scope jsxElementReference a

/-- The type that stands for what is known, next to the type that `JSX.Element` leads to. -/
theorem inferredType_element (ha : AtRest index (fun _ => True) a) (scope : ScopeId) (all : Inferred) :
    let inferred := (inferredType index scope all).run a
    let element := (jsxElement index scope).run inferred.2
    (all = .jsx → inferred.1 = element.1) ∧
      ∀ t, element.1 = some t → (inferred.1 = some t ↔ all = .jsx ∨ all = .type t) := by
  cases all with
  | jsx =>
    have hsame := (resolveName_settles ha scope jsxElementSegments).same _
      (later_refl (jsxElement_goesOn scope a ha).rest)
    exact ⟨fun _ => hsame.symm, fun t ht => iff_of_true (hsame.symm.trans ht) (.inl rfl)⟩
  | type id =>
    refine ⟨nofun, fun t _ => ?_⟩
    show some id = some t ↔ _
    simp
  | nullish | unknown => exact ⟨nofun, fun t _ => iff_of_false nofun (by simp)⟩

end Resolve

open Resolve

/-- A body that returns a value is inferred to return `JSX.Element` just if all of its values are JSX, or
all of them are of the type that `JSX.Element` leads to. -/
theorem Program.inferReturn_element_iff (program : Program) (queries : List Query) (scope : ScopeId)
    {body : Body} (hvalues : body.values ≠ []) :
    let inferred := (Resolve.inferReturn program.index scope body).run (program.after queries)
    let element := (Resolve.jsxElement program.index scope).run inferred.2
    ((∀ value ∈ body.values, value.isJsx = true) → inferred.1 = element.1) ∧
      ∀ t, element.1 = some t →
        (inferred.1 = some t ↔
          (∀ value ∈ body.values, value.isJsx = true) ∨
            ∀ value ∈ body.values,
              ((Resolve.valueType program.index scope value).run element.2).1 = some t) := by
  rw [inferReturn_values hvalues]
  have hrest : AtRest program.index (fun _ => True) (program.after queries) :=
    atRest_after program.index.scoped_true queries
  obtain ⟨-, hrest, known, hknown, hall⟩ :=
    inferEach_known scope body hrest
  intro inferred element
  generalize hrun : (inferEach program.index scope body.values).run (program.after queries) = seen
    at hrest hknown hall
  have hinferred : inferred = (inferredType program.index scope seen.1).run seen.2 := by
    show StateT.run (_ >>= _) _ = _
    rw [StateT.run_bind, hrun]
    rfl
  -- The values are known alike when `JSX.Element` has been resolved once more.
  have hlater : seen.2.Later program.index inferred.2 := by
    rw [hinferred]
    exact (inferredType_along (along_goesOn scope) seen.1).1 hrest
  have hafter := later_trans hlater (jsxElement_goesOn scope inferred.2 hlater.rest)
  obtain ⟨hjsx, htype⟩ := joined_known hvalues hknown hafter
  obtain ⟨hsame, hiff⟩ := inferredType_element hrest scope seen.1
  rw [← hinferred] at hsame hiff
  refine ⟨fun h => hsame (hall.trans (hjsx.2 h)), fun t ht => ?_⟩
  have hstands := (resolveName_settles hlater.rest scope jsxElementSegments).stands t ht
  rw [hiff t ht, hall, hjsx, htype t hstands]

/-- A function that returns `null` or what it says is an element, where `JSX` is not declared. -/
theorem Program.inferReturn_element_cast :
    let body := Body.expression
      (.conditional (.identifier "x") .null (.parenthesized (.cast .null jsxElementReference)))
    let inferred := (Resolve.inferReturn Index.empty globalScope body).run Arena.empty
    body.values ≠ [] ∧ inferred.1 = some ⟨0⟩ ∧
      ((Resolve.jsxElement Index.empty globalScope).run inferred.2).1 = some ⟨0⟩ := by
  have hvalues : (Body.expression (.conditional (.identifier "x") .null
      (.parenthesized (.cast .null jsxElementReference)))).values =
        [.cast .null jsxElementReference] := rfl
  have hsome := hvalues ▸ List.cons_ne_nil _ _
  refine ⟨hsome, ?_, by decide +kernel⟩
  refine ((Program.inferReturn_element_iff ⟨[], Index.empty⟩ [] globalScope hsome).2 ⟨0⟩
    (by decide +kernel)).2 (.inr fun value hvalue => ?_)
  rw [hvalues] at hvalue
  obtain rfl := List.mem_singleton.1 hvalue
  decide +kernel

/-! ## An element next to a cast -/

/-- A component that returns an element or `null`, which it says is an element. -/
def mixedTree : FileTree where
  entries := [(["a.tsx"], .file ("export function F(x: boolean) \x7b " ++
    "return x ? <div /> : (null as JSX.Element); \x7d\n"))]
  current := []

/-- The first function of a program that has a body, and what its values and its result are. -/
def Program.firstReturn (program : Program) :
    Option (List (Bool × Option (Option TypeId)) × Option TypeId × Option TypeId) := do
  let site ← program.index.functionSites[0]?
  let body ← site.body
  let inferred := (Resolve.inferReturn program.index site.scope body).run Arena.empty
  let element := (Resolve.jsxElement program.index site.scope).run inferred.2
  some (body.values.map fun value => (value.isJsx, value.castType?.map fun type =>
    ((Resolve.resolve program.index site.scope type).run element.2).1), inferred.1, element.1)

set_option maxRecDepth 100000 in
theorem firstReturn_mixedTree :
    (Program.load mixedTree [⟨"a.tsx"⟩]).toOption.bind Program.firstReturn =
      some ([(true, none), (false, some (some ⟨0⟩))], none, some ⟨0⟩) := by
  decide +kernel

/-- If some values are JSX and all others are cast to `JSX.Element`, the function need not be inferred to
return it. -/
theorem Program.inferReturn_mixed : ¬ ∀ (tree : FileTree) (roots : List Path) (program : Program),
    Program.load tree roots = .ok program → ∀ queries scope (body : Body), body.values ≠ [] →
      let inferred := (Resolve.inferReturn program.index scope body).run (program.after queries)
      let element := (Resolve.jsxElement program.index scope).run inferred.2
      (∀ value ∈ body.values, value.isJsx = true ∨ ∃ type, value.castType? = some type ∧
        ((Resolve.resolve program.index scope type).run element.2).1 = element.1) →
          inferred.1 = element.1 := by
  intro hclaim
  have hfirst := firstReturn_mixedTree
  rcases hload : Program.load mixedTree [⟨"a.tsx"⟩] with error | program
  · rw [hload] at hfirst
    cases hfirst
  · rw [hload] at hfirst
    replace hfirst : program.firstReturn = _ := hfirst
    obtain ⟨site, -, hfirst⟩ := Option.bind_eq_some_iff.1 hfirst
    obtain ⟨body, -, hfirst⟩ := Option.bind_eq_some_iff.1 hfirst
    obtain ⟨hvalues, hresult⟩ := Prod.mk.inj (Option.some.inj hfirst)
    obtain ⟨hinferred, helement⟩ := Prod.mk.inj hresult
    have hsome : body.values ≠ [] := by
      intro hnone
      rw [hnone] at hvalues
      cases hvalues
    have hsame := hclaim _ _ program hload [] site.scope body hsome fun value hvalue => by
      have hpair := hvalues ▸ List.mem_map_of_mem hvalue
      rcases List.mem_cons.1 hpair with hjsx | hcast
      · exact .inl (Prod.mk.inj hjsx).1
      · obtain ⟨type, htype, hresolved⟩ :=
          Option.map_eq_some_iff.1 (Prod.mk.inj (List.mem_singleton.1 hcast)).2
        exact .inr ⟨type, htype, hresolved.trans helement.symm⟩
    have hnone : none = some (⟨0⟩ : TypeId) := hinferred.symm.trans (hsame.trans helement)
    cases hnone

end ComponentSchema
