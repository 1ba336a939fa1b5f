import ComponentSchema.Proofs.Checker.ElementTypes

/-!
# Which bodies return an element

Whether a function is inferred to return `Element` in `JSX` can be read off its values and the index:
either all values are JSX, and the name `JSX.Element` leads to an element, or all values are cast to
names that lead to the same element. What was asked before makes no difference.

Results.
* `Resolve.inferReturn_isElement_iff`: for every scope and body.
* `Program.infersElement_iff`: after any queries.
-/
namespace ComponentSchema

open Syntax Relation Arena

variable {index : Index} {scope : ScopeId} {a a' : Arena} {value : Expr} {known : Inferred}

/-- A value is cast to a name that leads to an element. -/
def Syntax.Expr.CastsToElement (index : Index) (scope : ScopeId) (value : Expr) (o : TypeOrigin) :
    Prop :=
  ∃ type, value.castType? = some type ∧ index.NamesElement scope type o

/-- All values of a body are JSX where `JSX.Element` leads to an element, or all are cast to the same
element. -/
def Syntax.Body.ReturnsElement (index : Index) (scope : ScopeId) (body : Body) : Prop :=
  body.values ≠ [] ∧
    (((∀ value ∈ body.values, value.isJsx = true) ∧ ∃ o, index.NamesElement scope jsxElementReference o) ∨
      ∃ o, ∀ value ∈ body.values, value.CastsToElement index scope o)

instance : Std.Refl Retains := ⟨Retains.refl⟩

instance : IsTrans Arena Retains := ⟨fun _ _ _ => Retains.trans⟩

theorem TellsElement.retains {Leads : TypeOrigin → Prop} {r : Option TypeId}
    (h : TellsElement index Leads r a) (hk : Retains a a') : TellsElement index Leads r a' where
  has := hk.hasAnswer h.has
  gives o ho := by
    obtain ⟨t, hr, ht⟩ := h.gives o ho
    exact ⟨t, hr, ht.retains hk⟩
  leads t hr helement := by
    rw [hk.typeData (h.has t hr)] at helement
    exact h.leads t hr helement

/-- An answer is an element just if it is said which one. -/
theorem TellsElement.isElement_iff {Leads : TypeOrigin → Prop} {r : Option TypeId}
    (h : TellsElement index Leads r a) (ha : a.Clear index) :
    (∃ t, r = some t ∧ (a.typeData t).symbol = some TypeSymbol.jsxElement) ↔ ∃ o, Leads o := by
  constructor
  · rintro ⟨t, hr, helement⟩
    exact h.leads t hr helement
  · rintro ⟨o, ho⟩
    obtain ⟨t, hr, ht⟩ := h.gives o ho
    obtain ⟨w, hready⟩ := ha.ready
    exact ⟨t, hr, ht.symbol hready.faithful⟩

namespace Resolve

/-! ## Values -/

/-- What has been found out about a value: whether it is JSX, and which element it is cast to. -/
structure KnownElement (index : Index) (scope : ScopeId) (value : Expr) (known : Inferred) (a : Arena) :
    Prop where
  jsx : known = .jsx ↔ value.isJsx = true
  notNullish : known ≠ .nullish
  tells : TellsElement index (value.CastsToElement index scope) known.type? a

/-- What is not cast is no element, if nothing else is known of it. -/
theorem tells_nothing {value : Expr} (h : value.castType? = none) :
    TellsElement index (value.CastsToElement index scope) none a := by
  refine ⟨HasAnswer.none, fun o ⟨type, htype, _⟩ => ?_, nofun⟩
  rw [h] at htype
  cases htype

theorem knownElement_jsx {parts : List Expr} : KnownElement index scope (.jsx parts) .jsx a :=
  ⟨iff_of_true rfl rfl, nofun, tells_nothing rfl⟩

theorem valueType_element (h : a.Clear index) (value : Expr) :
    Runs Retains a (valueType index scope value) fun r a' =>
      a'.Clear index ∧ TellsElement index (value.CastsToElement index scope) r a' := by
  -- A keyword is no name.
  have hkeyword : ∀ (keyword : KeywordType) {value : Expr}, value.castType? = none →
      Runs Retains a (some <$> intrinsic keyword) fun r a' =>
        a'.Clear index ∧ TellsElement index (value.CastsToElement index scope) r a' := by
    intro keyword value hvalue
    refine (resolve_element h scope (.keyword keyword)).imp fun r a' _ ⟨ha', htells⟩ => ⟨ha', ?_⟩
    refine ⟨htells.has, fun o ⟨type, htype, _⟩ => ?_, fun t hr helement => ?_⟩
    · rw [hvalue] at htype
      cases htype
    · obtain ⟨o, ho⟩ := htells.leads t hr helement
      exact nomatch ho.isName
  cases value with
  | cast operand type =>
    refine (resolve_element h scope type).imp fun r a' _ ⟨ha', htells⟩ => ⟨ha', ?_⟩
    refine ⟨htells.has, fun o ⟨type', htype', ho⟩ => ?_, fun t hr helement => ?_⟩
    · obtain rfl := Option.some.inj htype'
      exact htells.gives o ho
    · obtain ⟨o, ho⟩ := htells.leads t hr helement
      exact ⟨o, type, rfl, ho⟩
  | string | template | number | boolean => exact hkeyword _ rfl
  | _ => exact .done ⟨h, tells_nothing rfl⟩

theorem inferExpr_element (hleaf : value.isLeaf = true) (hsome : value.isNullish = false)
    (h : a.Clear index) :
    Runs Retains a (inferExpr index scope value) fun known a' =>
      a'.Clear index ∧ KnownElement index scope value known a' := by
  by_cases hjsx : value.isJsx = true
  · cases value with
    | jsx parts =>
      rw [inferExpr]
      exact .done ⟨h, knownElement_jsx⟩
    | _ => cases hjsx
  · rw [inferExpr_value hleaf hsome (Bool.eq_false_iff.2 hjsx)]
    refine (valueType_element h value).map fun r a' hr => ⟨hr.1, ?_, ?_, ?_⟩
    · exact iff_of_false (Inferred.ofType?_ne_jsx r) hjsx
    · exact Inferred.ofType?_ne_nullish r
    · cases r <;> exact hr.2

/-- What is known of a value is the type that the arena has for an element just if it is cast to it. -/
theorem KnownElement.type_iff {o : TypeOrigin} {t : TypeId} (h : KnownElement index scope value known a)
    (ha : a.Clear index) (ht : a.GivesElement index o t) :
    known = .type t ↔ value.CastsToElement index scope o := by
  obtain ⟨w, hready⟩ := ha.ready
  constructor
  · intro hknown
    obtain ⟨o', ho'⟩ := h.tells.leads t (Inferred.type?_eq_some.2 hknown) (ht.symbol hready.faithful)
    obtain ⟨t', hknown', ht'⟩ := h.tells.gives o' ho'
    obtain rfl : t = t' := Inferred.type.inj (hknown.symm.trans (Inferred.type?_eq_some.1 hknown'))
    exact ht.origin_eq ht' hready.faithful ▸ ho'
  · intro ho
    obtain ⟨t', hknown', ht'⟩ := h.tells.gives o ho
    rw [ht.unique ht']
    exact Inferred.type?_eq_some.1 hknown'

/-- The values of a body come to one element just if all of them are cast to it. -/
theorem joined_element {values : List Expr} {known : List Inferred} (hsome : values ≠ [])
    (h : List.Forall₂ (fun value one => KnownElement index scope value one a) values known)
    (ha : a.Clear index) :
    (Inferred.joined known = .jsx ↔ ∀ value ∈ values, value.isJsx = true) ∧
      TellsElement index (fun o => ∀ value ∈ values, value.CastsToElement index scope o)
        (Inferred.joined known).type? a := by
  have hsaid := h.imp fun _ _ hone => hone.notNullish
  have htype : ∀ {o t}, a.GivesElement index o t → (Inferred.joined known = .type t ↔
      ∀ value ∈ values, value.CastsToElement index scope o) :=
    fun ht => Inferred.joined_iff hsome hsaid nofun (h.imp fun _ _ hone => hone.type_iff ha ht)
  refine ⟨Inferred.joined_iff hsome hsaid nofun (h.imp fun _ _ hone => hone.jsx), ?_⟩
  obtain ⟨hknown, hnone⟩ := Inferred.says_of_forall₂ hsome hsaid
  -- What all of them come to is what the first one does.
  cases h with
  | nil => exact absurd rfl hsome
  | @cons first one rest others hfirst hrest =>
    have hone : ∀ t, (Inferred.joined (one :: others)).type? = some t → one.type? = some t := by
      intro t ht
      have hall : Inferred.joined (one :: others) = .type t ↔ ∀ other ∈ one :: others, other = .type t :=
        Inferred.joined_eq_iff hknown hnone nofun
      rw [Inferred.type?_eq_some] at ht ⊢
      exact hall.1 ht one (List.mem_cons_self ..)
    refine ⟨fun t ht => hfirst.tells.has t (hone t ht), fun o ho => ?_, fun t ht helement => ?_⟩
    · obtain ⟨t, -, hgives⟩ := hfirst.tells.gives o (ho first (List.mem_cons_self ..))
      exact ⟨t, Inferred.type?_eq_some.2 ((htype hgives).2 ho), hgives⟩
    · obtain ⟨o, ho⟩ := hfirst.tells.leads t (hone t ht) helement
      obtain ⟨t', ht', hgives⟩ := hfirst.tells.gives o ho
      obtain rfl : t = t' := Option.some.inj ((hone t ht).symm.trans ht')
      exact ⟨o, (htype hgives).1 (Inferred.type?_eq_some.1 ht)⟩

/-- What is known of all values of a body. -/
theorem inferEach_element (scope : ScopeId) (body : Body) (h : a.Clear index) :
    Runs Retains a (inferEach index scope body.values) fun all a' => a'.Clear index ∧
      ∃ known, List.Forall₂ (fun value one => KnownElement index scope value one a') body.values known ∧
        all = Inferred.joined known :=
  inferEach_sees (I := Arena.Clear index) (P := KnownElement index scope)
    (fun _ _ _ _ hk hknown => ⟨hknown.jsx, hknown.notNullish, hknown.tells.retains hk⟩)
    (fun _ hvalue _ ha =>
      inferExpr_element (Body.isLeaf_of_mem_values hvalue) (Body.isNullish_of_mem_values hvalue) ha) h

/-! ## Bodies -/

/-- The type that stands for what is known is an element if `JSX.Element` leads to one, or if it is known
which one. -/
theorem inferredType_isElement (ha : a.Clear index) {AllJsx : Prop} {Leads : TypeOrigin → Prop}
    (hjsx : known = .jsx ↔ AllJsx) (htells : TellsElement index Leads known.type? a) :
    let inferred := (inferredType index scope known).run a
    (∃ t, inferred.1 = some t ∧ (inferred.2.typeData t).symbol = some TypeSymbol.jsxElement) ↔
      (AllJsx ∧ ∃ o, index.NamesElement scope jsxElementReference o) ∨ ∃ o, Leads o := by
  have hnone : known.type? = none → ¬ ∃ o, Leads o := by
    rintro hknown ⟨o, ho⟩
    obtain ⟨t, ht, -⟩ := htells.gives o ho
    exact nomatch hknown.symm.trans ht
  cases known with
  | jsx =>
    obtain ⟨-, ha', htells'⟩ := resolve_element ha scope jsxElementReference
    rw [or_iff_left (hnone rfl), and_iff_right (hjsx.1 rfl)]
    exact htells'.isElement_iff ha'
  | type t =>
    rw [or_iff_right fun h => nomatch hjsx.2 h.1]
    exact htells.isElement_iff ha
  | nullish | unknown =>
    refine iff_of_false ?_ ?_
    · rintro ⟨t, ht, -⟩
      cases ht
    · rintro (h | h)
      · exact nomatch hjsx.2 h.1
      · exact hnone rfl h

/-- A body is inferred to return an element just if its values say so. -/
theorem inferReturn_isElement_iff (h : a.Clear index) (scope : ScopeId) (body : Body) :
    let inferred := (inferReturn index scope body).run a
    (∃ t, inferred.1 = some t ∧ (inferred.2.typeData t).symbol = some TypeSymbol.jsxElement) ↔
      body.ReturnsElement index scope := by
  by_cases hvalues : body.values = []
  · -- Nothing is known of what is returned, or that it is `void`.
    refine iff_of_false ?_ fun hreturns => hreturns.1 hvalues
    rcases inferReturn_noValues index scope hvalues with hrun | hrun
    · rw [hrun]
      rintro ⟨t, ht, -⟩
      cases ht
    · rw [hrun]
      obtain ⟨-, ha, htells⟩ := resolve_element h scope (.keyword .void)
      refine fun helement => ?_
      obtain ⟨o, ho⟩ := (htells.isElement_iff ha).1 helement
      exact nomatch ho.isName
  · rw [inferReturn_values hvalues, Body.ReturnsElement]
    obtain ⟨-, hclear, known, hknown, hall⟩ := inferEach_element scope body h
    obtain ⟨hjsx, htells⟩ := joined_element hvalues hknown hclear
    rw [← hall] at hjsx htells
    rw [and_iff_right hvalues]
    exact inferredType_isElement hclear hjsx htells

end Resolve

/-- A function is inferred to return an element. -/
def Program.InfersElement (program : Program) (queries : List Query) (scope : ScopeId) (body : Body) :
    Prop :=
  let inferred := (Resolve.inferReturn program.index scope body).run (program.after queries)
  ∃ t, inferred.1 = some t ∧ (inferred.2.typeData t).symbol = some TypeSymbol.jsxElement

theorem Program.infersElement_iff (program : Program) (queries : List Query) (scope : ScopeId)
    (body : Body) :
    program.InfersElement queries scope body ↔ body.ReturnsElement program.index scope :=
  Resolve.inferReturn_isElement_iff (program.clear_after queries) scope body

end ComponentSchema
