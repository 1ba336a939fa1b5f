import ComponentSchema.Program
import ComponentSchema.Proofs.Checker.RequestedDeclarations

/-!
# What functions return

What is known of the values that a function returns, given by the index alone. A cast makes a type of
its own, which is none of those that come from anywhere else; of two casts nothing is known, even where
they read the same.

Results.
* `outlineOf_forall`: what holds of all types that an annotation may denote.
* `Infers.combine`: what is known of one of two values.
* `inferExpr_asks`: the inference of an expression.
* `classify_asks`: which declarations are components.
-/
namespace ComponentSchema

open Syntax Relation

/-! ## Types that an annotation may denote -/

section

variable {index : Index} {declared : DeclId → Option Outline} {own : TypeOrigin} {scope : ScopeId}
  {P : Outline → Prop}

theorem outlineOfName_forall (hdeclared : ∀ d, ∀ v ∈ declared d, P v) (hjsx : P Outline.jsxElement)
    (segments : List String) : ∀ v ∈ outlineOfName index declared scope segments, P v := by
  intro v hv
  unfold outlineOfName at hv
  split at hv
  · exact hdeclared _ v hv
  · split at hv
    · obtain rfl := Option.some.inj hv
      exact hjsx
    · cases hv

/-- What an annotation denotes is what a declaration does, or the type of a keyword, or made for it. -/
theorem outlineOf_forall (hdeclared : ∀ d, ∀ v ∈ declared d, P v) (hjsx : P Outline.jsxElement)
    (hkeyword : ∀ keyword, P (Outline.keyword keyword)) (aliasName : Option String) (type : TypeExpr)
    (hmade : ∀ symbol members name, symbol = none ∨ symbol = some TypeSymbol.anonymous →
      name = aliasName ∨ name = none → P ⟨own, symbol, name, none, members⟩) :
    ∀ v ∈ outlineOf index declared own scope aliasName type, P v := by
  intro v hv
  induction type using TypeExpr.resolutionRec generalizing aliasName with
  | keyword keyword =>
    rw [outlineOf] at hv
    obtain rfl := Option.some.inj hv
    exact hkeyword keyword
  | parenthesized inner ih =>
    rw [outlineOf] at hv
    exact ih aliasName hmade hv
  | reference name =>
    rw [outlineOf] at hv
    exact outlineOfName_forall hdeclared hjsx name.segments v hv
  | single parts part hsingle ih =>
    rw [outlineOf_single hsingle] at hv
    refine ih none (fun symbol members name hs hn => ?_) hv
    exact hmade symbol members name hs (.inr (hn.elim id id))
  | several parts hseveral =>
    rw [outlineOf_several hseveral] at hv
    obtain rfl := Option.some.inj hv
    exact hmade _ _ _ (.inl rfl) (.inl rfl)
  | literal | function | constructor =>
    rw [outlineOf] at hv
    obtain rfl := Option.some.inj hv
    exact hmade _ _ _ (.inr rfl) (.inl rfl)
  | intersection =>
    rw [outlineOf] at hv
    obtain rfl := Option.some.inj hv
    exact hmade _ _ _ (.inl rfl) (.inl rfl)
  | other =>
    rw [outlineOf] at hv
    obtain rfl := Option.some.inj hv
    exact hmade _ _ _ (.inl rfl) (.inr rfl)

end

theorem anonymous_ne_jsxElement : some TypeSymbol.anonymous ≠ some TypeSymbol.jsxElement := by decide

/-- What comes from an alias. -/
def TypeOrigin.FromAlias (index : Index) (o : TypeOrigin) : Prop :=
  ∃ d decl, o = .declared d ∧ index.decls[d.index]? = some decl ∧ Program.isAlias decl = true

/-- A type with an alias name comes from an alias, and `JSX.Element` from no annotation of the view. -/
structure Outline.Grounded (index : Index) (v : Outline) : Prop where
  aliased : v.aliasName ≠ none → v.origin.FromAlias index
  element : v.symbol = some TypeSymbol.jsxElement → ∀ node, v.origin ≠ .site node

section

variable {index : Index} {declared : DeclId → Option Outline} {own : TypeOrigin} {scope : ScopeId}

theorem Outline.Grounded.keyword (keyword : KeywordType) : (Outline.keyword keyword).Grounded index :=
  ⟨fun h => absurd rfl h, fun h => nomatch h⟩

theorem Outline.Grounded.jsxElement : Outline.jsxElement.Grounded index :=
  ⟨fun h => absurd rfl h, fun _ _ => nofun⟩

theorem Outline.Grounded.of_declared {v : Outline} {d : DeclId} (horigin : v.origin = .declared d)
    (hname : v.aliasName = none) : v.Grounded index := by
  refine ⟨fun h => absurd hname h, fun _ node hnode => ?_⟩
  rw [horigin] at hnode
  cases hnode

theorem outlineOf_grounded {aliasName : Option String}
    (hdeclared : ∀ d, ∀ v ∈ declared d, v.Grounded index)
    (halias : aliasName ≠ none → own.FromAlias index) (type : TypeExpr) :
    ∀ v ∈ outlineOf index declared own scope aliasName type, v.Grounded index := by
  refine outlineOf_forall hdeclared .jsxElement .keyword aliasName type fun symbol members name hs hn =>
    ⟨fun hname => halias ?_, fun hsymbol => ?_⟩
  · rcases hn with rfl | rfl
    · exact hname
    · exact absurd rfl hname
  · rcases hs with rfl | rfl
    · cases hsymbol
    · exact absurd hsymbol anonymous_ne_jsxElement

theorem unfoldDecl_grounded (depth : Nat) (opened : List DeclId) (d : DeclId) :
    ∀ v ∈ unfoldDecl index depth opened d, v.Grounded index := by
  induction depth generalizing opened d with
  | zero => simp [unfoldDecl]
  | succ depth ih =>
    intro v hv
    rw [unfoldDecl] at hv
    split at hv
    · cases hv
    · split at hv
      · cases hv
      · rename_i decl hdecl
        obtain ⟨name, scope, kind⟩ := decl
        cases kind with
        | interface bodies =>
          obtain rfl := Option.some.inj hv
          exact .of_declared rfl rfl
        | typeAlias type =>
          exact outlineOf_grounded (fun e => ih _ e) (fun _ => ⟨d, _, rfl, hdecl, rfl⟩) type v hv
        | nominal =>
          obtain rfl := Option.some.inj hv
          exact .of_declared rfl rfl

theorem declMeaning_grounded (d : DeclId) : ∀ v ∈ declMeaning index d, v.Grounded index :=
  unfoldDecl_grounded _ _ d

theorem meaning_grounded (o : TypeOrigin) : ∀ v ∈ meaning index o, v.Grounded index := by
  intro v hv
  cases o with
  | keyword keyword =>
    obtain rfl := Option.some.inj hv
    exact .keyword keyword
  | jsxElement =>
    obtain rfl := Option.some.inj hv
    exact .jsxElement
  | declared d => exact declMeaning_grounded d v hv
  | site node =>
    simp only [meaning] at hv
    split at hv
    · cases hv
    · exact outlineOf_grounded declMeaning_grounded (fun h => absurd rfl h) _ v hv
  | member owner data =>
    simp only [meaning, memberOutline] at hv
    split at hv
    · exact outlineOf_grounded declMeaning_grounded (fun h => absurd rfl h) _ v hv
    · obtain rfl := Option.some.inj hv
      exact .keyword .any
    · obtain rfl := Option.some.inj hv
      exact ⟨fun h => absurd rfl h, fun h => absurd h anonymous_ne_jsxElement⟩

end

/-! ## Returned values -/

/-- What is known about a returned value; a type is told by where it comes from, and its symbol. -/
inductive Returned where
  | jsx
  | nullish
  | type (origin : TypeOrigin) (symbol : Option TypeSymbol)
  | unknown

open Classical in
/-- What is known about a value that is one of two. -/
noncomputable def Returned.combine : Returned → Returned → Returned
  | nullish, other => other
  | other, nullish => other
  | left, right => if left = right then left else unknown

/-- Where a type comes from that is made for a cast: an annotation that the view does not have. -/
def Index.castOrigin (index : Index) : TypeOrigin := .site ⟨index.typeSites.size⟩

section

variable (index : Index) (scope : ScopeId)

open Classical in
/-- What a cast says about its value. -/
noncomputable def returnedCast (type : TypeExpr) : Returned :=
  match outlineOf index (declMeaning index) index.castOrigin scope none type with
  | none => .unknown
  | some v => if v.origin = index.castOrigin then .unknown else .type v.origin v.symbol

/-- What is known about the value of an expression. -/
noncomputable def returnedExpr : Expr → Returned
  | .jsx _ => .jsx
  | .parenthesized inner => returnedExpr inner
  | .null => .nullish
  | .identifier name => if name == "undefined" then .nullish else .unknown
  | .void _ => .nullish
  | .conditional _ consequent alternate =>
    (returnedExpr consequent).combine (returnedExpr alternate)
  | .logicalAnd _ right => returnedExpr right
  | .alternative left right => (returnedExpr left).combine (returnedExpr right)
  | .cast _ type => returnedCast index scope type
  | .satisfies inner => returnedExpr inner
  | .nonNull inner => returnedExpr inner
  | .constCast inner => returnedExpr inner
  | .string _ => .type (.keyword .string) none
  | .template _ => .type (.keyword .string) none
  | .number _ => .type (.keyword .number) none
  | .boolean => .type (.keyword .boolean) none
  | _ => .unknown

/-- What is known about a returned value; without an expression it is `undefined`. -/
noncomputable def returnedValue : Option Expr → Returned
  | some value => returnedExpr index scope value
  | none => .nullish

/-- The symbol of `JSX.Element` as seen from the scope, if that is what is returned, or of the type
that is. -/
noncomputable def Returned.symbol? : Returned → Option TypeSymbol
  | .jsx => (outlineOfName index (declMeaning index) scope jsxElementSegments).bind (·.symbol)
  | .type _ symbol => symbol
  | .nullish | .unknown => none

/-- The symbol of the type that a function body returns. -/
noncomputable def returnedBody : Body → Option TypeSymbol
  | .expression value => (returnedExpr index scope value).symbol? index scope
  | .block statements =>
    Returned.symbol? index scope <| (returnedByAll statements).foldl
      (fun known value => Returned.combine known (returnedValue index scope value)) .nullish

end

/-- The symbol of the type that is inferred for a function. -/
noncomputable def returnedSymbol (index : Index) (function : FunctionId) : Option TypeSymbol :=
  match index.functionSites[function.index]? with
  | none => none
  | some site => if site.wrapsResult then none else site.body.bind (returnedBody index site.scope)

/-- The symbol of the type that a signature returns, annotated or inferred. -/
noncomputable def FunctionLike.returnSymbol (index : Index) (signature : FunctionLike) :
    Option TypeSymbol :=
  match signature.returnType with
  | some node => (meaning index (.site node.id)).bind (·.symbol)
  | none => returnedSymbol index signature.id

/-- The component that a declaration is, if it is one. -/
noncomputable def Declaration.candidate? (index : Index) (declaration : Declaration) :
    Option Candidate :=
  match declaration.signature? with
  | none => none
  | some signature =>
    if signature.returnSymbol index == some TypeSymbol.jsxElement || signature.annotatedJsxElement then
      some ⟨declaration.publicName, signature.propsNode?⟩
    else none

/-! ## Inference -/

section

variable {index : Index} {a a' : Arena} {w w' : Naming} {scope : ScopeId} {t : TypeId}
  {k k' : Inferred} {r r' : Returned}

/-- The symbol of a type of the arena. -/
def Arena.HasSymbol (a : Arena) (t : TypeId) (symbol : Option TypeSymbol) : Prop :=
  ∃ data, a.types[t.index]? = some data ∧ data.symbol = symbol

/-- What has been inferred is what is known. A type without a name is one that a cast made. -/
inductive Infers (a : Arena) (w : Naming) : Inferred → Returned → Prop where
  | jsx : Infers a w .jsx .jsx
  | nullish : Infers a w .nullish .nullish
  | type {t : TypeId} {o : TypeOrigin} {symbol : Option TypeSymbol} (horigin : w.type t = some o)
    (hsymbol : a.HasSymbol t symbol) : Infers a w (.type t) (.type o symbol)
  | unknown : Infers a w .unknown .unknown
  | cast {t : TypeId} {symbol : Option TypeSymbol} (hnameless : w.type t = none)
    (hsymbol : a.HasSymbol t symbol) (hjsx : symbol ≠ some TypeSymbol.jsxElement) :
    Infers a w (.type t) .unknown

theorem Arena.HasSymbol.extend {symbol : Option TypeSymbol} (h : a.HasSymbol t symbol)
    (he : Extends a w a' w') : a'.HasSymbol t symbol ∧ w'.type t = w.type t := by
  obtain ⟨data, hdata, hsymbol⟩ := h
  have ht := lt_size_of_getElem? hdata
  exact ⟨⟨data, (he.types _ ht).trans hdata, hsymbol⟩, he.typeNames t ht⟩

theorem Arena.HasSymbol.unique {symbol symbol' : Option TypeSymbol} (h : a.HasSymbol t symbol)
    (h' : a.HasSymbol t symbol') : symbol = symbol' := by
  obtain ⟨data, hdata, rfl⟩ := h
  obtain ⟨data', hdata', rfl⟩ := h'
  rw [Option.some.inj (hdata.symm.trans hdata')]

theorem Fits.hasSymbol {v : Outline} (h : Fits a w t v) : a.HasSymbol t v.symbol := by
  obtain ⟨members, htype, -⟩ := h.shown
  exact ⟨_, htype, rfl⟩

theorem Infers.extend (h : Infers a w k r) (he : Extends a w a' w') : Infers a' w' k r := by
  cases h with
  | jsx => exact .jsx
  | nullish => exact .nullish
  | type horigin hsymbol =>
    obtain ⟨hsymbol, hname⟩ := hsymbol.extend he
    exact .type (hname.trans horigin) hsymbol
  | unknown => exact .unknown
  | cast hnameless hsymbol hjsx =>
    obtain ⟨hsymbol, hname⟩ := hsymbol.extend he
    exact .cast (hname.trans hnameless) hsymbol hjsx

/-- The same is known of what has been inferred to be the same, and of other things only that nothing
is known of them. -/
theorem Infers.same (hunique : ∀ {t t' o}, w.type t = some o → w.type t' = some o → t = t')
    (h : Infers a w k r) (h' : Infers a w k' r') :
    (k = k' → r = r') ∧ (k ≠ k' → r = r' → r = .unknown) := by
  cases h with
  | jsx => cases h' <;> simp
  | nullish => cases h' <;> simp
  | unknown => cases h' <;> simp
  | cast hnameless hsymbol hjsx =>
    cases h' with
    | type horigin' =>
      refine ⟨?_, by simp⟩
      rintro ⟨⟩
      rw [hnameless] at horigin'
      cases horigin'
    | jsx | nullish | unknown | cast => simp
  | type horigin hsymbol =>
    cases h' with
    | type horigin' hsymbol' =>
      constructor
      · rintro ⟨⟩
        obtain rfl := Option.some.inj (horigin.symm.trans horigin')
        rw [hsymbol.unique hsymbol']
      · rintro hne ⟨⟩
        exact absurd (congrArg Inferred.type (hunique horigin horigin')) hne
    | cast hnameless =>
      refine ⟨?_, by simp⟩
      rintro ⟨⟩
      rw [hnameless] at horigin
      cases horigin
    | jsx | nullish | unknown => simp

theorem Infers.combine (hunique : ∀ {t t' o}, w.type t = some o → w.type t' = some o → t = t')
    (h : Infers a w k r) (h' : Infers a w k' r') :
    Infers a w (k.combine k') (r.combine r') := by
  classical
  have hleft := h
  have hright := h'
  have hsame := h.same hunique h'
  have hboth : Infers a w (if k == k' then k else .unknown) (if r = r' then r else .unknown) := by
    by_cases hk : k = k'
    · rw [if_pos (beq_iff_eq.2 hk), if_pos (hsame.1 hk)]
      exact h
    · rw [if_neg (mt beq_iff_eq.1 hk)]
      split
      · rw [hsame.2 hk ‹_›]
        exact .unknown
      · exact .unknown
  cases h <;> cases h' <;> first | exact hboth | exact hright | exact hleft

/-- No type is named as one that a cast makes. -/
theorem Tracked.castOrigin_nameless (h : Tracked index a w) (t : TypeId) :
    w.type t ≠ some index.castOrigin := by
  intro ht
  obtain ⟨r, hr⟩ := h.ready.faithful.typeMade ht
  exact Nat.lt_irrefl _ (h.followed.known hr)

/-- What a cast denotes is inferred of it. -/
theorem Tracked.infers_cast (h : Tracked index a w) {a₀ : Arena} {answer : Option TypeId}
    {type : TypeExpr} (hs : Stands a (w.since a₀ index.castOrigin) answer
      (outlineOf index (declMeaning index) index.castOrigin scope none type)) :
    Infers a w (answer.elim .unknown .type) (returnedCast index scope type) := by
  classical
  unfold returnedCast
  rcases hv : outlineOf index (declMeaning index) index.castOrigin scope none type with _ | v
  · rw [hv] at hs
    cases hs
    exact .unknown
  · rw [hv] at hs
    obtain ⟨t, rfl, hf⟩ : ∃ t, answer = some t ∧ Fits a (w.since a₀ index.castOrigin) t v := by
      cases hs with
      | some hf => exact ⟨_, rfl, hf⟩
    have horigin : (w.type t).or (if a₀.types.size ≤ t.index then some index.castOrigin else none) =
        some v.origin := hf.origin
    have hsymbol := hf.hasSymbol
    by_cases hown : v.origin = index.castOrigin
    · simp only [hown, if_true]
      refine .cast ?_ hsymbol fun hjsx => ?_
      · rcases ho : w.type t with _ | o
        · rfl
        · rw [ho, hown] at horigin
          exact absurd (ho.trans horigin) (h.castOrigin_nameless t)
      · exact (outlineOf_grounded declMeaning_grounded (fun h => absurd rfl h) type v hv).element
          hjsx _ hown
    · simp only [if_neg hown]
      refine .type ?_ hsymbol
      rcases ho : w.type t with _ | o
      · rw [ho] at horigin
        split at horigin
        · exact absurd (Option.some.inj horigin).symm hown
        · cases horigin
      · rwa [ho] at horigin

/-- Of the symbol of an answer it is known whether it is that of `JSX.Element`. -/
def ReturnsSymbol (a : Arena) (answer : Option TypeId) (symbol : Option TypeSymbol) : Prop :=
  (answer.bind fun t => (a.typeData t).symbol) = some TypeSymbol.jsxElement ↔
    symbol = some TypeSymbol.jsxElement

theorem Arena.HasSymbol.typeData {symbol : Option TypeSymbol} (h : a.HasSymbol t symbol) :
    (a.typeData t).symbol = symbol := by
  obtain ⟨data, hdata, rfl⟩ := h
  rw [Arena.typeData, hdata, Option.getD_some]

theorem Stands.returnsSymbol {answer : Option TypeId} {v : Option Outline}
    (h : Stands a w answer v) : ReturnsSymbol a answer (v.bind (·.symbol)) := by
  cases h with
  | none => exact Iff.rfl
  | some hf =>
    rw [ReturnsSymbol, Option.bind_some, Option.bind_some, hf.hasSymbol.typeData]

namespace Resolve

theorem resolve_asks (own : TypeOrigin) (h : Tracked index a w) (scope : ScopeId) (type : TypeExpr) :
    Asks index a w (resolve index scope type) fun r a' w' =>
      Stands a' (w'.since a own) r (outlineOf index (declMeaning index) own scope none type) :=
  (resolve_yields own h.ready.faithful h.ready.idle scope type).asks h
    (resolve_takes h.ready.idle scope type) fun _ _ _ hu hs => hs hu

theorem jsxElement_asks (h : Tracked index a w) (scope : ScopeId) :
    Asks index a w (jsxElement index scope) fun r a' w' =>
      Stands a' w' r (outlineOfName index (declMeaning index) scope jsxElementSegments) := by
  show Asks index a w (resolveName index (declared index) scope jsxElementSegments) _
  exact (resolveName_yields h.ready.faithful h.ready.idle fun d _ => declared_resolves index d).asks h
    (resolveName_takes h.ready.idle fun d _ => declared_takes index d) fun _ _ _ hu hs => hs hu

theorem inferCast_asks (h : Tracked index a w) (type : TypeExpr) :
    Asks index a w (inferCast index scope type) fun k a' w' =>
      Infers a' w' k (returnedCast index scope type) := by
  refine (resolve_asks index.castOrigin h scope type).bind fun answer a' w' _ h' => ?_
  cases answer with
  | none => exact .done h' fun hs => h'.infers_cast hs
  | some id => exact .done h' fun hs => h'.infers_cast hs

theorem inferIntrinsic_asks (h : Tracked index a w) (keyword : KeywordType) :
    Asks index a w (Inferred.type <$> intrinsic keyword) fun k a' w' =>
      Infers a' w' k (.type (.keyword keyword) none) :=
  (intrinsic_yields h.ready.faithful keyword).map
      (fun _ _ _ hf => Infers.type hf.origin hf.hasSymbol) |>.asks h
    (intrinsic_takes keyword).map fun _ _ _ _ hinfers => hinfers

/-- What is known of two values one after the other, of one of them. -/
theorem inferEither_asks {first second : Resolve Inferred} (hfirst : Asks index a w first
      fun k a' w' => Infers a' w' k r)
    (hsecond : ∀ {a w}, Tracked index a w → Asks index a w second fun k a' w' => Infers a' w' k r') :
    Asks index a w (do
      let left ← first
      let right ← second
      pure (left.combine right)) fun k a' w' => Infers a' w' k (r.combine r') :=
  hfirst.bind fun _ _ _ _ h' => (hsecond h').bind fun _ _ _ he h'' => .done h'' fun hright hleft =>
    (hleft.extend he).combine h''.ready.faithful.typeUnique hright

theorem inferExpr_asks (h : Tracked index a w) (value : Expr) :
    Asks index a w (inferExpr index scope value) fun k a' w' =>
      Infers a' w' k (returnedExpr index scope value) := by
  fun_induction inferExpr index scope value generalizing a w with
  | case1 => exact .done h .jsx
  | case3 | case5 => exact .done h .nullish
  | case4 name =>
    rw [returnedExpr]
    split
    · exact .done h .nullish
    · exact .done h .unknown
  | case2 inner ih | case7 _ inner ih | case10 inner ih | case11 inner ih | case12 inner ih =>
    exact ih h
  | case6 _ left right ih ih' | case8 left right ih ih' =>
    exact inferEither_asks (ih h) ih'
  | case9 _ type => exact inferCast_asks h type
  | case13 | case14 | case15 | case16 => exact inferIntrinsic_asks h _
  | case17 =>
    simp only [returnedExpr]
    exact .done h .unknown

theorem inferReturned_asks (h : Tracked index a w) (value : Option Expr) :
    Asks index a w (inferReturned index scope value) fun k a' w' =>
      Infers a' w' k (returnedValue index scope value) := by
  cases value with
  | none => exact .done h .nullish
  | some value => exact inferExpr_asks h value

theorem inferAny_asks (h : Tracked index a w) (known : Inferred) (r : Returned)
    (values : List (Option Expr)) :
    Asks index a w
      (values.foldlM (fun known value => return known.combine (← inferReturned index scope value))
        known) fun k a' w' => Infers a w known r → Infers a' w' k
          (values.foldl (fun known value => known.combine (returnedValue index scope value)) r) := by
  induction values generalizing a w known r with
  | nil => exact .done h id
  | cons value rest ih =>
    rw [List.foldlM_cons, List.foldl_cons]
    refine Asks.bind (Q := fun k a' w' => Infers a w known r →
      Infers a' w' k (r.combine (returnedValue index scope value))) ?_ fun k a' w' _ h' => ?_
    · exact (inferReturned_asks h value).bind fun _ _ _ he h' => .done h' fun hvalue hknown =>
        (hknown.extend he).combine h'.ready.faithful.typeUnique hvalue
    · exact (ih h' k _).imp fun _ _ _ _ hrest hvalue hknown => hrest (hvalue hknown)

theorem inferredType_asks (h : Tracked index a w) (known : Inferred) (r : Returned) :
    Asks index a w (inferredType index scope known) fun answer a' _ => Infers a w known r →
      ReturnsSymbol a' answer (r.symbol? index scope) := by
  cases known with
  | jsx =>
    refine (jsxElement_asks h scope).imp fun answer a' w' _ hs hknown => ?_
    cases hknown
    exact hs.returnsSymbol
  | nullish =>
    refine .done h fun hknown => ?_
    cases hknown
    exact Iff.rfl
  | unknown =>
    refine .done h fun hknown => ?_
    cases hknown
    exact Iff.rfl
  | type t =>
    refine .done h fun hknown => ?_
    cases hknown with
    | type _ hsymbol =>
      rw [ReturnsSymbol, Option.bind_some, hsymbol.typeData]
      rfl
    | cast _ hsymbol hjsx =>
      rw [ReturnsSymbol, Option.bind_some, hsymbol.typeData]
      exact iff_of_false hjsx nofun

theorem inferReturn_asks (h : Tracked index a w) (body : Body) :
    Asks index a w (inferReturn index scope body) fun answer a' _ =>
      ReturnsSymbol a' answer (returnedBody index scope body) := by
  cases body with
  | expression value =>
    exact (inferExpr_asks h value).bind fun k a' w' _ h' => inferredType_asks h' k _
  | block statements =>
    rw [inferReturn, returnedBody]
    split
    · rename_i hnone
      rw [hnone, List.foldl_nil]
      refine ((intrinsic_yields h.ready.faithful .void).map
        (fun _ _ _ hf => Stands.returnsSymbol (.some hf))).asks h (intrinsic_takes .void).map
          fun _ _ _ _ hs => hs
    · exact (inferAny_asks h .nullish .nullish _).bind fun k a' w' _ h' =>
        (inferredType_asks h' k _).imp fun _ _ _ _ hs hk => hs (hk .nullish)

theorem returnTypeOf_asks (h : Tracked index a w) (function : FunctionId) :
    Asks index a w (returnTypeOf index function) fun answer a' _ =>
      ReturnsSymbol a' answer (returnedSymbol index function) := by
  unfold returnTypeOf returnedSymbol
  rcases index.functionSites[function.index]? with _ | ⟨scope, body, wrapsResult⟩
  · exact .done h Iff.rfl
  · cases wrapsResult with
    | true => exact .done h Iff.rfl
    | false =>
      cases body with
      | none => exact .done h Iff.rfl
      | some body => exact inferReturn_asks h body

end Resolve

/-! ## Components -/

variable {program : Program}

theorem returnType_asks (h : Tracked program.index a w) (signature : FunctionLike) :
    Asks program.index a w (program.facts.returnType signature) fun answer a' _ =>
      ReturnsSymbol a' answer (signature.returnSymbol program.index) := by
  obtain ⟨id, parameters, returnType⟩ := signature
  cases returnType with
  | none => exact Resolve.returnTypeOf_asks h id
  | some node => exact (Resolve.typeOfNode_asks h node.id).imp fun _ _ _ _ hs => hs.returnsSymbol

theorem returnsJsxElement_asks (h : Tracked program.index a w) (signature : FunctionLike) :
    Asks program.index a w (program.facts.returnsJsxElement signature) fun answer _ _ =>
      answer = (signature.returnSymbol program.index == some TypeSymbol.jsxElement) := by
  refine (returnType_asks h signature).bind fun answer a' w' _ h' => ?_
  cases answer with
  | none => exact .done h' fun hs => (beq_eq_false_iff_ne.2 fun heq => nomatch hs.2 heq).symm
  | some t => exact Asks.get_bind (.done h' fun hs => Bool.eq_iff_iff.2 <|
    beq_iff_eq.trans <| hs.trans beq_iff_eq.symm)

/-- Which component a declaration is does not depend on what was asked before. -/
theorem classify_asks (h : Tracked program.index a w) (declaration : Declaration) :
    Asks program.index a w (program.facts.classify declaration) fun answer _ _ =>
      answer = declaration.candidate? program.index := by
  unfold TypeFacts.classify Declaration.candidate?
  rcases declaration.signature? with _ | signature
  · exact .done h rfl
  · refine Asks.bind (Q := fun answer _ _ => answer =
      (signature.returnSymbol program.index == some TypeSymbol.jsxElement ||
        signature.annotatedJsxElement)) ?_ fun answer a' w' _ h' => ?_
    · exact (returnsJsxElement_asks h signature).bind fun _ _ _ _ h' => .done h' fun hs => by rw [hs]
    · simp only
      cases answer with
      | true => exact .done h' fun hs => by rw [← hs, if_pos rfl]
      | false => exact .done h' fun hs => by rw [← hs, if_neg Bool.false_ne_true]

end

end ComponentSchema
