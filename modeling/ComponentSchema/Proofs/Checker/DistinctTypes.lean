import ComponentSchema.Proofs.Checker.StableAnswers
import ComponentSchema.Proofs.ReturnInference.BodyValues

/-!
# Types that stand apart

The type of a keyword, of a declaration, or the built-in `JSX.Element` is given again whenever it is
asked for (`Arena.Stands`). All other types of an arena stand apart: they were made for one annotation
or cast, and nothing that is resolved later comes to them.

So what a type expression is resolved to is either the same whenever it is asked for, or a type that is
a new one every time.

Results.
* `resolveWith_avoids`, `resolveDecl_avoids`: by induction on type expressions and on the nesting of
  resolutions.
* `resolve_again`: what a type expression resolves to now and later.
-/
namespace ComponentSchema

open Syntax Relation Arena

variable {index : Index} {a a' a'' : Arena} {scope : ScopeId} {t : TypeId} {α : Type}

/-! ## Standing types -/

/-- The arena gives this type to a keyword or a declaration, or where `JSX.Element` leads nowhere. -/
inductive Arena.Stands (a : Arena) (t : TypeId) : Prop
  | keyword {keyword : KeywordType} (h : a.intrinsics.lookup keyword = some t)
  | jsxElement (h : a.jsxElement = some t)
  | declared {d : DeclId} (h : a.declared.lookup d = some (.done (some t)))

/-- A type of the arena that is given to nothing. -/
structure Arena.Apart (a : Arena) (t : TypeId) : Prop where
  has : a.HasType t
  free : ¬ a.Stands t

theorem Arena.Stands.has {S : ScopeId → Prop} (h : a.Stands t) (hs : Sound index S a) :
    a.HasType t := by
  cases h with
  | keyword h => exact hs.intrinsics _ (mem_of_lookup h)
  | jsxElement h => exact hs.jsxElement t (by simp [h])
  | declared h => exact (hs.declared _ (mem_of_lookup h)).2 _ rfl t rfl

/-- A type stays apart as long as nothing is given it that was not given it before. -/
theorem Arena.Apart.kept (h : a.Apart t) (htypes : a.types.size ≤ a'.types.size)
    (hintrinsics : ∀ {keyword : KeywordType}, a'.intrinsics.lookup keyword = some t →
      a.intrinsics.lookup keyword = some t)
    (hjsxElement : a'.jsxElement = some t → a.jsxElement = some t)
    (hdeclared : ∀ {d : DeclId}, a'.declared.lookup d = some (.done (some t)) →
      a.declared.lookup d = some (.done (some t))) : a'.Apart t where
  has := Nat.lt_of_lt_of_le h.has htypes
  free hs := by
    cases hs with
    | keyword hs => exact h.free (.keyword (hintrinsics hs))
    | jsxElement hs => exact h.free (.jsxElement (hjsxElement hs))
    | declared hs => exact h.free (.declared (hdeclared hs))

/-- The arenas give the same, and there may be more types in the second. -/
structure SameStands (a a' : Arena) : Prop where
  types : a.types.size ≤ a'.types.size
  intrinsics : a'.intrinsics = a.intrinsics
  jsxElement : a'.jsxElement = a.jsxElement
  declared : a'.declared = a.declared

instance : Std.Refl SameStands := ⟨fun _ => ⟨Nat.le_refl _, rfl, rfl, rfl⟩⟩

instance : IsTrans Arena SameStands := ⟨fun _ _ _ h h' => ⟨Nat.le_trans h.types h'.types,
  h'.intrinsics.trans h.intrinsics, h'.jsxElement.trans h.jsxElement, h'.declared.trans h.declared⟩⟩

theorem SameStands.stands (h : SameStands a a') (ht : a'.Stands t) : a.Stands t := by
  cases ht with
  | keyword ht => exact .keyword (h.intrinsics ▸ ht)
  | jsxElement ht => exact .jsxElement (h.jsxElement ▸ ht)
  | declared ht => exact .declared (h.declared ▸ ht)

theorem SameStands.apart (h : SameStands a a') (ht : a.Apart t) : a'.Apart t :=
  ⟨Nat.lt_of_lt_of_le ht.has h.types, fun hs => ht.free (h.stands hs)⟩

/-- A question leaves a type apart that is apart. -/
def Avoids (t : TypeId) (a : Arena) (question : Resolve (Option TypeId)) : Prop :=
  a.Apart t → (question.run a).2.Apart t ∧ (question.run a).1 ≠ some t

namespace Resolve

/-! ## What is made -/

theorem intrinsic_new {keyword : KeywordType} (h : a.intrinsics.lookup keyword = none) :
    (intrinsic keyword).run a = (a.nextType,
      { a.addType { TypeData.blank with intrinsic := some keyword } with
        intrinsics := (keyword, a.nextType) :: a.intrinsics }) := by
  simp only [intrinsic, StateT.run_bind, StateT.run_get, pure_bind, h]
  rfl

theorem intrinsic_known {keyword : KeywordType} (h : a.intrinsics.lookup keyword = some t) :
    (intrinsic keyword).run a = (t, a) := by
  simp only [intrinsic, StateT.run_bind, StateT.run_get, pure_bind, h]
  rfl

theorem builtinJsxElement_new (h : a.jsxElement = none) :
    builtinJsxElement.run a = (a.nextType,
      { a.addType { TypeData.blank with symbol := some TypeSymbol.jsxElement } with
        jsxElement := some a.nextType }) := by
  simp only [builtinJsxElement, StateT.run_bind, StateT.run_get, pure_bind, h]
  rfl

theorem builtinJsxElement_known (h : a.jsxElement = some t) : builtinJsxElement.run a = (t, a) := by
  simp only [builtinJsxElement, StateT.run_bind, StateT.run_get, pure_bind, h]
  rfl

theorem resolveStep_nowhere {below : DeclId → Resolve (Option TypeId)} {d : DeclId}
    (hnew : a.declared.lookup d = none) (hdecl : index.decls[d.index]? = none) :
    (resolveStep index below d).run a = (none, a) := by
  simp only [resolveStep, StateT.run_bind, StateT.run_get, pure_bind, hnew, hdecl]
  rfl

theorem resolveStep_resolving {below : DeclId → Resolve (Option TypeId)} {d : DeclId}
    (h : a.declared.lookup d = some .resolving) : (resolveStep index below d).run a = (none, a) := by
  simp only [resolveStep, StateT.run_bind, StateT.run_get, pure_bind, h]
  rfl

theorem resolveStep_done {below : DeclId → Resolve (Option TypeId)} {d : DeclId} {r : Option TypeId}
    (h : a.declared.lookup d = some (.done r)) : (resolveStep index below d).run a = (r, a) := by
  simp only [resolveStep, StateT.run_bind, StateT.run_get, pure_bind, h]
  rfl

theorem pushMembers_sameStands (data : List MemberData) (a : Arena) :
    Runs SameStands a (data.mapM pushMember) fun _ _ => True := by
  induction data generalizing a with
  | nil => exact .done trivial
  | cons first rest ih =>
    have hfirst : Runs SameStands a (pushMember first) fun _ _ => True :=
      ⟨⟨Nat.le_refl _, rfl, rfl, rfl⟩, trivial⟩
    rw [List.mapM_cons]
    exact hfirst.bind fun _ b _ _ => (ih b).bind fun _ _ _ _ => .done trivial

/-- A question that ends with making a type, before which nothing is given to anything. -/
theorem avoids_push (question : Resolve α) (data : α → TypeData)
    (h : a.Apart t → (question.run a).2.Apart t) :
    Avoids t a (question >>= fun answer => some <$> push (data answer)) := by
  intro ht
  have hafter := h ht
  have hgrown := (retains_addType (question.run a).2 (data (question.run a).1)).typesSize
  refine ⟨SameStands.apart (a := (question.run a).2) ⟨hgrown, rfl, rfl, rfl⟩ hafter, ?_⟩
  -- The type that is made is a new one.
  intro hsame
  have hlt : t.index < (question.run a).2.types.size := hafter.has
  obtain rfl : (⟨(question.run a).2.types.size⟩ : TypeId) = t := Option.some.inj hsame
  exact Nat.lt_irrefl _ hlt

theorem avoids_none (t : TypeId) (a : Arena) : Avoids t a (pure none) := fun ht => ⟨ht, nofun⟩

theorem avoids_pushPlain (data : TypeData) : Avoids t a (some <$> push data) :=
  avoids_push (pure ()) (fun _ => data) id

theorem intrinsic_avoids (keyword : KeywordType) : Avoids t a (some <$> intrinsic keyword) := by
  intro ht
  rcases hlook : a.intrinsics.lookup keyword with _ | found
  · obtain ⟨hafter, hne⟩ := avoids_pushPlain (a := a)
      { TypeData.blank with intrinsic := some keyword } ht
    rw [StateT.run_map, intrinsic_new hlook]
    refine ⟨hafter.kept (Nat.le_refl _) (fun hs => ?_) id id, hne⟩
    rcases (lookup_cons_iff hlook).1 hs with ⟨-, hnew⟩ | hold
    · exact absurd (congrArg some hnew.symm) hne
    · exact hold
  · rw [StateT.run_map, intrinsic_known hlook]
    exact ⟨ht, fun hsame => ht.free (.keyword (hlook.trans hsame))⟩

theorem builtinJsxElement_avoids : Avoids t a (some <$> builtinJsxElement) := by
  intro ht
  rcases hlook : a.jsxElement with _ | found
  · obtain ⟨hafter, hne⟩ := avoids_pushPlain (a := a)
      { TypeData.blank with symbol := some TypeSymbol.jsxElement } ht
    rw [StateT.run_map, builtinJsxElement_new hlook]
    exact ⟨hafter.kept (Nat.le_refl _) id (fun hs => absurd hs hne) id, hne⟩
  · rw [StateT.run_map, builtinJsxElement_known hlook]
    exact ⟨ht, fun hsame => ht.free (.jsxElement (hlook.trans hsame))⟩

/-! ## Type expressions -/

variable {declared : DeclId → Resolve (Option TypeId)}

theorem resolveName_avoids (hd : ∀ d a, Avoids t a (declared d)) (segments : List String) (a : Arena) :
    Avoids t a (resolveName index declared scope segments) := by
  unfold resolveName
  split
  · exact hd _ a
  · split
    · exact builtinJsxElement_avoids
    · exact avoids_none t a

theorem resolveParts_avoids {parts : List TypeExpr}
    (hparts : ∀ part ∈ parts, ∀ a, Avoids t a (resolveWith index declared scope none part)) {a : Arena}
    (ht : a.Apart t) : ((resolveParts index declared scope parts).run a).2.Apart t := by
  induction parts generalizing a with
  | nil =>
    rw [resolveParts]
    exact ht
  | cons part rest ih =>
    obtain ⟨hpart, hrest⟩ := List.forall_mem_cons.1 hparts
    rw [resolveParts_cons_arena]
    exact ih hrest (hpart a ht).1

theorem resolveWith_avoids (hd : ∀ d a, Avoids t a (declared d)) (aliasName : Option String)
    (type : TypeExpr) (a : Arena) : Avoids t a (resolveWith index declared scope aliasName type) := by
  induction type using TypeExpr.resolutionRec generalizing aliasName a with
  | keyword keyword =>
    rw [resolveWith]
    exact intrinsic_avoids keyword
  | parenthesized inner ih =>
    rw [resolveWith]
    exact ih aliasName a
  | reference name =>
    rw [resolveWith]
    exact resolveName_avoids hd name.segments a
  | literal members =>
    rw [resolveWith]
    exact avoids_push _ (fun ids => ⟨some TypeSymbol.anonymous, aliasName, none, ids⟩)
      fun ht => (pushMembers_sameStands _ a).1.apart ht
  | single parts part hsingle ih =>
    rw [resolveWith_single hsingle]
    exact ih none a
  | several parts hseveral =>
    rw [resolveWith_several hseveral]
    exact avoids_pushPlain _
  | intersection parts ih =>
    rw [resolveWith]
    exact avoids_push (resolveParts index declared scope parts >>= joinMembers)
      (fun members => ⟨none, aliasName, none, members⟩)
        (resolveParts_avoids fun part hpart => ih part hpart none)
  | function | constructor | other =>
    rw [resolveWith]
    exact avoids_pushPlain _

/-! ## Declarations -/

theorem declaredType_avoids {below : DeclId → Resolve (Option TypeId)}
    (hd : ∀ d a, Avoids t a (below d)) (decl : TypeDecl) (a : Arena) :
    Avoids t a (declaredType index below decl) := by
  obtain ⟨name, scope, bodies | type⟩ := decl
  · exact avoids_push _ (fun ids => ⟨some ⟨name, (index.scope scope).name⟩, none, none, ids⟩)
      fun ht => (pushMembers_sameStands _ a).1.apart ht
  · exact resolveWith_avoids hd (some name) type a
  · exact avoids_pushPlain _

theorem apart_mark (h : a.Apart t) (d : DeclId) : (a.mark d).Apart t := by
  refine h.kept (Nat.le_refl _) id id fun hs => ?_
  rw [mark_lookup] at hs
  split at hs
  · cases hs
  · exact hs

theorem apart_declare (h : a.Apart t) (d : DeclId) {r : Option TypeId} (hr : r ≠ some t) :
    (a.declare d r).Apart t := by
  refine h.kept (Nat.le_refl _) id id fun hs => ?_
  rw [declare_lookup] at hs
  split at hs
  · exact absurd (DeclState.done.inj (Option.some.inj hs)) hr
  · exact hs

theorem resolveDecl_avoids (depth : Nat) (d : DeclId) (a : Arena) :
    Avoids t a (resolveDecl index depth d) := by
  induction depth generalizing d a with
  | zero => exact avoids_none t a
  | succ depth ih =>
    intro ht
    rw [resolveDecl_succ]
    rcases hlook : a.declared.lookup d with _ | state
    · rcases hdecl : index.decls[d.index]? with _ | decl
      · rw [resolveStep_nowhere hlook hdecl]
        exact avoids_none t a ht
      · rw [resolveStep_run hlook hdecl]
        obtain ⟨hafter, hne⟩ := declaredType_avoids ih decl (a.mark d) (apart_mark ht d)
        exact ⟨apart_declare hafter d hne, hne⟩
    · cases state with
      | resolving =>
        rw [resolveStep_resolving hlook]
        exact avoids_none t a ht
      | done r =>
        rw [resolveStep_done hlook]
        exact ⟨ht, fun hsame => ht.free (.declared (hlook.trans (by rw [show r = some t from hsame])))⟩

theorem resolve_avoids (scope : ScopeId) (type : TypeExpr) (a : Arena) :
    Avoids t a (resolve index scope type) :=
  resolveWith_avoids (fun d a => resolveDecl_avoids _ d a) none type a

end Resolve

/-! ## Asking again -/

/-- What holds of an arena between two questions, after another. -/
structure Arena.Later (index : Index) (a a' : Arena) : Prop where
  rest : AtRest index (fun _ => True) a'
  retains : Retains a a'
  apart : ∀ t, a.Apart t → a'.Apart t

/-- Asked again later, the question is answered with the same standing type, or with none. -/
def Again (index : Index) (a : Arena) (question : Resolve (Option TypeId)) : Prop :=
  ∀ c t, (question.run a).2.Later index c → c.Stands t →
    ((question.run a).1 = some t ↔ (question.run c).1 = some t)

/-- Asked again later, the question is answered alike, and a type that it is answered with stands. -/
structure Settles (index : Index) (a : Arena) (question : Resolve (Option TypeId)) : Prop where
  same : ∀ c, (question.run a).2.Later index c → (question.run c).1 = (question.run a).1
  stands : ∀ t, (question.run a).1 = some t → (question.run a).2.Stands t

theorem Settles.again {question : Resolve (Option TypeId)} (h : Settles index a question) :
    Again index a question :=
  fun c _ hc _ => by rw [h.same c hc]

theorem settles_none (index : Index) (a : Arena) : Settles index a (pure none) :=
  ⟨fun _ _ => rfl, nofun⟩

namespace Resolve

/-- What is made anew every time is never a standing type. -/
theorem again_push (question : Resolve α) (data : α → TypeData)
    (h : ∀ a, Sound index (fun _ => True) a →
      Resolved index (fun _ => True) a (question.run a).2)
    (ha : AtRest index (fun _ => True) a) :
    Again index a (question >>= fun answer => some <$> push (data answer)) := by
  intro c t hc ht
  have hsound := ha.sound.steps (h a ha.sound).steps
  -- The type that is made first is apart, and the one that is made later is new.
  have hapart : Arena.Apart ((question >>= fun answer => some <$> push (data answer)).run a).2
      (question.run a).2.nextType := by
    refine ⟨hasType_nextType _ _, fun hs => ?_⟩
    have hold : (question.run a).2.Stands (question.run a).2.nextType :=
      SameStands.stands (a := (question.run a).2)
        ⟨(retains_addType _ (data (question.run a).1)).typesSize, rfl, rfl, rfl⟩ hs
    exact Nat.lt_irrefl _ (hold.has hsound)
  refine iff_of_false (fun hsame => ?_) (fun hsame => ?_)
  · obtain rfl : (question.run a).2.nextType = t := Option.some.inj hsame
    exact (hc.apart _ hapart).free ht
  · obtain rfl : (question.run c).2.nextType = t := Option.some.inj hsame
    have hlt : (question.run c).2.types.size < c.types.size := ht.has hc.rest.sound
    exact Nat.lt_irrefl _ (Nat.lt_of_lt_of_le hlt (h c hc.rest.sound).retains.typesSize)

theorem again_pushPlain (data : TypeData) (ha : AtRest index (fun _ => True) a) :
    Again index a (some <$> push data) :=
  again_push (pure ()) (fun _ => data) (fun a _ => .refl a) ha

theorem intrinsic_settles (keyword : KeywordType) : Settles index a (some <$> intrinsic keyword) := by
  have hkept : ((intrinsic keyword).run a).2.intrinsics.lookup keyword =
      some ((intrinsic keyword).run a).1 := by
    rcases hlook : a.intrinsics.lookup keyword with _ | found
    · rw [intrinsic_new hlook]
      exact List.lookup_cons_self
    · rw [intrinsic_known hlook]
      exact hlook
  refine ⟨fun c hc => ?_, fun t ht => .keyword (hkept.trans ht)⟩
  rw [StateT.run_map, intrinsic_known (hc.retains.intrinsics hkept)]
  rfl

theorem builtinJsxElement_settles : Settles index a (some <$> builtinJsxElement) := by
  have hkept : (builtinJsxElement.run a).2.jsxElement = some (builtinJsxElement.run a).1 := by
    rcases hlook : a.jsxElement with _ | found
    · rw [builtinJsxElement_new hlook]
    · rw [builtinJsxElement_known hlook]
      exact hlook
  refine ⟨fun c hc => ?_, fun t ht => .jsxElement (hkept.trans ht)⟩
  rw [StateT.run_map, builtinJsxElement_known (hc.retains.jsxElement hkept)]
  rfl

theorem declared_known {d : DeclId} {r : Option TypeId}
    (h : a.declared.lookup d = some (.done r)) : (declared index d).run a = (r, a) := by
  rw [declared, resolveDecl_succ, resolveStep_done h]

theorem declared_nowhere (ha : AtRest index (fun _ => True) a) {d : DeclId}
    (hdecl : index.decls[d.index]? = none) : (declared index d).run a = (none, a) := by
  have hlook : a.declared.lookup d = none := by
    rcases hlook : a.declared.lookup d with _ | state
    · rfl
    · have hlt := (ha.sound.declared _ (mem_of_lookup hlook)).1
      rw [Array.getElem?_eq_getElem hlt] at hdecl
      cases hdecl
  rw [declared, resolveDecl_succ, resolveStep_nowhere hlook hdecl]

theorem declared_settles (ha : AtRest index (fun _ => True) a) (d : DeclId) :
    Settles index a (declared index d) := by
  rcases hdecl : index.decls[d.index]? with _ | decl
  · exact ⟨fun c hc => by rw [declared_nowhere ha hdecl, declared_nowhere hc.rest hdecl],
      fun t ht => by rw [declared_nowhere ha hdecl] at ht; cases ht⟩
  · -- No declaration is under way, so this one has got its answer afterwards.
    have hkept : ((declared index d).run a).2.declared.lookup d =
        some (.done ((declared index d).run a).1) := by
      rcases hlook : a.declared.lookup d with _ | state
      · rw [declared, resolveDecl_succ, resolveStep_run hlook hdecl]
        exact (declare_lookup ..).trans (if_pos rfl)
      · cases state with
        | resolving => exact nomatch (ha.idle d).1 hlook
        | done r =>
          rw [declared_known hlook]
          exact hlook
    exact ⟨fun c hc => by rw [declared_known (hc.retains.declared hkept)],
      fun t ht => .declared (ht ▸ hkept)⟩

theorem resolveName_settles (ha : AtRest index (fun _ => True) a) (scope : ScopeId)
    (segments : List String) :
    Settles index a (resolveName index (declared index) scope segments) := by
  unfold resolveName
  split
  · exact declared_settles ha _
  · split
    · exact builtinJsxElement_settles
    · exact settles_none index a

theorem resolveWith_again (ha : AtRest index (fun _ => True) a) (aliasName : Option String)
    (type : TypeExpr) : Again index a (resolveWith index (declared index) scope aliasName type) := by
  induction type using TypeExpr.resolutionRec generalizing aliasName with
  | keyword keyword =>
    rw [resolveWith]
    exact (intrinsic_settles keyword).again
  | parenthesized inner ih =>
    rw [resolveWith]
    exact ih aliasName
  | reference name =>
    rw [resolveWith]
    exact (resolveName_settles ha scope name.segments).again
  | literal members =>
    rw [resolveWith]
    exact again_push _ (fun ids => ⟨some TypeSymbol.anonymous, aliasName, none, ids⟩)
      (fun a _ => (declaredMembers_runs (a := a) (S := fun _ => True) trivial members).1) ha
  | single parts part hsingle ih =>
    rw [resolveWith_single hsingle]
    exact ih none
  | several parts hseveral =>
    rw [resolveWith_several hseveral]
    exact again_pushPlain _ ha
  | intersection parts =>
    have hparts : ∀ a, Sound index (fun _ => True) a → Resolved index (fun _ => True) a
        ((resolveParts index (declared index) scope parts >>= joinMembers).run a).2 :=
      fun a hs => (resolveParts_runs (declared_runs index.scoped_true.decls) trivial parts hs).1
    rw [resolveWith]
    exact again_push (resolveParts index (declared index) scope parts >>= joinMembers)
      (fun members => ⟨none, aliasName, none, members⟩) hparts ha
  | function | constructor | other =>
    rw [resolveWith]
    exact again_pushPlain _ ha

theorem resolve_again (ha : AtRest index (fun _ => True) a) (scope : ScopeId) (type : TypeExpr) :
    Again index a (resolve index scope type) :=
  resolveWith_again ha none type

theorem valueType_again (ha : AtRest index (fun _ => True) a) (scope : ScopeId) (value : Expr) :
    Again index a (valueType index scope value) := by
  cases value with
  | cast operand type => exact resolve_again ha scope type
  | string | template | number | boolean => exact (intrinsic_settles _).again
  | _ => exact (settles_none index a).again

/-! ## Going on -/

/-- The relation between an arena and a later one, if the first is at rest. -/
def GoesOn (index : Index) (a a' : Arena) : Prop := AtRest index (fun _ => True) a → a.Later index a'

theorem later_refl (ha : AtRest index (fun _ => True) a) : a.Later index a :=
  ⟨ha, .refl a, fun _ => id⟩

theorem later_trans (h : a.Later index a') (h' : a'.Later index a'') : a.Later index a'' :=
  ⟨h'.rest, h.retains.trans h'.retains, fun t ht => h'.apart t (h.apart t ht)⟩

instance : Std.Refl (GoesOn index) := ⟨fun _ => later_refl⟩

instance : IsTrans Arena (GoesOn index) := ⟨fun _ _ _ h h' ha => later_trans (h ha) (h' (h ha).rest)⟩

theorem resolve_goesOn (scope : ScopeId) (type : TypeExpr) (a : Arena) :
    GoesOn index a ((resolve index scope type).run a).2 := by
  intro ha
  have hturn : Turns index (fun _ => True) a ((resolve index scope type).run a).2 :=
    .single (.resolve a scope type trivial)
  exact ⟨ha.turns index.scoped_true hturn, (hturn.moved index.scoped_true ha.sound).retains,
    fun t ht => (resolve_avoids scope type a ht).1⟩

theorem along_goesOn (scope : ScopeId) : Along index (GoesOn index) scope fun _ => True :=
  ⟨fun type _ a => resolve_goesOn scope type a, fun _ => trivial, trivial⟩

end Resolve

end ComponentSchema
