import ComponentSchema.Proofs.Checker.MadeTypes

/-!
# What resolution answers

A declaration, a name or a type expression that is resolved in a faithful arena leaves a faithful
arena, and if all that it mentions is untangled, the answer is what it denotes: which other answers
the arena holds makes no difference.

Results.
* `resolveWith_yields`: by induction on type expressions, given as much of declarations.
* `resolveDecl_yields`: by induction on the nesting of resolutions.
* `resolve_yields`: for annotations, with no declaration open.
-/
namespace ComponentSchema

open Syntax Relation

variable {index : Index} {a a' a₀ : Arena} {w w' : Naming} {scope : ScopeId} {opened : List DeclId}

/-! ## Type expressions -/

/-- The declarations under way are those that are open. -/
def Marked (opened : List DeclId) (a : Arena) : Prop :=
  ∀ d, a.declared.lookup d = some .resolving ↔ d ∈ opened

theorem Marked.progress (h : Marked opened a) (hp : Progress index a w a' w') : Marked opened a' :=
  fun d => (hp.resolving d).trans (h d)

/-- While the declarations of `opened` are under way, `declared` answers what `outlines` says of the
declaration `d`. -/
def Resolves (index : Index) (opened : List DeclId) (declared : DeclId → Resolve (Option TypeId))
    (outlines : DeclId → Option Outline) (d : DeclId) : Prop :=
  ∀ {a w}, Faithful index a w → Marked opened a → Yields index a w (declared d) fun r a' w' =>
    index.Untangled d → Stands a' w' r (outlines d)

namespace Resolve

variable {declared : DeclId → Resolve (Option TypeId)} {outlines : DeclId → Option Outline}

theorem resolveName_yields {segments : List String} (h : Faithful index a w)
    (hm : Marked opened a)
    (hd : ∀ d, index.lookup scope segments = some d → Resolves index opened declared outlines d) :
    Yields index a w (resolveName index declared scope segments) fun r a' w' =>
      (∀ d, index.lookup scope segments = some d → index.Untangled d) →
        Stands a' w' r (outlineOfName index outlines scope segments) := by
  unfold resolveName outlineOfName
  rcases hlook : index.lookup scope segments with _ | d
  · simp only
    split
    · exact (builtinJsxElement_yields h).map fun _ _ _ hfits _ => .some hfits
    · exact .done h fun _ => .none
  · exact (hd d hlook h hm).imp fun _ _ _ _ hs hu => hs (hu d rfl)

/-- The parts of an intersection are resolved one after the other. -/
theorem resolveParts_yields (own : TypeOrigin) {parts : List TypeExpr}
    (hparts : ∀ part ∈ parts, ∀ {a : Arena} {w : Naming}, Faithful index a w → Marked opened a →
      Older a₀ a → Yields index a w (resolveWith index declared scope none part) fun r a' w' =>
        index.UntangledNames scope part.names →
          Stands a' (w'.since a₀ own) r (outlineOf index outlines own scope none part))
    (h : Faithful index a w) (hm : Marked opened a) (ha : Older a₀ a) :
    Yields index a w (resolveParts index declared scope parts) fun types a' w' =>
      (∀ part ∈ parts, index.UntangledNames scope part.names) →
        List.Forall₂ (Fits a' (w'.since a₀ own)) types (outlinesOf index outlines own scope parts) := by
  rw [outlinesOf_eq]
  induction parts generalizing a w with
  | nil =>
    rw [resolveParts]
    exact .done h fun _ => .nil
  | cons part rest ih =>
    obtain ⟨hpart, hrest⟩ := List.forall_mem_cons.1 hparts
    rw [resolveParts_cons]
    refine (hpart h hm ha).bind fun r a' w' hp hstands => ?_
    refine (ih hrest hp.faithful (hm.progress hp) (ha.progress hp)).bind fun types a'' w'' hp' htypes =>
      .done hp'.faithful fun hu => ?_
    obtain ⟨hu, hus⟩ := List.forall_mem_cons.1 hu
    have hs := hstands hu
    rw [List.filterMap_cons]
    generalize outlineOf index outlines own scope none part = outline at hs ⊢
    cases hs with
    | none => exact htypes hus
    | some hfits => exact .cons (hfits.extend (hp'.extends_.since a₀ own)) (htypes hus)

theorem resolveWith_yields (own : TypeOrigin) (aliasName : Option String) (type : TypeExpr)
    (h : Faithful index a w) (hm : Marked opened a) (ha : Older a₀ a)
    (hd : ∀ d, index.Mentions scope type.names d → Resolves index opened declared outlines d) :
    Yields index a w (resolveWith index declared scope aliasName type) fun r a' w' =>
      index.UntangledNames scope type.names →
        Stands a' (w'.since a₀ own) r (outlineOf index outlines own scope aliasName type) := by
  induction type using TypeExpr.resolutionRec generalizing aliasName a w with
  | keyword keyword =>
    simp only [resolveWith, outlineOf]
    exact (intrinsic_yields h keyword).map fun _ _ _ hfits _ => .some (hfits.since a₀ own)
  | parenthesized inner ih =>
    simp only [resolveWith, outlineOf, TypeExpr.names] at hd ⊢
    exact ih aliasName h hm ha hd
  | reference name =>
    simp only [resolveWith, outlineOf, TypeExpr.names] at hd ⊢
    refine (resolveName_yields h hm fun d hlook =>
      hd d ⟨_, List.mem_singleton_self _, hlook⟩).imp fun r a' w' _ hs hu => ?_
    exact (hs fun d hlook => hu d ⟨_, List.mem_singleton_self _, hlook⟩).since a₀ own
  | literal members =>
    simp only [resolveWith, outlineOf]
    exact (objectType_yields own h ha _ aliasName scope members).map fun _ _ _ hfits _ => .some hfits
  | single parts part hsingle ih =>
    rw [TypeExpr.names_single hsingle] at hd ⊢
    rw [resolveWith_single hsingle, outlineOf_single hsingle]
    exact ih none h hm ha hd
  | several parts hseveral =>
    rw [resolveWith_several hseveral, outlineOf_several hseveral]
    exact (pushPlain_yields h ha own _ rfl).map fun _ _ _ hfits _ => .some hfits
  | intersection parts ih =>
    have hparts := resolveParts_yields own (fun part hpart _ _ h hm ha => ih part hpart none h hm ha
      fun d hd' => hd d (Index.mentions_intersection.2 ⟨part, hpart, hd'⟩)) h hm ha
    simp only [resolveWith, outlineOf]
    refine hparts.bind fun types a' w' hp htypes => ?_
    have hfits : index.UntangledNames scope (TypeExpr.intersection parts).names →
        List.Forall₂ (Fits a' (w'.since a₀ own)) types (outlinesOf index outlines own scope parts) :=
      fun hu => htypes fun part hpart d hd' => hu d (Index.mentions_intersection.2 ⟨part, hpart, hd'⟩)
    refine (joinMembers_yields hp.faithful hfits).bind ?_
    rintro members _ _ _ ⟨rfl, rfl, hmembers⟩
    exact (push_yields (v := Outline.join own aliasName _) hp.faithful (ha.progress hp) rfl
      hmembers).map fun _ _ _ hfits hu => .some (hfits hu)
  | function | constructor =>
    simp only [resolveWith, outlineOf]
    exact (anonymous_yields own h ha aliasName).map fun _ _ _ hfits _ => .some hfits
  | other =>
    simp only [resolveWith, outlineOf]
    exact (pushPlain_yields h ha own _ rfl).map fun _ _ _ hfits _ => .some hfits

/-! ## Declarations -/

theorem declaredType_yields {d : DeclId} {decl : TypeDecl}
    (hdecl : index.decls[d.index]? = some decl) (h : Faithful index a w) (hm : Marked opened a)
    (hd : ∀ e, index.Refers d e → Resolves index opened declared outlines e) :
    Yields index a w (declaredType index declared decl) fun r a' w' =>
      index.Untangled d →
        Stands a' (w'.since a (.declared d)) r (declOutline index outlines d decl) := by
  obtain ⟨name, scope, kind⟩ := decl
  rcases kind with bodies | type
  · exact (objectType_yields (.declared d) h (.refl a) _ none scope bodies.flatten).map
      fun _ _ _ hfits _ => .some hfits
  · have halias : index.IsAlias d scope type := ⟨name, hdecl⟩
    refine (resolveWith_yields (.declared d) (some name) type h hm (.refl a) fun e he =>
      hd e ⟨scope, type, halias, he⟩).imp fun r a' w' _ hs hu => ?_
    exact hs (hu.rightSide halias)
  · exact (pushPlain_yields h (.refl a) (.declared d) _ rfl).map fun _ _ _ hfits _ => .some hfits

end Resolve

/-- The arena in which a declaration has been taken up. -/
def Arena.mark (arena : Arena) (d : DeclId) : Arena :=
  { arena with declared := (d, .resolving) :: arena.declared }

/-- The arena in which a declaration has got its answer. -/
def Arena.declare (arena : Arena) (d : DeclId) (type : Option TypeId) : Arena :=
  { arena with declared := (d, .done type) :: arena.declared }

theorem Arena.mark_lookup (arena : Arena) (d e : DeclId) :
    (arena.mark d).declared.lookup e =
      if e = d then some .resolving else arena.declared.lookup e := by
  by_cases h : e = d
  · simp [mark, h]
  · simp [mark, h, lookup_cons_of_ne h]

theorem Arena.declare_lookup (arena : Arena) (d e : DeclId) (type : Option TypeId) :
    (arena.declare d type).declared.lookup e =
      if e = d then some (.done type) else arena.declared.lookup e := by
  by_cases h : e = d
  · simp [declare, h]
  · simp [declare, h, lookup_cons_of_ne h]

theorem Marked.mark (h : Marked opened a) (d : DeclId) : Marked (d :: opened) (a.mark d) := by
  intro e
  rw [Arena.mark_lookup, List.mem_cons, ← h e]
  split
  · rename_i hed
    simp [hed]
  · rename_i hed
    simp [hed]

theorem Faithful.mark {d : DeclId} (h : Faithful index a w) (hnew : a.declared.lookup d = none) :
    Faithful index (a.mark d) w := by
  have he : Extends a w (a.mark d) w :=
    ⟨Nat.le_refl _, Nat.le_refl _, fun _ _ => rfl, fun _ _ => rfl, fun _ _ => rfl, fun _ _ => rfl⟩
  have hiff : ∀ o r, Recorded (a.mark d) w o r ↔ Recorded a w o r := by
    refine fun o r => h.recorded_iff he rfl rfl (fun e r => ?_) rfl rfl
    rw [Arena.mark_lookup]
    split
    · rename_i hed
      simp [hed, hnew]
    · rfl
  exact h.record he (fun o r => (hiff o r).2) (fun o r hr _ => .inl ((hiff o r).1 hr))
    fun m r => h.asked

/-- An answer worked out while a declaration is under way may be kept as the declaration's. -/
theorem Yields.declare {d : DeclId} {question : Resolve (Option TypeId)} (h : Faithful index a w)
    (hnew : a.declared.lookup d = none)
    (hq : Yields index (a.mark d) w question fun r a' w' => index.Untangled d →
      Stands a' (w'.since (a.mark d) (.declared d)) r (declMeaning index d)) :
    Yields index a w
      (modify (fun arena => arena.mark d) >>= fun _ => question >>= fun type =>
        modify (fun arena => arena.declare d type) >>= fun _ => pure type)
      fun r a' w' => index.Untangled d → Stands a' w' r (declMeaning index d) := by
  obtain ⟨w₁, hp, hstands⟩ := hq
  have hway : (question.run (a.mark d)).2.declared.lookup d = some .resolving := by
    rw [hp.resolving, Arena.mark_lookup, if_pos rfl]
  have hfresh : ∀ r, ¬ Recorded (question.run (a.mark d)).2 w₁ (.declared d) r := by
    intro r hr
    cases hway.symm.trans hr
  have hrecorded : ∀ o r, Recorded ((question.run (a.mark d)).2.declare d
      (question.run (a.mark d)).1) w₁ o r ↔ o = .declared d ∧ r = (question.run (a.mark d)).1 ∨
        Recorded (question.run (a.mark d)).2 w₁ o r := fun o r => recorded_declared hway
  obtain ⟨w₂, he, hf, hs⟩ := hp.faithful.answer hp.extends_ hfresh hstands hrecorded rfl rfl
    fun m r hm => h.asked (hp.memberTypes ▸ hm)
  refine ⟨w₂, ⟨?_, hf, fun e => ?_, hp.nodes, hp.memberTypes⟩, hs⟩
  · exact ⟨he.typesSize, he.membersSize, he.types, he.members, he.typeNames, he.memberNames⟩
  · have hafter := (question.run (a.mark d)).2.declare_lookup d e (question.run (a.mark d)).1
    refine (iff_of_eq (congrArg (· = _) hafter)).trans ?_
    split
    · rename_i hed
      simp [hed, hnew]
    · rename_i hed
      rw [hp.resolving, Arena.mark_lookup, if_neg hed]

namespace Resolve

/-- What is under way when a declaration is asked for does not change its answer, if it is
untangled. -/
theorem resolveDecl_yields {d : DeclId} {depth : Nat} (ho : Opened index opened d)
    (hdepth : index.decls.size < depth + opened.length) :
    Resolves index opened (resolveDecl index depth) (meaningUnder index opened) d := by
  induction depth generalizing opened d with
  | zero =>
    have := ho.length_le
    omega
  | succ depth ih =>
    intro a w h hm
    refine yields_get_bind ?_
    rcases hlook : a.declared.lookup d with _ | state
    · have hnew : d ∉ opened := fun hd => by
        rw [(hm d).2 hd] at hlook
        cases hlook
      rw [meaningUnder, if_neg hnew]
      rcases hdecl : index.decls[d.index]? with _ | decl
      · refine .done h fun _ => ?_
        rw [declMeaning, unfoldDecl, if_neg (by simp), hdecl]
        exact .none
      · refine Yields.declare h hlook ?_
        refine (declaredType_yields hdecl (h.mark hlook) (hm.mark d) fun e hr =>
          ih (ho.cons hnew hdecl hr) (by rw [List.length_cons]; omega)).imp fun r a' w' _ hs hu => ?_
        rw [← declOutline_eq_meaning hu ho hdecl]
        exact hs hu
    · cases state with
      | resolving =>
        refine .done h fun _ => ?_
        rw [meaningUnder, if_pos ((hm d).1 hlook)]
        exact .none
      | done type =>
        refine .done h fun hu => ?_
        have hnew : d ∉ opened := fun hd => by
          rw [(hm d).2 hd] at hlook
          cases hlook
        rw [meaningUnder, if_neg hnew]
        exact h.answers (o := .declared d) hlook hu

/-- With no declaration under way, an untangled one is given what it denotes. -/
theorem declared_resolves (index : Index) (d : DeclId) :
    Resolves index [] (declared index) (declMeaning index) d := by
  have hnone : meaningUnder index [] = declMeaning index := by
    funext d
    rw [meaningUnder, if_neg (by simp)]
  rw [← hnone]
  show Resolves index [] (resolveDecl index (index.decls.size + 1)) (meaningUnder index []) d
  exact resolveDecl_yields (.nil index d) (by simp)

/-- With no declaration under way, an untangled annotation is given what it denotes. -/
theorem resolve_yields (own : TypeOrigin) (h : Faithful index a w) (hm : Marked [] a)
    (scope : ScopeId) (type : TypeExpr) :
    Yields index a w (resolve index scope type) fun r a' w' =>
      index.UntangledNames scope type.names →
        Stands a' (w'.since a own) r (outlineOf index (declMeaning index) own scope none type) :=
  resolveWith_yields own none type h hm (.refl a) fun d _ => declared_resolves index d

end Resolve

end ComponentSchema
