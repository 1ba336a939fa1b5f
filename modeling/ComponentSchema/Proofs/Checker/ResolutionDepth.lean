import ComponentSchema.Proofs.Checker.FollowedReferences

/-!
# How deep resolutions nest

The resolution of a declaration takes one step (`resolveStep`) and leaves the declarations that its
right-hand side asks for to further resolutions. `resolveDecl` is given a bound on how often. The
bound restricts nothing: a declaration that is asked for in the middle of another resolution has been
taken up before or is a new one, and there are only so many of them.

So take any attempts at resolution, each of which takes one step and leaves the rest to the one before
(`Nests`). Whatever the first does, the last of enough of them does what `declared` does, in every
arena that is ever reached.

Results.
* `resolveWith_congr`: what is below matters only in arenas that are reached.
* `Nests.resolveDecl`: by induction on the attempts.
* `Nests.declared`: one more than there are declarations are enough.
-/
namespace ComponentSchema

open Syntax Relation Arena

variable {index : Index} {a a' b : Arena} {scope : ScopeId} {α β : Type}

/-! ## Reached arenas -/

/-- The arena of a program at some time. -/
def Arena.Reached (index : Index) (a : Arena) : Prop := Steps index (fun _ => True) Arena.empty a

namespace Arena.Reached

theorem empty (index : Index) : Reached index Arena.empty := .refl

theorem steps (h : Reached index a) (hsteps : Steps index (fun _ => True) a b) : Reached index b :=
  h.trans hsteps

theorem sound (h : Reached index a) : Sound index (fun _ => True) a := (sound_empty index _).steps h

theorem accounts (h : Reached index a) : Accounts index a := (accounts_empty index).steps h

end Arena.Reached

namespace Resolve

/-! ## Attempts that agree -/

variable {f g : DeclId → Resolve (Option TypeId)}

/-- The two resolve declarations alike, from the arena on. -/
def AgreeFrom (index : Index) (a : Arena) (f g : DeclId → Resolve (Option TypeId)) : Prop :=
  ∀ b d, Steps index (fun _ => True) a b → (f d).run b = (g d).run b

theorem AgreeFrom.steps (h : AgreeFrom index a f g) (hsteps : Steps index (fun _ => True) a b) :
    AgreeFrom index b f g :=
  fun c d hc => h c d (hsteps.trans hc)

/-- Two questions go alike if they start alike and go on alike from there. -/
theorem run_bind_congr {first second : Resolve α} {next next' : α → Resolve β}
    (hfirst : first.run a = second.run a)
    (hnext : (next (second.run a).1).run (second.run a).2 =
      (next' (second.run a).1).run (second.run a).2) :
    (first >>= next).run a = (second >>= next').run a := by
  show (next (first.run a).1).run (first.run a).2 = (next' (second.run a).1).run (second.run a).2
  rw [hfirst, hnext]

theorem resolveParts_congr (hg : Answers index (fun _ => True) g) {parts : List TypeExpr}
    (hparts : ∀ part ∈ parts, ∀ {a : Arena}, Sound index (fun _ => True) a → AgreeFrom index a f g →
      (resolveWith index f scope none part).run a = (resolveWith index g scope none part).run a)
    (hs : Sound index (fun _ => True) a) (h : AgreeFrom index a f g) :
    (resolveParts index f scope parts).run a = (resolveParts index g scope parts).run a := by
  induction parts generalizing a with
  | nil => rw [resolveParts, resolveParts]
  | cons part rest ih =>
    obtain ⟨hpart, hrest⟩ := List.forall_mem_cons.1 hparts
    have hresolved : Resolved index _ a ((resolveWith index g scope none part).run a).2 :=
      (resolveWith_finished hg trivial none part hs).resolved.1
    rw [resolveParts_cons, resolveParts_cons]
    refine run_bind_congr (hpart hs h) (run_bind_congr ?_ rfl)
    exact ih hrest (hs.steps hresolved.steps) (h.steps hresolved.steps)

theorem resolveWith_congr (hg : Answers index (fun _ => True) g) (aliasName : Option String)
    (type : TypeExpr) (hs : Sound index (fun _ => True) a) (h : AgreeFrom index a f g) :
    (resolveWith index f scope aliasName type).run a =
      (resolveWith index g scope aliasName type).run a := by
  induction type using TypeExpr.resolutionRec generalizing aliasName a with
  | parenthesized inner ih =>
    rw [resolveWith, resolveWith]
    exact ih aliasName hs h
  | reference name =>
    rw [resolveWith, resolveWith, resolveName, resolveName]
    rcases index.lookup scope name.segments with _ | d
    · rfl
    · exact h a d .refl
  | single parts part hsingle ih =>
    rw [resolveWith_single hsingle, resolveWith_single hsingle]
    exact ih none hs h
  | several parts hseveral => rw [resolveWith_several hseveral, resolveWith_several hseveral]
  | intersection parts ih =>
    rw [resolveWith, resolveWith]
    exact run_bind_congr
      (resolveParts_congr hg (fun part hpart _ hs h => ih part hpart none hs h) hs h) rfl
  | keyword | literal | function | constructor | other => rw [resolveWith, resolveWith]

theorem declaredType_congr (hg : Answers index (fun _ => True) g) (hs : Sound index (fun _ => True) a)
    (h : AgreeFrom index a f g) (decl : TypeDecl) :
    (declaredType index f decl).run a = (declaredType index g decl).run a := by
  obtain ⟨name, scope, _ | type⟩ := decl
  · rfl
  · exact resolveWith_congr hg (some name) type hs h
  · rfl

/-! ## Attempts at resolution -/

/-- What is below matters to a new declaration only, and only after it has been taken up. -/
theorem resolveStep_congr (hg : Answers index (fun _ => True) g) (ha : a.Reached index) {d : DeclId}
    (h : d.index < index.decls.size → a.declared.lookup d = none → AgreeFrom index (a.mark d) f g) :
    (resolveStep index f d).run a = (resolveStep index g d).run a := by
  rcases hlook : a.declared.lookup d with _ | state
  · rcases hdecl : index.decls[d.index]? with _ | decl
    · simp only [resolveStep, StateT.run_bind, StateT.run_get, pure_bind, hlook, hdecl]
    · have hlt := lt_size_of_getElem? hdecl
      have hmark : Sound index (fun _ => True) (a.mark d) := ha.sound.step (.mark d hlt hlook)
      rw [resolveStep_run hlook hdecl, resolveStep_run hlook hdecl,
        declaredType_congr hg hmark (h hlt hlook)]
  · simp only [resolveStep, StateT.run_bind, StateT.run_get, pure_bind, hlook]
    cases state <;> rfl

/-- Attempts at the resolution of declarations: each takes one step in every arena that is reached,
and leaves what is below to the one before. The first may be anything. -/
def Nests (index : Index) (attempt : Nat → DeclId → Resolve (Option TypeId)) : Prop :=
  ∀ n d a, a.Reached index → (attempt (n + 1) d).run a = (resolveStep index (attempt n) d).run a

/-- There are attempts that start from any way to resolve declarations. -/
theorem nests_from (index : Index) (first : DeclId → Resolve (Option TypeId)) :
    Nests index (Nat.rec first fun _ below => resolveStep index below) :=
  fun _ _ _ _ => rfl

/-- Different declarations that have been taken up. -/
structure Taken (index : Index) (taken : List DeclId) (a : Arena) : Prop where
  nodup : taken.Nodup
  valid : ∀ d ∈ taken, d.index < index.decls.size
  asked : ∀ d ∈ taken, a.declared.lookup d ≠ none

variable {taken : List DeclId}

theorem Taken.nil (index : Index) (a : Arena) : Taken index [] a :=
  ⟨List.nodup_nil, by simp, by simp⟩

theorem Taken.retains (h : Taken index taken a) (hk : Retains a b) : Taken index taken b :=
  ⟨h.nodup, h.valid, fun d hd hnew => h.asked d hd (hk.asked hnew)⟩

theorem Taken.mark (h : Taken index taken a) {d : DeclId} (hd : d.index < index.decls.size)
    (hnew : a.declared.lookup d = none) : Taken index (d :: taken) (a.mark d) := by
  have hother : d ∉ taken := fun hmem => h.asked d hmem hnew
  have hkept := h.retains (retains_mark hnew)
  refine ⟨List.nodup_cons.2 ⟨hother, h.nodup⟩, ?_, ?_⟩
  · exact List.forall_mem_cons.2 ⟨hd, h.valid⟩
  · refine List.forall_mem_cons.2 ⟨?_, hkept.asked⟩
    rw [mark_lookup, if_pos rfl]
    exact Option.some_ne_none _

/-- By induction on the attempts: with what has been taken up there are more of them than
declarations. -/
theorem Nests.resolveDecl {attempt : Nat → DeclId → Resolve (Option TypeId)}
    (h : Nests index attempt) {n depth : Nat} (ha : a.Reached index) (ht : Taken index taken a)
    (hn : index.decls.size < n + taken.length) (hdepth : index.decls.size < depth + taken.length)
    (d : DeclId) : (attempt n d).run a = (Resolve.resolveDecl index depth d).run a := by
  have hlength := length_le_decls ht.nodup ht.valid
  induction n generalizing depth a d taken with
  -- With no attempt left there would be more declarations taken up than there are.
  | zero => omega
  | succ n ih =>
    obtain ⟨depth, rfl⟩ : ∃ k, depth = k + 1 := ⟨depth - 1, by omega⟩
    rw [h n d a ha, resolveDecl_succ]
    refine resolveStep_congr (resolveDecl_runs index.scoped_true.decls depth) ha
      fun hd hnew b e hsteps => ?_
    have hmark : Step index (fun _ => True) a (a.mark d) := .mark d hd hnew
    have htaken : Taken index (d :: taken) b := (ht.mark hd hnew).retains hsteps.retains
    refine ih ((ha.tail hmark).trans hsteps) htaken ?_ ?_ e (length_le_decls htaken.nodup htaken.valid)
    · rw [List.length_cons]
      omega
    · rw [List.length_cons]
      omega

/-- One more than there are declarations are enough. -/
theorem Nests.declared {attempt : Nat → DeclId → Resolve (Option TypeId)} (h : Nests index attempt)
    {n : Nat} (hn : index.decls.size < n) (ha : a.Reached index) (d : DeclId) :
    (attempt n d).run a = (Resolve.declared index d).run a :=
  h.resolveDecl ha (.nil index a) hn (Nat.lt_succ_self _) d

end Resolve

end ComponentSchema
