import ComponentSchema.Proofs.Binder.PairedBinding

/-!
# A file bound twice

A file is bound into two indices, each time into an empty scope of a module. Whatever is made for it
is made in the same order, so the things made for it are counterparts one by one, and what the
indices held before is left as it was.

`Twice.Agree` is what holds between two steps: as many things have been made on both sides, and
counterparts hold the same.

Results.
* `Twice.pairing`: the two indices are bound in step.
* `Twice.Agree.start`: binding may begin.
* `Twice.scopeUnique`: no scope is the counterpart of two.
-/
namespace ComponentSchema

open Syntax

/-! ## Things made -/

/-- How many things of each kind have been made. -/
structure Made where
  scopes : Nat
  decls : Nat
  types : Nat
  functions : Nat

/-- Nothing has been made. -/
def Made.none : Made := ⟨0, 0, 0, 0⟩

/-- Nothing made is lost. -/
structure Made.Before (n n' : Made) : Prop where
  scopes : n.scopes ≤ n'.scopes
  decls : n.decls ≤ n'.decls
  types : n.types ≤ n'.types
  functions : n.functions ≤ n'.functions

theorem Made.Before.refl (n : Made) : n.Before n :=
  ⟨Nat.le_refl _, Nat.le_refl _, Nat.le_refl _, Nat.le_refl _⟩

theorem Made.Before.trans {n n' n'' : Made} (h : n.Before n') (h' : n'.Before n'') : n.Before n'' :=
  ⟨Nat.le_trans h.scopes h'.scopes, Nat.le_trans h.decls h'.decls, Nat.le_trans h.types h'.types,
    Nat.le_trans h.functions h'.functions⟩

theorem Made.before_scope (n : Made) : n.Before { n with scopes := n.scopes + 1 } :=
  { Made.Before.refl n with scopes := Nat.le_succ _ }

theorem Made.before_decl (n : Made) : n.Before { n with decls := n.decls + 1 } :=
  { Made.Before.refl n with decls := Nat.le_succ _ }

theorem Made.before_type (n : Made) : n.Before { n with types := n.types + 1 } :=
  { Made.Before.refl n with types := Nat.le_succ _ }

theorem Made.before_function (n : Made) : n.Before { n with functions := n.functions + 1 } :=
  { Made.Before.refl n with functions := Nat.le_succ _ }

/-- Two things are the same one of the `n` that were made, on one side after `base` others and on the
other after `base'`. -/
def Parallel (base base' n i j : Nat) : Prop :=
  ∃ k < n, i = base + k ∧ j = base' + k

section

variable {base base' n n' i j i' j' : Nat}

theorem Parallel.mono (h : Parallel base base' n i j) (hn : n ≤ n') : Parallel base base' n' i j := by
  obtain ⟨k, hk, hi, hj⟩ := h
  exact ⟨k, Nat.lt_of_lt_of_le hk hn, hi, hj⟩

theorem Parallel.last (base base' n : Nat) : Parallel base base' (n + 1) (base + n) (base' + n) :=
  ⟨n, Nat.lt_succ_self n, rfl, rfl⟩

theorem Parallel.unique (h : Parallel base base' n i j) (h' : Parallel base base' n' i' j') :
    i = i' ↔ j = j' := by
  obtain ⟨k, -, rfl, rfl⟩ := h
  obtain ⟨k', -, rfl, rfl⟩ := h'
  omega

theorem Parallel.bounds (h : Parallel base base' n i j) :
    (base ≤ i ∧ i < base + n) ∧ base' ≤ j ∧ j < base' + n := by
  obtain ⟨k, hk, rfl, rfl⟩ := h
  omega

theorem Parallel.cases_last (h : Parallel base base' (n + 1) i j) :
    Parallel base base' n i j ∨ i = base + n ∧ j = base' + n := by
  obtain ⟨k, hk, rfl, rfl⟩ := h
  rcases Nat.lt_succ_iff_lt_or_eq.1 hk with hk | rfl
  · exact .inl ⟨k, hk, rfl, rfl⟩
  · exact .inr ⟨rfl, rfl⟩

/-- What corresponds in two collections still does when they have grown. -/
theorem Parallel.rel_grown {α β : Type} {R : α → β → Prop} {xs xs' : Array α} {ys ys' : Array β}
    (hij : Parallel base base' n i j) (hxs : xs.size = base + n) (hys : ys.size = base' + n)
    (hgrown : ∀ i < xs.size, xs'[i]? = xs[i]?) (hgrown' : ∀ j < ys.size, ys'[j]? = ys[j]?)
    (h : Option.Rel R xs[i]? ys[j]?) : Option.Rel R xs'[i]? ys'[j]? := by
  obtain ⟨hi, hj⟩ := hij.bounds
  rw [hgrown i (hxs ▸ hi.2), hgrown' j (hys ▸ hj.2)]
  exact h

/-- Two lists of things to which one more is added on both sides. -/
theorem Parallel.push {α β : Type} {R R' : α → β → Prop} {xs : Array α} {ys : Array β} {x : α} {y : β}
    (hx : xs.size = base + n) (hy : ys.size = base' + n)
    (h : ∀ {i j}, Parallel base base' n i j → Option.Rel R xs[i]? ys[j]?)
    (hR : ∀ x y, R x y → R' x y) (hnew : R' x y) (hij : Parallel base base' (n + 1) i j) :
    Option.Rel R' (xs.push x)[i]? (ys.push y)[j]? := by
  rcases hij.cases_last with hij | ⟨rfl, rfl⟩
  · have hold := rel_mono hR (h hij)
    obtain ⟨k, hk, rfl, rfl⟩ := hij
    rwa [Array.getElem?_push, if_neg (by omega), Array.getElem?_push, if_neg (by omega)]
  · rw [← hx, ← hy, Array.getElem?_push_size, Array.getElem?_push_size]
    exact .some hnew

end

/-! ## Both sides -/

/-- Two indices and in each the scope of a module, which is to be bound. -/
structure Twice where
  before₁ : Index
  before₂ : Index
  scope₁ : ScopeId
  scope₂ : ScopeId
  module : ModuleId → ModuleId → Prop

/-- What has been made on both sides, and the scopes of the module. -/
def Twice.counterparts (b : Twice) (n : Made) : Counterparts where
  module := b.module
  scope x y := x = b.scope₁ ∧ y = b.scope₂ ∨
    Parallel b.before₁.scopes.size b.before₂.scopes.size n.scopes x.index y.index
  decl d e := Parallel b.before₁.decls.size b.before₂.decls.size n.decls d.index e.index
  node i j := Parallel b.before₁.typeSites.size b.before₂.typeSites.size n.types i.index j.index
  function f g :=
    Parallel b.before₁.functionSites.size b.before₂.functionSites.size n.functions f.index g.index
  classSite _ _ := True

/-- An index in which some things have been made since `before`. Nothing else has changed than the
scope `own`. -/
structure Added (before : Index) (own : ScopeId) (n : Made) (index : Index) : Prop where
  scopesSize : index.scopes.size = before.scopes.size + n.scopes
  declsSize : index.decls.size = before.decls.size + n.decls
  typesSize : index.typeSites.size = before.typeSites.size + n.types
  functionsSize : index.functionSites.size = before.functionSites.size + n.functions
  moduleScopes : index.moduleScopes = before.moduleScopes
  valid : own.index < before.scopes.size
  scopes : ∀ x : ScopeId, x.index < before.scopes.size → x ≠ own → index.scope x = before.scope x
  decls : ∀ i < before.decls.size, index.decls[i]? = before.decls[i]?
  types : ∀ i < before.typeSites.size, index.typeSites[i]? = before.typeSites[i]?
  functions : ∀ i < before.functionSites.size, index.functionSites[i]? = before.functionSites[i]?
  parents : ∀ x : ScopeId,
    x = own ∨ before.scopes.size ≤ x.index ∧ x.index < index.scopes.size →
      ∀ parent, (index.scope x).parent = some parent → parent.index < x.index

/-- The same has been made on both sides. -/
structure Twice.Agree (b : Twice) (n : Made) (index₁ index₂ : Index) : Prop where
  added₁ : Added b.before₁ b.scope₁ n index₁
  added₂ : Added b.before₂ b.scope₂ n index₂
  scopes : ∀ {x y : ScopeId}, (b.counterparts n).scope x y →
    (b.counterparts n).SameScope (index₁.scope x) (index₂.scope y)
  decls : ∀ {i j : Nat}, Parallel b.before₁.decls.size b.before₂.decls.size n.decls i j →
    Option.Rel (b.counterparts n).SameDecl index₁.decls[i]? index₂.decls[j]?
  types : ∀ {i j : Nat}, Parallel b.before₁.typeSites.size b.before₂.typeSites.size n.types i j →
    Option.Rel (b.counterparts n).SameSite index₁.typeSites[i]? index₂.typeSites[j]?
  functions : ∀ {i j : Nat},
    Parallel b.before₁.functionSites.size b.before₂.functionSites.size n.functions i j →
      Option.Rel (b.counterparts n).SameFunction index₁.functionSites[i]? index₂.functionSites[j]?

namespace Twice

variable {n n' : Made}

theorem within (b : Twice) (h : n.Before n') : (b.counterparts n).Within (b.counterparts n') where
  module hm := hm
  scope hxy := hxy.imp_right fun h' => h'.mono h.scopes
  decl hde := hde.mono h.decls
  node hij := hij.mono h.types
  function hfg := hfg.mono h.functions
  classSite hab := hab

end Twice

/-! ## Changes of an index -/

namespace Added

variable {before index : Index} {own x z : ScopeId} {n : Made}

theorem lt_size (h : Added before own n index)
    (hx : x = own ∨ before.scopes.size ≤ x.index ∧ x.index < before.scopes.size + n.scopes) :
    x.index < index.scopes.size := by
  rw [h.scopesSize]
  rcases hx with rfl | hx
  · exact Nat.lt_of_lt_of_le h.valid (Nat.le_add_right ..)
  · exact hx.2

theorem modifyScope (h : Added before own n index)
    (hx : x = own ∨ before.scopes.size ≤ x.index ∧ x.index < before.scopes.size + n.scopes)
    {change : Scope → Scope} (hparent : ∀ data, (change data).parent = data.parent) :
    Added before own n { index with scopes := index.scopes.modify x.index change } := by
  have hlt := h.lt_size hx
  refine { h with scopesSize := ?_, scopes := ?_, parents := ?_ }
  · simpa using h.scopesSize
  · intro z hz hne
    have hzx : z ≠ x := by
      rintro rfl
      rcases hx with rfl | ⟨hx, -⟩
      · exact hne rfl
      · omega
    rw [Index.scope_modify index z change hlt, if_neg hzx]
    exact h.scopes z hz hne
  · intro z hz parent hp
    have hparents := h.parents z (by simpa using hz)
    rw [Index.scope_modify index z change hlt] at hp
    split at hp
    · rename_i hzx
      rw [hparent, ← hzx] at hp
      exact hparents parent hp
    · exact hparents parent hp

theorem newScope (h : Added before own n index) {name : Option String}
    (hx : x = own ∨ before.scopes.size ≤ x.index ∧ x.index < before.scopes.size + n.scopes) :
    Added before own { n with scopes := n.scopes + 1 }
      { index with scopes := index.scopes.push (Scope.empty name (some x)) } := by
  have hlt := h.lt_size hx
  have hsize := h.scopesSize
  refine { h with scopesSize := ?_, scopes := ?_, parents := ?_ }
  · simp only [Array.size_push]
    omega
  · intro z hz hne
    rw [Index.scope_push, if_neg (by omega)]
    exact h.scopes z hz hne
  · intro z hz parent hp
    rw [Index.scope_push] at hp
    split at hp
    · rename_i hzsize
      obtain rfl := Option.some.inj hp
      omega
    · rename_i hzsize
      refine h.parents z ?_ parent hp
      refine hz.imp_right fun ⟨hle, hz⟩ => ⟨hle, ?_⟩
      simp only [Array.size_push] at hz
      omega

theorem pushDecl (h : Added before own n index) (decl : TypeDecl) :
    Added before own { n with decls := n.decls + 1 }
      { index with decls := index.decls.push decl } := by
  have hsize := h.declsSize
  refine { h with declsSize := ?_, decls := fun i hi => ?_ }
  · simp only [Array.size_push]
    omega
  · rw [Array.getElem?_push, if_neg (by omega)]
    exact h.decls i hi

theorem modifyDecl (h : Added before own n index) {i : Nat} (hi : before.decls.size ≤ i)
    (change : TypeDecl → TypeDecl) :
    Added before own n { index with decls := index.decls.modify i change } := by
  refine { h with declsSize := ?_, decls := fun j hj => ?_ }
  · simpa using h.declsSize
  · rw [Array.getElem?_modify, if_neg (by omega)]
    exact h.decls j hj

theorem pushType (h : Added before own n index) (site : TypeSite) :
    Added before own { n with types := n.types + 1 }
      { index with typeSites := index.typeSites.push site } := by
  have hsize := h.typesSize
  refine { h with typesSize := ?_, types := fun i hi => ?_ }
  · simp only [Array.size_push]
    omega
  · rw [Array.getElem?_push, if_neg (by omega)]
    exact h.types i hi

theorem pushFunction (h : Added before own n index) (site : FunctionSite) :
    Added before own { n with functions := n.functions + 1 }
      { index with functionSites := index.functionSites.push site } := by
  have hsize := h.functionsSize
  refine { h with functionsSize := ?_, functions := fun i hi => ?_ }
  · simp only [Array.size_push]
    omega
  · rw [Array.getElem?_push, if_neg (by omega)]
    exact h.functions i hi

theorem pushClass (h : Added before own n index) (site : ClassSite) :
    Added before own n { index with classSites := index.classSites.push site } :=
  { h with }

end Added

namespace Twice

variable {b : Twice} {n n' : Made} {index₁ index₂ : Index} {x y : ScopeId} {α β : Type}

theorem scope_left (hxy : (b.counterparts n).scope x y) :
    x = b.scope₁ ∨
      b.before₁.scopes.size ≤ x.index ∧ x.index < b.before₁.scopes.size + n.scopes := by
  refine hxy.imp (·.1) ?_
  rintro ⟨k, hk, hx, -⟩
  omega

theorem scope_right (hxy : (b.counterparts n).scope x y) :
    y = b.scope₂ ∨
      b.before₂.scopes.size ≤ y.index ∧ y.index < b.before₂.scopes.size + n.scopes := by
  refine hxy.imp (·.2) ?_
  rintro ⟨k, hk, -, hy⟩
  omega

theorem scopeUnique (hvalid₁ : b.scope₁.index < b.before₁.scopes.size)
    (hvalid₂ : b.scope₂.index < b.before₂.scopes.size) {x' y' : ScopeId}
    (hxy : (b.counterparts n).scope x y) (hxy' : (b.counterparts n').scope x' y') :
    x = x' ↔ y = y' := by
  have hne : ∀ {n : Nat} {x y : ScopeId},
      Parallel b.before₁.scopes.size b.before₂.scopes.size n x.index y.index →
        x ≠ b.scope₁ ∧ y ≠ b.scope₂ := by
    rintro n x y ⟨k, -, hx, hy⟩
    constructor
    · rintro rfl
      omega
    · rintro rfl
      omega
  rcases hxy with ⟨rfl, rfl⟩ | hxy <;> rcases hxy' with ⟨rfl, rfl⟩ | hxy'
  · simp
  · simp [(hne hxy').1.symm, (hne hxy').2.symm]
  · simp [(hne hxy).1, (hne hxy).2]
  · have hunique := hxy.unique hxy'
    rcases x with ⟨i⟩
    rcases y with ⟨j⟩
    rcases x' with ⟨i'⟩
    rcases y' with ⟨j'⟩
    simpa using hunique

/-- Before anything is made, both sides hold an empty scope. -/
theorem Agree.start (hvalid₁ : b.scope₁.index < b.before₁.scopes.size)
    (hvalid₂ : b.scope₂.index < b.before₂.scopes.size)
    (hempty₁ : b.before₁.scope b.scope₁ = Scope.empty none none)
    (hempty₂ : b.before₂.scope b.scope₂ = Scope.empty none none) :
    b.Agree Made.none b.before₁ b.before₂ := by
  have hnone : ∀ {base base' i j : Nat}, ¬ Parallel base base' 0 i j := by
    rintro base base' i j ⟨k, hk, -⟩
    exact Nat.not_lt_zero k hk
  have hadded : ∀ {before : Index} {own : ScopeId}, own.index < before.scopes.size →
      before.scope own = Scope.empty none none → Added before own Made.none before := by
    intro before own hvalid hempty
    refine ⟨rfl, rfl, rfl, rfl, rfl, hvalid, fun _ _ _ => rfl, fun _ _ => rfl, fun _ _ => rfl,
      fun _ _ => rfl, ?_⟩
    rintro x (rfl | ⟨hle, hlt⟩) parent hp
    · rw [hempty] at hp
      cases hp
    · omega
  refine ⟨hadded hvalid₁ hempty₁, hadded hvalid₂ hempty₂, ?_, fun h => absurd h hnone,
    fun h => absurd h hnone, fun h => absurd h hnone⟩
  rintro x y (⟨rfl, rfl⟩ | h)
  · rw [hempty₁, hempty₂]
    exact .empty .none
  · exact absurd h hnone

theorem Agree.modifyScope (h : b.Agree n index₁ index₂) (hxy : (b.counterparts n).scope x y)
    {change change' : Scope → Scope}
    (hchange : ∀ {data data'}, (b.counterparts n).SameScope data data' →
      (b.counterparts n).SameScope (change data) (change' data'))
    (hparent : ∀ data, (change data).parent = data.parent)
    (hparent' : ∀ data, (change' data).parent = data.parent) :
    b.Agree n { index₁ with scopes := index₁.scopes.modify x.index change }
      { index₂ with scopes := index₂.scopes.modify y.index change' } := by
  have hx := h.added₁.lt_size (scope_left hxy)
  have hy := h.added₂.lt_size (scope_right hxy)
  refine { h with
    added₁ := h.added₁.modifyScope (scope_left hxy) hparent
    added₂ := h.added₂.modifyScope (scope_right hxy) hparent'
    scopes := fun {z w} hzw => ?_ }
  rw [Index.scope_modify index₁ z change hx, Index.scope_modify index₂ w change' hy]
  by_cases hzx : z = x
  · rw [if_pos hzx, if_pos ((scopeUnique h.added₁.valid h.added₂.valid hzw hxy).1 hzx)]
    exact hchange (h.scopes hxy)
  · rw [if_neg hzx, if_neg fun hwy => hzx ((scopeUnique h.added₁.valid h.added₂.valid hzw hxy).2 hwy)]
    exact h.scopes hzw

theorem Agree.newScope (h : b.Agree n index₁ index₂) (hxy : (b.counterparts n).scope x y)
    (name : Option String) : b.Agree { n with scopes := n.scopes + 1 }
      { index₁ with scopes := index₁.scopes.push (Scope.empty name (some x)) }
      { index₂ with scopes := index₂.scopes.push (Scope.empty name (some y)) } := by
  have hwithin := b.within n.before_scope
  have hsize₁ := h.added₁.scopesSize
  have hsize₂ := h.added₂.scopesSize
  have hown₁ := h.added₁.valid
  have hown₂ := h.added₂.valid
  refine {
    added₁ := h.added₁.newScope (scope_left hxy)
    added₂ := h.added₂.newScope (scope_right hxy)
    scopes := fun {z w} hzw => ?_
    decls := fun hij => rel_mono (fun _ _ => .mono hwithin) (h.decls hij)
    types := fun hij => rel_mono (fun _ _ => .mono hwithin) (h.types hij)
    functions := fun hij => rel_mono (fun _ _ => .mono hwithin) (h.functions hij) }
  rw [Index.scope_push, Index.scope_push]
  by_cases hz : z.index = index₁.scopes.size
  · have hw : w.index = index₂.scopes.size := by
      rcases hzw with ⟨rfl, -⟩ | ⟨k, hk, hz', hw'⟩
      · omega
      · omega
    rw [if_pos hz, if_pos hw]
    exact .empty (.some (hwithin.scope hxy))
  · have hzw' : (b.counterparts n).scope z w := by
      refine hzw.imp_right fun hzw => hzw.cases_last.resolve_right ?_
      omega
    have hw : w.index ≠ index₂.scopes.size := by
      have := h.added₂.lt_size (scope_right hzw')
      omega
    rw [if_neg hz, if_neg hw]
    exact (h.scopes hzw').mono hwithin

theorem Agree.pushDecl (h : b.Agree n index₁ index₂) (hxy : (b.counterparts n).scope x y)
    (name : String) (kind : TypeDeclKind) : b.Agree { n with decls := n.decls + 1 }
      { index₁ with decls := index₁.decls.push ⟨name, x, kind⟩ }
      { index₂ with decls := index₂.decls.push ⟨name, y, kind⟩ } := by
  have hwithin := b.within n.before_decl
  exact {
    added₁ := h.added₁.pushDecl _
    added₂ := h.added₂.pushDecl _
    scopes := fun hzw => (h.scopes hzw).mono hwithin
    decls := fun hij => Parallel.push h.added₁.declsSize h.added₂.declsSize h.decls
      (fun _ _ => .mono hwithin) ⟨rfl, hwithin.scope hxy, rfl⟩ hij
    types := fun hij => rel_mono (fun _ _ => .mono hwithin) (h.types hij)
    functions := fun hij => rel_mono (fun _ _ => .mono hwithin) (h.functions hij) }

theorem Agree.setDecl (h : b.Agree n index₁ index₂) {i j : Nat}
    (hij : Parallel b.before₁.decls.size b.before₂.decls.size n.decls i j) {decl decl' : TypeDecl}
    (hdecl : (b.counterparts n).SameDecl decl decl') :
    b.Agree n { index₁ with decls := index₁.decls.modify i fun _ => decl }
      { index₂ with decls := index₂.decls.modify j fun _ => decl' } := by
  refine { h with
    added₁ := h.added₁.modifyDecl ?_ _
    added₂ := h.added₂.modifyDecl ?_ _
    decls := fun {i' j'} hij' => ?_ }
  · obtain ⟨k, -, rfl, -⟩ := hij
    exact Nat.le_add_right ..
  · obtain ⟨k, -, -, rfl⟩ := hij
    exact Nat.le_add_right ..
  · rw [Array.getElem?_modify, Array.getElem?_modify]
    by_cases hi : i = i'
    · rw [if_pos hi, if_pos ((hij.unique hij').1 hi)]
      rcases rel_cases (h.decls hij') with ⟨hx, hy⟩ | ⟨first, second, hx, hy, -⟩
      · rw [hx, hy]
        exact .none
      · rw [hx, hy]
        exact .some hdecl
    · rw [if_neg hi, if_neg fun hj => hi ((hij.unique hij').2 hj)]
      exact h.decls hij'

theorem Agree.pushType (h : b.Agree n index₁ index₂) (hxy : (b.counterparts n).scope x y)
    (type : TypeExpr) : b.Agree { n with types := n.types + 1 }
      { index₁ with typeSites := index₁.typeSites.push ⟨x, type⟩ }
      { index₂ with typeSites := index₂.typeSites.push ⟨y, type⟩ } := by
  have hwithin := b.within n.before_type
  exact {
    added₁ := h.added₁.pushType _
    added₂ := h.added₂.pushType _
    scopes := fun hzw => (h.scopes hzw).mono hwithin
    decls := fun hij => rel_mono (fun _ _ => .mono hwithin) (h.decls hij)
    types := fun hij => Parallel.push h.added₁.typesSize h.added₂.typesSize h.types
      (fun _ _ => .mono hwithin) ⟨hwithin.scope hxy, rfl⟩ hij
    functions := fun hij => rel_mono (fun _ _ => .mono hwithin) (h.functions hij) }

theorem Agree.pushFunction (h : b.Agree n index₁ index₂) (hxy : (b.counterparts n).scope x y)
    (body : Option Body) (wrapsResult : Bool) : b.Agree { n with functions := n.functions + 1 }
      { index₁ with functionSites := index₁.functionSites.push ⟨x, body, wrapsResult⟩ }
      { index₂ with functionSites := index₂.functionSites.push ⟨y, body, wrapsResult⟩ } := by
  have hwithin := b.within n.before_function
  exact {
    added₁ := h.added₁.pushFunction _
    added₂ := h.added₂.pushFunction _
    scopes := fun hzw => (h.scopes hzw).mono hwithin
    decls := fun hij => rel_mono (fun _ _ => .mono hwithin) (h.decls hij)
    types := fun hij => rel_mono (fun _ _ => .mono hwithin) (h.types hij)
    functions := fun hij => Parallel.push h.added₁.functionsSize h.added₂.functionsSize h.functions
      (fun _ _ => .mono hwithin) ⟨hwithin.scope hxy, rfl, rfl⟩ hij }

/-- The two indices are bound in step. -/
def pairing (b : Twice) : Pairing where
  Stage := Made
  Before := Made.Before
  before_refl := .refl
  before_trans := .trans
  module := b.module
  counterparts := b.counterparts
  module_counterparts hm := hm
  within := b.within
  Agree := b.Agree
  scopes h hxy := h.scopes hxy
  decls h hde := h.decls hde
  modifyScope h hxy hchange hparent hparent' := h.modifyScope hxy hchange hparent hparent'
  newScope h hxy name := by
    refine ⟨_, Made.before_scope _, h.newScope hxy name, .inr ?_⟩
    rw [h.added₁.scopesSize, h.added₂.scopesSize]
    exact .last ..
  pushDecl h hxy name kind := by
    refine ⟨_, Made.before_decl _, h.pushDecl hxy name kind, ?_⟩
    rw [h.added₁.declsSize, h.added₂.declsSize]
    exact .last ..
  setDecl h hde hdecl := h.setDecl hde hdecl
  pushType h hxy type := by
    refine ⟨_, Made.before_type _, h.pushType hxy type, ?_⟩
    rw [h.added₁.typesSize, h.added₂.typesSize]
    exact .last ..
  pushFunction h hxy body wrapsResult := by
    refine ⟨_, Made.before_function _, h.pushFunction hxy body wrapsResult, ?_⟩
    rw [h.added₁.functionsSize, h.added₂.functionsSize]
    exact .last ..
  pushClass {n _ _} h site :=
    ⟨n, .refl n, { h with added₁ := h.added₁.pushClass site, added₂ := h.added₂.pushClass site },
      trivial⟩

end Twice

end ComponentSchema
