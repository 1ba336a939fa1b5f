import ComponentSchema.Proofs.Comparison.RestatedDocuments

/-!
# Modules under other ids

Two programs have the same modules in the same order, under other ids and perhaps at other paths. The
scopes of their modules are made in the order of ids, so they are numbered differently too. They are as
many, and no scope is that of two modules, but for the global scope, which scripts have. So the two are
twins, and have the same document.

Hypothesis. `Renumbered`: modules correspond one by one, and those that do are bound alike.

Results.
* `moduleScope_eq`: which scope a module has.
* `Renumbered.twins`, `Renumbered.document_alike`: the documents of the two programs.
-/
namespace ComponentSchema

open Syntax

/-! ## The scopes of modules -/

/-- The scopes of some modules, of which `next` is the first that is made. -/
def moduleScopesFrom (next : Nat) : List ModuleFile → List ScopeId
  | [] => []
  | file :: rest =>
    if file.hasScope then ⟨next⟩ :: moduleScopesFrom (next + 1) rest
    else globalScope :: moduleScopesFrom next rest

theorem forM_moduleScope (files : List ModuleFile) (index : Index) :
    ((files.forM Binding.moduleScope).run index).2.scopes.size =
        index.scopes.size + files.countP ModuleFile.hasScope ∧
      ((files.forM Binding.moduleScope).run index).2.moduleScopes.toList =
        index.moduleScopes.toList ++ moduleScopesFrom index.scopes.size files := by
  induction files generalizing index with
  | nil => exact ⟨rfl, (List.append_nil _).symm⟩
  | cons file rest ih =>
    have hcons : (((file :: rest).forM Binding.moduleScope).run index).2 =
        ((rest.forM Binding.moduleScope).run ((Binding.moduleScope file).run index).2).2 := rfl
    rw [hcons, (ih _).1, (ih _).2, Binding.moduleScope_run, moduleScopesFrom, List.countP_cons]
    cases file.hasScope with
    | true => simp [Nat.add_assoc, Nat.add_comm 1]
    | false => simp

theorem getElem?_moduleScopesFrom (next : Nat) (files : List ModuleFile) (i : Nat) :
    (moduleScopesFrom next files)[i]? = files[i]?.map fun file =>
      if file.hasScope then ⟨next + (files.take i).countP ModuleFile.hasScope⟩ else globalScope := by
  induction files generalizing next i with
  | nil => rfl
  | cons file rest ih =>
    unfold moduleScopesFrom
    cases i with
    | zero => cases hscope : file.hasScope <;> simp [hscope]
    | succ i =>
      cases hscope : file.hasScope
      · simp [hscope, ih]
      · simp [hscope, ih, Nat.add_assoc, Nat.add_comm 1]

theorem countP_take_lt {α : Type} {p : α → Bool} {items : List α} {i j : Nat} {item : α}
    (hij : i < j) (hitem : items[i]? = some item) (hp : p item = true) :
    (items.take i).countP p < (items.take j).countP p := by
  have hsucc : (items.take (i + 1)).countP p = (items.take i).countP p + 1 := by
    rw [List.take_add_one, hitem, List.countP_append]
    simp [hp]
  have hle : (items.take (i + 1)).countP p ≤ (items.take j).countP p :=
    (List.take_sublist_take_left (Nat.succ_le_of_lt hij)).countP_le
  omega

theorem countP_of_forall₂ {α β : Type} {R : α → β → Prop} {p : α → Bool} {q : β → Bool} {items : List α}
    {items' : List β} (h : List.Forall₂ R items items') (hpq : ∀ a b, R a b → p a = q b) :
    items.countP p = items'.countP q := by
  induction h with
  | nil => rfl
  | cons hr _ ih => rw [List.countP_cons, List.countP_cons, ih, hpq _ _ hr]

namespace Modules

variable {modules : Modules} {g h : ModuleId}

/-- Whether a module has a scope of its own. -/
def hasScope (modules : Modules) (g : ModuleId) : Bool :=
  (modules.files[g.index]?).any ModuleFile.hasScope

/-- How many scopes there are of modules before `g`, and the global one. -/
def scopesBefore (modules : Modules) (g : ModuleId) : Nat :=
  1 + (modules.files.toList.take g.index).countP ModuleFile.hasScope

theorem scopes_size (modules : Modules) : modules.unbound.scopes.size =
    1 + modules.files.toList.countP ModuleFile.hasScope :=
  (forM_moduleScope modules.files.toList Index.empty).1

theorem moduleScope_eq (modules : Modules) (g : ModuleId) : modules.unbound.moduleScope g =
    if modules.hasScope g then ⟨modules.scopesBefore g⟩ else globalScope := by
  have hscopes := (forM_moduleScope modules.files.toList Index.empty).2
  have hscope : modules.unbound.moduleScopes[g.index]? =
      (moduleScopesFrom 1 modules.files.toList)[g.index]? := by
    rw [← Array.getElem?_toList]
    exact congrArg (·[g.index]?) hscopes
  rw [Index.moduleScope, hscope, getElem?_moduleScopesFrom, Array.getElem?_toList, hasScope]
  cases modules.files[g.index]? with
  | none => rfl
  | some file => rfl

theorem scopesBefore_lt (hg : modules.hasScope g = true) (hlt : g.index < h.index) :
    modules.scopesBefore g < modules.scopesBefore h := by
  rw [hasScope, ← Array.getElem?_toList] at hg
  rcases hfile : modules.files.toList[g.index]? with _ | file
  · simp [hfile] at hg
  · rw [hfile] at hg
    exact Nat.add_lt_add_left (countP_take_lt hlt hfile hg) 1

theorem moduleScope_eq_global_iff :
    modules.unbound.moduleScope g = globalScope ↔ modules.hasScope g = false := by
  rw [moduleScope_eq]
  cases modules.hasScope g with
  | false => simp
  | true => simp [globalScope, scopesBefore]

theorem scopesBefore_inj (hg : modules.hasScope g = true) (hh : modules.hasScope h = true)
    (heq : modules.scopesBefore g = modules.scopesBefore h) : g = h := by
  rcases Nat.lt_trichotomy g.index h.index with hlt | hindex | hlt
  · exact absurd heq (Nat.ne_of_lt (scopesBefore_lt hg hlt))
  · exact congrArg ModuleId.mk hindex
  · exact absurd heq.symm (Nat.ne_of_lt (scopesBefore_lt hh hlt))

/-- Two modules have the same scope if they have none of their own, or are the same. -/
theorem moduleScope_eq_iff : modules.unbound.moduleScope g = modules.unbound.moduleScope h ↔
    (modules.hasScope g = false ∧ modules.hasScope h = false) ∨ g = h := by
  constructor
  · intro heq
    cases hg : modules.hasScope g with
    | false =>
      rw [moduleScope_eq_global_iff.2 hg] at heq
      exact .inl ⟨rfl, moduleScope_eq_global_iff.1 heq.symm⟩
    | true =>
      cases hh : modules.hasScope h with
      | false =>
        rw [moduleScope_eq_global_iff.2 hh, moduleScope_eq_global_iff, hg] at heq
        cases heq
      | true =>
        rw [moduleScope_eq, moduleScope_eq, if_pos hg, if_pos hh] at heq
        exact .inr (scopesBefore_inj hg hh (congrArg ScopeId.index heq))
  · rintro (⟨hg, hh⟩ | rfl)
    · rw [moduleScope_eq_global_iff.2 hg, moduleScope_eq_global_iff.2 hh]
    · rfl

end Modules

/-! ## Programs -/

/-- Two programs whose modules correspond one by one, in the same order: those that do are bound alike,
and as many have a scope of their own in both. -/
structure Renumbered (same : ModuleId → ModuleId → Prop) (P : String → String → Prop)
    (first second : Modules) : Prop where
  unique : Relator.BiUnique same
  files : ∀ {g h : ModuleId}, same g h → Option.Rel
    (fun file file' => file.hasScope = file'.hasScope ∧
      ∀ t : Twins, t.module = same → t.SameBinding P file file')
    first.files[g.index]? second.files[h.index]?
  order : List.Forall₂ same first.order second.order
  scopes : first.files.toList.countP ModuleFile.hasScope =
    second.files.toList.countP ModuleFile.hasScope

namespace Renumbered

variable {same : ModuleId → ModuleId → Prop} {P : String → String → Prop} {first second : Modules}

theorem hasScope (hsame : Renumbered same P first second) {g h : ModuleId} (hgh : same g h) :
    first.hasScope g = second.hasScope h := by
  unfold Modules.hasScope
  rcases rel_cases (hsame.files hgh) with ⟨hx, hy⟩ | ⟨file, file', hx, hy, hscope, -⟩
  · rw [hx, hy]
  · rw [hx, hy]
    exact hscope

/-- The two programs before they are bound. -/
def twins (hsame : Renumbered same P first second) : Twins where
  module := same
  own x y := (x = globalScope ∧ y = globalScope) ∨ ∃ g h, same g h ∧
    x = first.unbound.moduleScope g ∧ y = second.unbound.moduleScope h
  base := first.unbound.scopes.size
  own_lt := by
    have hsize : first.unbound.scopes.size = second.unbound.scopes.size := by
      rw [Modules.scopes_size, Modules.scopes_size, hsame.scopes]
    rintro x y (⟨rfl, rfl⟩ | ⟨g, h, -, rfl, rfl⟩)
    · exact ⟨first.unbound_nested.global, first.unbound_nested.global⟩
    · exact ⟨first.unbound_nested.moduleScope_lt g, hsize ▸ second.unbound_nested.moduleScope_lt h⟩
  own_unique := by
    have hglobal : ∀ {g h}, same g h → (first.unbound.moduleScope g = globalScope ↔
        second.unbound.moduleScope h = globalScope) := fun hgh => by
      rw [Modules.moduleScope_eq_global_iff, Modules.moduleScope_eq_global_iff, hsame.hasScope hgh]
    rintro x y x' y' (⟨rfl, rfl⟩ | ⟨g, h, hgh, rfl, rfl⟩) (⟨rfl, rfl⟩ | ⟨g', h', hgh', rfl, rfl⟩)
    · simp
    · rw [eq_comm, hglobal hgh', eq_comm]
    · exact hglobal hgh
    · have hunique : g = g' ↔ h = h' := Relator.rel_eq hsame.unique hgh hgh'
      rw [Modules.moduleScope_eq_iff, Modules.moduleScope_eq_iff, hsame.hasScope hgh,
        hsame.hasScope hgh', hunique]
  own_global := .inl ⟨rfl, rfl⟩

/-- Programs with the same modules under other ids have the same document, but for the paths of
files. -/
theorem document_alike (hsame : Renumbered same P first second) (mode : SchemaMode) :
    (first.program.document mode).Alike P (second.program.document mode) := by
  have hsize : second.unbound.scopes.size = first.unbound.scopes.size := by
    rw [Modules.scopes_size, Modules.scopes_size, hsame.scopes]
  have hstart : hsame.twins.Agree Twins.Stage.start first.unbound second.unbound :=
    .start _ first.unbound_bare second.unbound_bare rfl hsize fun hgh => .inr ⟨_, _, hgh, rfl, rfl⟩
  refine hstart.program_alike ?_ mode
  refine List.rel_filterMap (R := same) ?_ hsame.order
  intro g h hgh
  show Option.Rel _ ((first.files[g.index]?).map (g, ·)) ((second.files[h.index]?).map (h, ·))
  rcases rel_cases (hsame.files hgh) with ⟨hx, hy⟩ | ⟨file, file', hx, hy, -, hbinding⟩
  · rw [hx, hy]
    exact .none
  · rw [hx, hy]
    exact .some ⟨hgh, hbinding hsame.twins rfl⟩

end Renumbered

end ComponentSchema
