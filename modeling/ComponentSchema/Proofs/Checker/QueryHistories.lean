import ComponentSchema.Proofs.Checker.ObservedTypes
import Mathlib.Logic.Function.Basic

/-!
# Answers and what was asked before

A program keeps the answers that it has given. Whether this can be noticed is asked as follows: two
sequences of queries are put to a fresh program each, then the type of one annotation, and from there
on the types of members, and members of those, along any number of paths. What is seen is the same
but for the identities of types and members, if the annotation is untangled.

On aliases that are made of each other the order of the queries can be noticed: of two of them, the
one asked for first has the members of both.

Results.
* `Program.answer_rename`: what was asked before makes no difference.
* `Program.answer_circular`: for aliases made of each other it does.
-/
namespace ComponentSchema

open Syntax

/-! ## Renamings -/

section

variable {index : Index} {a : Arena} {w : Naming} {o : TypeOrigin}

/-- Two ways of naming the same things differ by a renaming. `fresh` gives identities that are not
in use by the second. -/
theorem exists_renaming {ι κ : Type} {first second : ι → κ → Prop} (fresh : ι → ι)
    (hfresh : Function.Injective fresh) (hunused : ∀ x k, ¬ second (fresh x) k)
    (hone : ∀ {x k k'}, first x k → first x k' → k = k')
    (hinj : ∀ {x x' k}, first x k → first x' k → x = x')
    (hone' : ∀ {x k k'}, second x k → second x k' → k = k')
    (hinj' : ∀ {x x' k}, second x k → second x' k → x = x') :
    ∃ ρ : ι → ι, Function.Injective ρ ∧ ∀ {x y k}, first x k → second y k → ρ x = y := by
  classical
  have hchoice : ∀ x, ∃ y, (∃ k, first x k ∧ second y k) ∨
      ((¬ ∃ y k, first x k ∧ second y k) ∧ y = fresh x) := by
    intro x
    by_cases h : ∃ y k, first x k ∧ second y k
    · obtain ⟨y, hy⟩ := h
      exact ⟨y, .inl hy⟩
    · exact ⟨fresh x, .inr ⟨h, rfl⟩⟩
  obtain ⟨ρ, hρ⟩ := Classical.axiomOfChoice hchoice
  refine ⟨ρ, fun x x' hxx => ?_, fun {x y k} hx hy => ?_⟩
  · rcases hρ x with ⟨k, hx, hy⟩ | ⟨-, hx⟩ <;> rcases hρ x' with ⟨k', hx', hy'⟩ | ⟨-, hx'⟩
    · rw [← hxx] at hy'
      obtain rfl := hone' hy hy'
      exact hinj hx hx'
    · rw [hxx, hx'] at hy
      exact absurd hy (hunused _ _)
    · rw [← hxx, hx] at hy'
      exact absurd hy' (hunused _ _)
    · exact hfresh (hx.symm.trans (hxx.trans hx'))
  · rcases hρ x with ⟨k', hx', hy'⟩ | ⟨hnone, -⟩
    · obtain rfl := hone hx hx'
      exact hinj' hy' hy
    · exact absurd ⟨y, k, hx, hy⟩ hnone

theorem eq_map_of_forall₂ {γ δ ε : Type} {R : γ → ε → Prop} {S : δ → ε → Prop} {f : γ → δ}
    (hf : ∀ x y z, R x z → S y z → y = f x) {xs : List γ} {ys : List δ} {zs : List ε}
    (hx : List.Forall₂ R xs zs) (hy : List.Forall₂ S ys zs) : ys = xs.map f := by
  induction hx generalizing ys with
  | nil =>
    cases hy
    rfl
  | cons hxz _ ih =>
    rcases hy with _ | ⟨hyz, hrest⟩
    rw [List.map_cons, ← ih hrest, hf _ _ _ hxz hyz]

theorem FitsMember.unique {m : MemberId} {o o' : OutlineMember} (h : FitsMember a w m o)
    (h' : FitsMember a w m o') : o = o' := by
  obtain ⟨owner, data⟩ := o
  obtain ⟨owner', data'⟩ := o'
  obtain rfl := Option.some.inj (h.owner.symm.trans h'.owner)
  obtain rfl := Option.some.inj (h.data.symm.trans h'.data)
  rfl

section

variable {a₁ a₂ : Arena} {w₁ w₂ : Naming} {ρ : TypeId → TypeId} {σ : MemberId → MemberId}

theorem exists_typeRenaming (h₁ : Faithful index a₁ w₁) (h₂ : Faithful index a₂ w₂) :
    ∃ ρ : TypeId → TypeId, Function.Injective ρ ∧
      ∀ {t t' o}, w₁.type t = some o → w₂.type t' = some o → ρ t = t' := by
  refine exists_renaming (fun t => ⟨a₂.types.size + t.index⟩) ?_ ?_ ?_ h₁.typeUnique ?_ h₂.typeUnique
  · rintro ⟨i⟩ ⟨j⟩ hij
    simpa using hij
  · intro t o ht
    have hlt := h₂.typeKnown ht
    simp only at hlt
    omega
  · exact fun ho ho' => Option.some.inj (ho.symm.trans ho')
  · exact fun ho ho' => Option.some.inj (ho.symm.trans ho')

theorem exists_memberRenaming (h₁ : Faithful index a₁ w₁) (h₂ : Faithful index a₂ w₂) :
    ∃ σ : MemberId → MemberId, Function.Injective σ ∧
      ∀ {m m' o}, FitsMember a₁ w₁ m o → FitsMember a₂ w₂ m' o → σ m = m' := by
  refine exists_renaming (fun m => ⟨a₂.members.size + m.index⟩) ?_ ?_ FitsMember.unique
    h₁.memberUnique FitsMember.unique h₂.memberUnique
  · rintro ⟨i⟩ ⟨j⟩ hij
    simpa using hij
  · intro m o hm
    have hlt := h₂.memberKnown hm.owner
    simp only at hlt
    omega

theorem ShowsMember.eq_rename {view₁ view₂ : MemberView MemberId} {o : OutlineMember}
    (h₁ : ShowsMember a₁ w₁ view₁ o) (h₂ : ShowsMember a₂ w₂ view₂ o)
    (hid : σ view₁.id = view₂.id) : view₂ = view₁.rename σ := by
  obtain ⟨id, name, optional⟩ := view₂
  rw [MemberView.rename, hid, h₁.name, h₁.optional]
  exact congrArg₂ (MemberView.mk id) h₂.name h₂.optional

theorem Shows.eq_rename {view₁ view₂ : TypeView TypeId MemberId} {v : Outline}
    (h₁ : Shows a₁ w₁ view₁ v) (h₂ : Shows a₂ w₂ view₂ v) (hid : ρ view₁.id = view₂.id)
    (hmembers : view₂.members = view₁.members.map (·.rename σ)) : view₂ = view₁.rename ρ σ := by
  obtain ⟨id, symbol, aliasName, intrinsicName, members⟩ := view₂
  obtain rfl := hid
  obtain rfl := hmembers
  obtain rfl := h₂.symbol.trans h₁.symbol.symm
  obtain rfl := h₂.aliasName.trans h₁.aliasName.symm
  obtain rfl := h₂.intrinsicName.trans h₁.intrinsicName.symm
  rfl

/-- What two faithful arenas show of the same outlines differs by a renaming. -/
theorem exists_rename (h₁ : Faithful index a₁ w₁) (h₂ : Faithful index a₂ w₂) :
    ∃ ρ : TypeId → TypeId, ∃ σ : MemberId → MemberId, Function.Injective ρ ∧ Function.Injective σ ∧
      ∀ view₁ view₂ v, Shows a₁ w₁ view₁ v → Shows a₂ w₂ view₂ v → view₂ = view₁.rename ρ σ := by
  obtain ⟨ρ, hρ, htypes⟩ := exists_typeRenaming h₁ h₂
  obtain ⟨σ, hσ, hmembers⟩ := exists_memberRenaming h₁ h₂
  refine ⟨ρ, σ, hρ, hσ, fun view₁ view₂ v hs₁ hs₂ => ?_⟩
  have hviews : view₂.members = view₁.members.map (·.rename σ) :=
    eq_map_of_forall₂ (fun _ _ _ hm₁ hm₂ => hm₁.eq_rename hm₂ (hmembers hm₁.fits hm₂.fits))
      hs₁.members hs₂.members
  exact hs₁.eq_rename hs₂ (htypes hs₁.fits.origin hs₂.fits.origin) hviews

end

theorem not_recorded_empty (r : Option TypeId) : ¬ Recorded Arena.empty w o r := by
  cases o <;> simp [Recorded, Arena.empty]

/-- Before anything is asked, nothing has a name. -/
theorem ready_empty (index : Index) : Ready index Arena.empty ⟨fun _ => none, fun _ => none⟩ := by
  refine ⟨?_, fun d => by simp [Arena.empty]⟩
  constructor
  case typeKnown | memberKnown | typeUnique | typeMade | memberMade => intros; contradiction
  case memberUnique => exact fun hm => nomatch hm.owner
  case asked => exact fun h => nomatch h
  case answers => exact fun h => absurd h (not_recorded_empty _)

/-- What was asked before an untangled annotation makes no difference to what is seen of its type:
it is the same up to the identities of types and members. -/
theorem Program.answer_rename (program : Program) (node : TypeNode)
    (hsite : ∀ site, program.index.typeSites[node.id.index]? = some site →
      program.index.UntangledSite site) (first second : List Query) (paths : List (List Nat)) :
    ∃ ρ : TypeId → TypeId, ∃ σ : MemberId → MemberId, Function.Injective ρ ∧ Function.Injective σ ∧
      program.answer second node paths =
        (program.answer first node paths).map (Option.map (TypeView.rename ρ σ)) := by
  have hready := ready_empty program.index
  obtain ⟨w₁, -, hr₁, hviews₁⟩ := answer_serves hready first node hsite paths
  obtain ⟨w₂, -, hr₂, hviews₂⟩ := answer_serves hready second node hsite paths
  obtain ⟨ρ, σ, hρ, hσ, hrename⟩ := exists_rename hr₁.faithful hr₂.faithful
  refine ⟨ρ, σ, hρ, hσ, eq_map_of_forall₂ (fun view₁ view₂ v hs₁ hs₂ => ?_) hviews₁ hviews₂⟩
  cases hs₁ with
  | none =>
    cases hs₂
    rfl
  | some hs₁ =>
    cases hs₂ with
    | some hs₂ => exact congrArg some (hrename _ _ _ hs₁ hs₂)

end

/-- `type Tree = Node & { child?: Tree }; type Node = { value: number }`, and an annotation of each
type. -/
def treeProgram : Program where
  files := []
  index := { Index.empty with
    scopes := #[{ Scope.empty none none with types := [("Tree", ⟨0⟩), ("Node", ⟨1⟩)] }]
    decls := #[
      ⟨"Tree", globalScope, .typeAlias (.intersection [.reference (.ident "Node"),
        .literal [.property (.identifier "child") true (some (.reference (.ident "Tree")))]])⟩,
      ⟨"Node", globalScope, .typeAlias
        (.literal [.property (.identifier "value") false (some (.keyword .number))])⟩]
    typeSites := #[⟨globalScope, .reference (.ident "Tree")⟩,
      ⟨globalScope, .reference (.ident "Node")⟩] }

def treeNode : TypeNode := ⟨⟨0⟩, .reference (.ident "Tree")⟩

def nodeNode : TypeNode := ⟨⟨1⟩, .reference (.ident "Node")⟩

theorem not_refers_treeProgram (e : DeclId) : ¬ treeProgram.index.Refers ⟨1⟩ e := by
  rintro ⟨scope, type, ⟨name, halias⟩, segments, hs, -⟩
  obtain ⟨-, -, hkind⟩ := TypeDecl.mk.inj (Option.some.inj halias)
  obtain rfl := TypeDeclKind.typeAlias.inj hkind
  simp [TypeExpr.names] at hs

theorem not_entangled_treeProgram (d : DeclId) : ¬ treeProgram.index.Entangled d := by
  rintro ⟨scope, type, halias, -, e, hm, hne, hback⟩
  obtain ⟨_ | _ | i⟩ := d
  · obtain ⟨name, hdecl⟩ := halias
    obtain ⟨-, rfl, hkind⟩ := TypeDecl.mk.inj (Option.some.inj hdecl)
    obtain rfl := TypeDeclKind.typeAlias.inj hkind
    obtain ⟨segments, hs, hlook⟩ := hm
    have hnode : treeProgram.index.lookup globalScope ["Node"] = some ⟨1⟩ := by decide
    simp only [TypeExpr.names, namesOfAll, EntityName.segments, List.append_nil,
      List.mem_singleton] at hs
    rw [hs, hnode] at hlook
    obtain rfl := Option.some.inj hlook
    rcases hback.cases_head with heq | ⟨f, hr, -⟩
    · exact hne heq
    · exact not_refers_treeProgram f hr
  · exact not_refers_treeProgram e ⟨scope, type, halias, hm⟩
  · obtain ⟨name, hdecl⟩ := halias
    cases hdecl

/-- In whatever order the two types and the members of the first are asked for, the same is seen. -/
theorem Program.answer_rename_treeProgram :
    ∃ ρ : TypeId → TypeId, ∃ σ : MemberId → MemberId, Function.Injective ρ ∧ Function.Injective σ ∧
      treeProgram.answer [.typeOf nodeNode, .memberType ⟨0⟩, .typeOf treeNode] treeNode
          [[], [1], [1, 0]] =
        (treeProgram.answer [] treeNode [[], [1], [1, 0]]).map (Option.map (TypeView.rename ρ σ)) :=
  treeProgram.answer_rename treeNode (fun _ _ _ _ d _ => not_entangled_treeProgram d) []
    [.typeOf nodeNode, .memberType ⟨0⟩, .typeOf treeNode] [[], [1], [1, 0]]

/-! ## Circular aliases -/

/-- The names of the members that are seen. -/
def seenNames {T M : Type} (views : List (Option (TypeView T M))) : List (Option (List String)) :=
  views.map (Option.map fun view => view.members.map (·.name))

theorem seenNames_rename {T T' M M' : Type} (ρ : T → T') (σ : M → M')
    (views : List (Option (TypeView T M))) :
    seenNames (views.map (Option.map (TypeView.rename ρ σ))) = seenNames views := by
  simp only [seenNames, List.map_map]
  refine List.map_congr_left fun view _ => ?_
  cases view with
  | none => rfl
  | some view => simp [TypeView.rename, MemberView.rename]

/-- Two aliases that are made of each other, and an annotation of each type. -/
def circularTree : FileTree where
  entries := [(["a.ts"], .file "type A = B & { x: string };
type B = A & { y: string };
export declare const a: A;
export declare const b: B;
")]
  current := []

def annotA : TypeNode := ⟨⟨0⟩, .reference (.ident "A")⟩

def annotB : TypeNode := ⟨⟨1⟩, .reference (.ident "B")⟩

set_option maxRecDepth 100000 in
theorem seenNames_circular : ((Program.load circularTree [⟨"a.ts"⟩]).toOption.map fun program =>
    (seenNames (program.answer [] annotB [[]]),
      seenNames (program.answer [.typeOf annotA] annotB [[]]))) =
    some ([some ["x", "y"]], [some ["y"]]) := by
  decide +kernel

/-- Of two aliases that are made of each other, the one asked for first has the members of both: what
was asked before can be noticed. -/
theorem Program.answer_circular : ¬ ∀ (tree : FileTree) (roots : List Path) (program : Program),
    Program.load tree roots = .ok program → ∀ (node : TypeNode) (first second : List Query)
      (paths : List (List Nat)), ∃ ρ : TypeId → TypeId, ∃ σ : MemberId → MemberId,
        Function.Injective ρ ∧ Function.Injective σ ∧ program.answer second node paths =
          (program.answer first node paths).map (Option.map (TypeView.rename ρ σ)) := by
  intro h
  have hseen := seenNames_circular
  rcases hload : Program.load circularTree [⟨"a.ts"⟩] with _ | program
  · rw [hload] at hseen
    cases hseen
  · rw [hload] at hseen
    obtain ⟨hfresh, hasked⟩ := Prod.mk.inj (Option.some.inj hseen)
    obtain ⟨ρ, σ, -, -, hsame⟩ := h _ _ program hload annotB [] [.typeOf annotA] [[]]
    rw [hsame, seenNames_rename, hfresh] at hasked
    exact absurd hasked (by decide)

end ComponentSchema
