import ComponentSchema.Proofs.Binder.ScopeAdditions
import ComponentSchema.Proofs.Comparison.RestatedDocuments

/-!
# Programs that resemble each other

Two indexes resemble each other if they have the same frame and the same contents. The declarations may
stand in another order then, and the members of an interface may be divided among its bodies in another
way; whatever is entered under the same name in the same scope corresponds.

Results.
* `Index.Resembles.likeNames`: names lead to declarations that correspond.
* `Index.Resembles.keys_perm`: there are as many declarations, and as many aliases.
* `Index.Resembles.document_eq`: programs that resemble each other have the same document.
-/
namespace ComponentSchema

open Syntax

/-! ## Views -/

/-- The same declarations are visited, in files and in namespaces. -/
structure AlikeViews (views views' : List Declaration) : Prop where
  visited : views.flatMap Declaration.visited = views'.flatMap Declaration.visited
  visitedIn : Declaration.visitedIn views = Declaration.visitedIn views'

namespace AlikeViews

variable {views views' views'' others others' : List Declaration}

theorem refl (views : List Declaration) : AlikeViews views views := ⟨rfl, rfl⟩

theorem trans (h : AlikeViews views views') (h' : AlikeViews views' views'') : AlikeViews views views'' :=
  ⟨h.visited.trans h'.visited, h.visitedIn.trans h'.visitedIn⟩

theorem visitedIn_append (views others : List Declaration) : Declaration.visitedIn (views ++ others) =
    Declaration.visitedIn views ++ Declaration.visitedIn others := by
  induction views with
  | nil => rfl
  | cons view rest ih =>
    rw [List.cons_append, Declaration.visitedIn, Declaration.visitedIn, ih, List.append_assoc]

theorem append (h : AlikeViews views views') (h' : AlikeViews others others') :
    AlikeViews (views ++ others) (views' ++ others') where
  visited := by rw [List.flatMap_append, List.flatMap_append, h.visited, h'.visited]
  visitedIn := by rw [visitedIn_append, visitedIn_append, h.visitedIn, h'.visitedIn]

/-- The views of a namespace in whose blocks the same is visited. -/
theorem namespaceDecl (h : AlikeViews views views') (name : String) (exported : Bool) :
    AlikeViews [.namespaceDecl name exported views] [.namespaceDecl name exported views'] where
  visited := by simp [Declaration.visited, h.visitedIn]
  visitedIn := by
    cases exported <;>
      simp [Declaration.visitedIn, Declaration.visited, Declaration.exported, h.visitedIn]

/-- Two blocks of a namespace are visited as one. -/
theorem merge (name : String) (exported : Bool) (views others : List Declaration) :
    AlikeViews [.namespaceDecl name exported views, .namespaceDecl name exported others]
      [.namespaceDecl name exported (views ++ others)] where
  visited := by simp [Declaration.visited, visitedIn_append]
  visitedIn := by
    cases exported <;> simp [Declaration.visitedIn, Declaration.visited, visitedIn_append,
      Declaration.exported]

end AlikeViews

namespace Counterparts

variable {c : Counterparts}

theorem rel_refl {α : Type} {R : α → α → Prop} (h : ∀ a, R a a) (a : Option α) : Option.Rel R a a := by
  cases a with
  | none => exact .none
  | some a => exact .some (h a)

/-- Annotations, functions and classes correspond to themselves. -/
structure Reflexive (c : Counterparts) : Prop where
  node : ∀ i, c.node i i
  function : ∀ f, c.function f f
  classSite : ∀ a, c.classSite a a

theorem Reflexive.signature_like (h : c.Reflexive) (signature : FunctionLike) :
    c.LikeSignature signature signature where
  id _ := h.function _
  returned := rel_refl (R := fun node node' : TypeNode => c.node node.id node'.id) (fun _ => h.node _) _
  props := rel_refl (R := fun node node' : TypeNode => c.node node.id node'.id) (fun _ => h.node _) _

mutual

/-- What is visited is alike to itself. -/
theorem Reflexive.visited_like (h : c.Reflexive) : ∀ declaration : Declaration,
    List.Forall₂ c.LikeView declaration.visited declaration.visited
  | .funDecl _ | .varDecl _ => .cons (.value rfl rfl (rel_refl h.signature_like _) rfl) .nil
  | .namespaceDecl _ _ body => h.visitedIn_like body
  | .classDecl ⟨id, _, _⟩ => .cons (.classDecl (h.classSite id)) .nil

theorem Reflexive.visitedIn_like (h : c.Reflexive) : ∀ body : List Declaration,
    List.Forall₂ c.LikeView (Declaration.visitedIn body) (Declaration.visitedIn body)
  | [] => .nil
  | declaration :: rest => by
    rw [Declaration.visitedIn]
    refine List.rel_append ?_ (h.visitedIn_like rest)
    split
    · exact h.visited_like declaration
    · exact .nil

end

theorem Reflexive.flatMap_visited_like (h : c.Reflexive) (views : List Declaration) : List.Forall₂ c.LikeView
    (views.flatMap Declaration.visited) (views.flatMap Declaration.visited) := by
  induction views with
  | nil => exact .nil
  | cons view rest ih =>
    rw [List.flatMap_cons]
    exact List.rel_append (h.visited_like view) ih

end Counterparts

/-! ## Resembling indexes -/

namespace Index

variable {index₁ index₂ index₃ : Index} {x : ScopeId} {spot : Spot}

/-- Two indexes with the same frame and the same contents. -/
structure Resembles (index₁ index₂ : Index) : Prop where
  bound₁ : Bound (fun _ => True) index₁
  bound₂ : Bound (fun _ => True) index₂
  frame : SameFrame index₁ index₂
  contents : index₂.contents = index₁.contents

/-- Declarations of the same name in the same scope correspond, and all else has the same ids. -/
def resemblance (index₁ index₂ : Index) : Counterparts where
  module := Eq
  scope := Eq
  decl d e := ∃ x name, (index₁.scope x).types.lookup name = some d ∧
    (index₂.scope x).types.lookup name = some e
  node := Eq
  function := Eq
  classSite := Eq

theorem Ahead.resembles (h : Ahead spot x [] index₁ index₂) : Resembles index₁ index₂ :=
  ⟨h.bound₁, h.bound₂, h.frame, h.contents⟩

/-- The declared names of an index, each with its scope, and whether it is an alias. -/
def keys (index : Index) : List (ScopeId × String × Bool) :=
  index.decls.toList.map fun decl => (decl.scope, decl.name, Program.isAlias decl)

theorem keys_nodup (h : index₁.Registered) : index₁.keys.Nodup := by
  rw [List.nodup_iff_getElem?_ne_getElem?]
  intro i j hij hj heq
  simp only [keys, List.length_map, Array.length_toList] at hj
  have hi : i < index₁.decls.size := Nat.lt_trans hij hj
  simp only [keys, List.getElem?_map, Array.getElem?_toList, Array.getElem?_eq_getElem hi,
    Array.getElem?_eq_getElem hj, Option.map_some, Option.some.injEq, Prod.mk.injEq] at heq
  obtain ⟨-, hfirst⟩ := h.entered ⟨i⟩ _ (Array.getElem?_eq_getElem hi)
  obtain ⟨-, hsecond⟩ := h.entered ⟨j⟩ _ (Array.getElem?_eq_getElem hj)
  rw [heq.1, heq.2.1, hsecond] at hfirst
  exact Nat.ne_of_gt hij (congrArg DeclId.index (Option.some.inj hfirst))

theorem isAlias_joined (name : String) (kind : TypeDeclKind) :
    Program.isAlias ⟨name, x, kind.joined⟩ = Program.isAlias ⟨name, x, kind⟩ := by
  cases kind <;> rfl

theorem mem_keys (h : index₁.Registered) {name : String} {isAlias : Bool} :
    (x, name, isAlias) ∈ index₁.keys ↔
      ∃ kind, index₁.contents.declared x name = some kind ∧ Program.isAlias ⟨name, x, kind⟩ = isAlias := by
  refine List.mem_map.trans ⟨?_, ?_⟩
  · rintro ⟨decl, hdecl, heq⟩
    obtain ⟨rfl, rfl, rfl⟩ : decl.scope = x ∧ decl.name = name ∧ Program.isAlias decl = isAlias := by
      simpa using heq
    obtain ⟨i, hi⟩ := List.mem_iff_getElem?.1 hdecl
    rw [Array.getElem?_toList] at hi
    obtain ⟨-, hlook⟩ := h.entered ⟨i⟩ decl hi
    obtain ⟨kind, hkind, hdeclared⟩ := contents_declared h hlook
    have hdecl : decl = ⟨decl.name, decl.scope, kind⟩ := Option.some.inj (hi.symm.trans hkind)
    exact ⟨_, hdeclared, (isAlias_joined ..).trans (congrArg Program.isAlias hdecl.symm)⟩
  · rintro ⟨kind, hdeclared, rfl⟩
    rcases hlook : (index₁.scope x).types.lookup name with _ | id
    · simp [Index.contents, hlook] at hdeclared
    · obtain ⟨kind', hdecl, hdeclared'⟩ := contents_declared h hlook
      obtain rfl := Option.some.inj (hdeclared.symm.trans hdeclared')
      refine ⟨_, Array.mem_toList_iff.2 (Array.mem_of_getElem? hdecl), ?_⟩
      rw [isAlias_joined]

namespace Resembles

theorem trans (h : Resembles index₁ index₂) (h' : Resembles index₂ index₃) : Resembles index₁ index₃ :=
  ⟨h.bound₁, h'.bound₂, h.frame.trans h'.frame, h'.contents.trans h.contents⟩

theorem ahead (h : Resembles index₁ index₂) (hat : index₁.At spot x) : Ahead spot x [] index₁ index₂ :=
  ⟨h.bound₁, h.bound₂, h.frame, h.contents, hat⟩

variable (h : Resembles index₁ index₂)
include h

/-- What is declared under a name in one of the indexes is declared in the other one. -/
theorem types (x : ScopeId) (name : String) : Option.Rel (resemblance index₁ index₂).decl
    ((index₁.scope x).types.lookup name) ((index₂.scope x).types.lookup name) := by
  have hsame := congrFun (congrFun (congrArg Contents.declared h.contents) x) name
  rcases hfirst : (index₁.scope x).types.lookup name with _ | d
  · rcases hsecond : (index₂.scope x).types.lookup name with _ | e
    · exact .none
    · obtain ⟨kind, -, hdeclared⟩ := contents_declared h.bound₂.registered hsecond
      rw [hsame] at hdeclared
      simp [Index.contents, hfirst] at hdeclared
  · rcases hsecond : (index₂.scope x).types.lookup name with _ | e
    · obtain ⟨kind, -, hdeclared⟩ := contents_declared h.bound₁.registered hfirst
      rw [← hsame] at hdeclared
      simp [Index.contents, hsecond] at hdeclared
    · exact .some ⟨x, name, hfirst, hsecond⟩

theorem likeNames : (resemblance index₁ index₂).LikeNames index₁ index₂ where
  scopes {x y} hxy := by
    obtain rfl : x = y := hxy
    have himport : ∀ binding, (resemblance index₁ index₂).SameImport binding binding := by
      intro binding
      cases binding with
      | named => exact .named rfl
      | all => exact .all rfl
    have hexport : ∀ binding, (resemblance index₁ index₂).SameExport binding binding := by
      intro binding
      cases binding with
      | own => exact .own
      | reexport => exact .reexport rfl
      | all => exact .all rfl
    refine ⟨h.frame.name x, ?_, h.types x, fun key => ?_, fun key => ?_, fun key => ?_, ?_⟩
    · rw [h.frame.parent x]
      exact Counterparts.rel_refl (fun _ => rfl) _
    · rw [h.frame.namespaces x]
      exact Counterparts.rel_refl (fun _ => rfl) _
    · rw [h.frame.imports x]
      exact Counterparts.rel_refl himport _
    · have hsame := congrFun (congrFun (congrArg Contents.exported h.contents) x) key
      simp only [Index.contents] at hsame
      rw [hsame]
      exact Counterparts.rel_refl hexport _
    · rw [h.frame.starExports x]
      exact List.forall₂_same.2 fun _ _ => rfl
  modules {g g'} hg := by
    obtain rfl : g = g' := hg
    exact h.frame.moduleScope g

/-- The scopes that a name is looked up in are the same. -/
theorem searchOrder (x : ScopeId) : index₁.searchOrder x = index₂.searchOrder x := by
  have henclosing := h.likeNames.enclosing (show (resemblance index₁ index₂).scope x x from rfl)
    index₁.scopes.size
  have heq : index₁.enclosing index₁.scopes.size x = index₂.enclosing index₁.scopes.size x :=
    List.forall₂_eq_eq_eq ▸ henclosing
  rw [Index.searchOrder, Index.searchOrder, heq, h.frame.size]

theorem lookup (x : ScopeId) (segments : List String) : Option.Rel (resemblance index₁ index₂).decl
    (index₁.lookup x segments) (index₂.lookup x segments) := by
  unfold Index.lookup
  rw [h.searchOrder x]
  have hsame : List.Forall₂ (resemblance index₁ index₂).scope (index₂.searchOrder x)
      (index₂.searchOrder x) := List.forall₂_same.2 fun _ _ => rfl
  exact findSome?_rel hsame fun _ _ hyz => h.likeNames.lookupIn exportBudget hyz segments

/-- The same names are declared, in the same scopes, as aliases or not. -/
theorem keys_perm : index₁.keys.Perm index₂.keys := by
  refine (List.perm_ext_iff_of_nodup (keys_nodup h.bound₁.registered)
    (keys_nodup h.bound₂.registered)).2 fun ⟨x, name, isAlias⟩ => ?_
  rw [mem_keys h.bound₁.registered, mem_keys h.bound₂.registered, h.contents]

/-- What is declared is the same, up to the bodies that an interface has. -/
theorem decls {d e : DeclId} (hde : (resemblance index₁ index₂).decl d e) :
    Option.Rel (resemblance index₁ index₂).LikeDecl index₁.decls[d.index]? index₂.decls[e.index]? := by
  obtain ⟨x, name, hd, he⟩ := hde
  obtain ⟨kind, hdecl, hdeclared⟩ := contents_declared h.bound₁.registered hd
  obtain ⟨kind', hdecl', hdeclared'⟩ := contents_declared h.bound₂.registered he
  rw [h.contents, hdeclared, Option.some.injEq] at hdeclared'
  rw [hdecl, hdecl']
  refine .some ⟨rfl, rfl, ?_⟩
  cases kind with
  | interface bodies =>
    cases kind' with
    | interface bodies' =>
      have hmembers : bodies.flatten = bodies'.flatten := by simpa [TypeDeclKind.joined] using hdeclared'
      exact .interface (hmembers ▸ regroupedMembers_refl _)
    | typeAlias | nominal => cases hdeclared'
  | typeAlias type =>
    cases kind' with
    | typeAlias type' =>
      obtain rfl : type = type' := by simpa [TypeDeclKind.joined] using hdeclared'
      exact .typeAlias (TypeExpr.regrouped_refl _)
    | interface | nominal => cases hdeclared'
  | nominal =>
    cases kind' with
    | nominal => exact .nominal
    | interface | typeAlias => cases hdeclared'

theorem declUnique {d e d' e' : DeclId} (hde : (resemblance index₁ index₂).decl d e)
    (hde' : (resemblance index₁ index₂).decl d' e') : d = d' ↔ e = e' := by
  obtain ⟨x, name, hd, he⟩ := hde
  obtain ⟨x', name', hd', he'⟩ := hde'
  constructor
  · rintro rfl
    obtain ⟨kind, hdecl, -⟩ := contents_declared h.bound₁.registered hd
    obtain ⟨kind', hdecl', -⟩ := contents_declared h.bound₁.registered hd'
    obtain ⟨rfl, rfl, -⟩ := TypeDecl.mk.inj (Option.some.inj (hdecl.symm.trans hdecl'))
    exact Option.some.inj (he.symm.trans he')
  · rintro rfl
    obtain ⟨kind, hdecl, -⟩ := contents_declared h.bound₂.registered he
    obtain ⟨kind', hdecl', -⟩ := contents_declared h.bound₂.registered he'
    obtain ⟨rfl, rfl, -⟩ := TypeDecl.mk.inj (Option.some.inj (hdecl.symm.trans hdecl'))
    exact Option.some.inj (hd.symm.trans hd')

theorem restates : (resemblance index₁ index₂).Restates index₁ index₂ where
  name {x y} hxy := by
    obtain rfl : x = y := hxy
    exact h.frame.name x
  lookup {x y} hxy segments := by
    obtain rfl : x = y := hxy
    exact h.lookup x segments
  decls := h.decls
  declUnique := h.declUnique
  declsSize := by simpa [keys] using h.keys_perm.length_eq
  aliases := by
    have hcount := h.keys_perm.countP_eq fun key => key.2.2
    rw [keys, keys, List.countP_map, List.countP_map] at hcount
    rw [← Array.countP_toList, ← Array.countP_toList]
    exact hcount
  nodes {i j} hij := by
    obtain rfl : i = j := hij
    rw [h.frame.typeSites]
    exact Counterparts.rel_refl (fun _ => ⟨rfl, TypeExpr.regrouped_refl _⟩) _
  nodeUnique {i j i' j'} hij hij' := by
    obtain rfl : i = j := hij
    obtain rfl : i' = j' := hij'
    exact Iff.rfl
  functions {f g} hfg := by
    obtain rfl : f = g := hfg
    rw [h.frame.functionSites]
    exact Counterparts.rel_refl (fun _ => ⟨rfl,
      Counterparts.rel_refl (fun _ => Body.regrouped_of_returned_eq rfl) _, rfl⟩) _
  classes {a b} hab := by
    obtain rfl : a = b := hab
    rw [h.frame.classSites]

omit h in
/-- Programs that resemble each other have the same document, if the same declarations are visited. -/
theorem document_eq {program₁ program₂ : Program} (h : Resembles program₁.index program₂.index)
    (hfiles : List.Forall₂ (fun first second => first.path = second.path ∧
      AlikeViews first.declarations second.declarations) program₁.files program₂.files)
    (mode : SchemaMode) : program₁.document mode = program₂.document mode := by
  refine (h.restates.document_alike (P := Eq) mode (hfiles.imp ?_) ?_).eq
  · rintro first second ⟨hpath, hviews⟩
    refine ⟨hpath, ?_⟩
    rw [← hviews.visited]
    exact Counterparts.Reflexive.flatMap_visited_like ⟨fun _ => rfl, fun _ => rfl, fun _ => rfl⟩ _
  · intro files hpair declarations hdeclarations signature hsignature signature' hsignature'
    obtain ⟨-, hviews⟩ := List.forall₂_zip hfiles hpair
    rw [← hviews.visited] at hdeclarations
    have heq : declarations.1 = declarations.2 :=
      List.forall₂_zip (List.forall₂_same.2 fun _ _ => rfl) hdeclarations
    rw [Option.mem_def, ← heq, Option.mem_def.1 hsignature] at hsignature'
    exact .inl (congrArg _ (Option.some.inj hsignature'))

end Resembles

end Index

end ComponentSchema
