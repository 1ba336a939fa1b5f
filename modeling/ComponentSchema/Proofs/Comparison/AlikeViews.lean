import ComponentSchema.Proofs.Comparison.CounterpartViews

/-!
# Views in which the same is looked at

Of the view of a function, classification and extraction look at little: which annotation stands for what
it returns, or else which function it is, and the annotation of its first parameter. Classification also
looks at how the return annotation reads, which is compared apart (`Program.ReadsAlike`). Of a namespace
those declarations only are seen that are visited.

Results.
* `SameSignature.like`, `SameViews.visited`: views that document the same are alike in these respects.
-/
namespace ComponentSchema

open Syntax

namespace Counterparts

variable (c : Counterparts)

/-- Two functions in which the same is looked at, but for how their return annotations read. -/
structure LikeSignature (first second : FunctionLike) : Prop where
  id : first.returnType = none → c.function first.id second.id
  returned : Option.Rel (fun node node' => c.node node.id node'.id) first.returnType second.returnType
  props : Option.Rel (fun node node' => c.node node.id node'.id) first.propsNode? second.propsNode?

/-- Two views of the same candidate. -/
structure LikeCandidate (first second : Candidate) : Prop where
  name : first.name = second.name
  props : Option.Rel (fun node node' => c.node node.id node'.id) first.props second.props

/-- Two declarations that are visited alike. -/
inductive LikeView : Declaration → Declaration → Prop
  | value {declaration declaration' : Declaration} :
    declaration.isValue = true → declaration'.isValue = true →
      Option.Rel c.LikeSignature declaration.signature? declaration'.signature? →
        declaration.publicName = declaration'.publicName → LikeView declaration declaration'
  | classDecl {id id' : ClassId} {name : Option String} {exported : Bool} :
    c.classSite id id' → LikeView (.classDecl ⟨id, name, exported⟩) (.classDecl ⟨id', name, exported⟩)

/-- Two files whose declarations are visited alike, under paths for which `P` holds. -/
structure LikeFileView (P : String → String → Prop) (first second : SourceFile) : Prop where
  path : P first.path second.path
  declarations : List.Forall₂ c.LikeView (first.declarations.flatMap Declaration.visited)
    (second.declarations.flatMap Declaration.visited)

variable {c} {c' : Counterparts}

theorem LikeSignature.mono (hc : c.Within c') {first second : FunctionLike}
    (h : c.LikeSignature first second) : c'.LikeSignature first second :=
  ⟨fun hnone => hc.function (h.id hnone), rel_mono (fun _ _ => hc.node) h.returned,
    rel_mono (fun _ _ => hc.node) h.props⟩

theorem LikeView.mono (hc : c.Within c') {first second : Declaration} (h : c.LikeView first second) :
    c'.LikeView first second := by
  cases h with
  | value hfirst hsecond hsignature hname =>
    exact .value hfirst hsecond (rel_mono (fun _ _ => .mono hc) hsignature) hname
  | classDecl hid => exact .classDecl (hc.classSite hid)

theorem SameTyping.like {node node' : Option TypeNode} (h : c.SameTyping node node') :
    Option.Rel (fun node node' => c.node node.id node'.id) node node' := by
  cases h with
  | none => exact .none
  | some hnode =>
    obtain ⟨hid, -⟩ := hnode
    exact .some hid

theorem SameSignature.like {signature signature' : FunctionLike}
    (h : c.SameSignature signature signature') : c.LikeSignature signature signature' := by
  have hprops := h.propsNode?
  obtain ⟨hid, -, hreturn⟩ := h
  exact ⟨hid, hreturn.like, hprops.like⟩

mutual

theorem SameView.visited_like : ∀ {declaration declaration' : Declaration},
    c.SameView declaration declaration' →
      List.Forall₂ c.LikeView declaration.visited declaration'.visited
  | _, _, .value hfirst hsecond hsignature hname _ => by
    rw [Declaration.visited_of_isValue hfirst, Declaration.visited_of_isValue hsecond]
    exact .cons (.value hfirst hsecond (rel_mono (fun _ _ h => h.like) hsignature) hname) .nil
  | _, _, .namespaceDecl hbody => hbody.visitedIn_like
  | _, _, .classDecl hid => .cons (.classDecl hid) .nil

theorem SameViews.visitedIn_like : ∀ {body body' : List Declaration}, c.SameViews body body' →
    List.Forall₂ c.LikeView (Declaration.visitedIn body) (Declaration.visitedIn body')
  | _, _, .nil => .nil
  | _, _, .cons hfirst hrest => by
    rw [Declaration.visitedIn, Declaration.visitedIn, hfirst.exported]
    refine List.rel_append ?_ hrest.visitedIn_like
    split
    · exact hfirst.visited_like
    · exact .nil

end

/-- Views that document the same are visited alike. -/
theorem SameFileView.like {P : String → String → Prop} {first second : SourceFile}
    (h : c.SameFileView P first second) : c.LikeFileView P first second := by
  refine ⟨h.path, ?_⟩
  have hviews := h.declarations.forall₂
  generalize first.declarations = views at hviews
  generalize second.declarations = views' at hviews
  exact List.rel_flatMap hviews fun _ _ hview => hview.visited_like

end Counterparts

end ComponentSchema
