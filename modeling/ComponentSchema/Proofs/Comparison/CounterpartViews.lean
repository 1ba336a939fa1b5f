import ComponentSchema.Document
import ComponentSchema.Proofs.Comparison.Counterparts

/-!
# Views that document the same

Two views of what is made from the same source differ in ids only. Views of a component may also be
written in different forms: what counts is the name that is published, and the signature.

Results.
* `SameView.mono` and its like: what is the same stays so when there are more counterparts.
* `SameView.signature?`, `SameView.publicName`: what classification looks at is the same.
* `SameViews.flatMap_visited`: the same declarations are visited.
-/
namespace ComponentSchema

open Syntax

/-- Whether a declaration is a function or a variable. -/
def Declaration.isValue : Declaration → Bool
  | .funDecl _ | .varDecl _ => true
  | .namespaceDecl .. | .classDecl _ => false

theorem Declaration.visited_of_isValue {declaration : Declaration} (h : declaration.isValue = true) :
    declaration.visited = [declaration] := by
  cases declaration with
  | funDecl | varDecl => rfl
  | namespaceDecl | classDecl => cases h

theorem TypeFacts.visit_of_isValue {m : Type → Type} [Monad m] {facts : TypeFacts m}
    {mode : SchemaMode} {path : String} {traversal : Traversal} {declaration : Declaration}
    (h : declaration.isValue = true) : facts.visit mode path traversal declaration =
      facts.visitCandidate mode declaration traversal := by
  cases declaration with
  | funDecl | varDecl => rfl
  | namespaceDecl | classDecl => cases h

namespace Counterparts

variable (c : Counterparts)

mutual

/-- Two views of the same annotation. -/
inductive SameNode : TypeNode → TypeNode → Prop
  | mk {id id' : NodeId} {shape shape' : TypeShape} :
    c.node id id' → SameShape shape shape' → SameNode ⟨id, shape⟩ ⟨id', shape'⟩

inductive SameShape : TypeShape → TypeShape → Prop
  | reference {name : EntityName} : SameShape (.reference name) (.reference name)
  | function {signature signature' : FunctionLike} :
    SameSignature signature signature' → SameShape (.function signature) (.function signature')
  | other : SameShape .other .other

/-- Two views of the same function. What it returns by its body does not matter if it is annotated. -/
inductive SameSignature : FunctionLike → FunctionLike → Prop
  | mk {id id' : FunctionId} {parameters parameters' : List Parameter}
    {returnType returnType' : Option TypeNode} :
    (returnType = none → c.function id id') → SameParameters parameters parameters' →
      SameTyping returnType returnType' →
        SameSignature ⟨id, parameters, returnType⟩ ⟨id', parameters', returnType'⟩

inductive SameTyping : Option TypeNode → Option TypeNode → Prop
  | none : SameTyping none none
  | some {node node' : TypeNode} : SameNode node node' → SameTyping (some node) (some node')

inductive SameParameters : List Parameter → List Parameter → Prop
  | nil : SameParameters [] []
  | cons {name : String} {node node' : Option TypeNode} {rest rest' : List Parameter} :
    SameTyping node node' → SameParameters rest rest' →
      SameParameters (⟨name, node⟩ :: rest) (⟨name, node'⟩ :: rest')

end

/-- Two views of the same initializer. -/
inductive SameInitializer : Option Initializer → Option Initializer → Prop
  | none : SameInitializer none none
  | value : SameInitializer (some .value) (some .value)
  | function {signature signature' : FunctionLike} :
    c.SameSignature signature signature' →
      SameInitializer (some (.function signature)) (some (.function signature'))

mutual

/-- Two views that document the same: a component or none, a class, or a namespace of such views. -/
inductive SameView : Declaration → Declaration → Prop
  | value {declaration declaration' : Declaration} :
    declaration.isValue = true → declaration'.isValue = true →
      Option.Rel c.SameSignature declaration.signature? declaration'.signature? →
        declaration.publicName = declaration'.publicName →
          declaration.exported = declaration'.exported → SameView declaration declaration'
  | namespaceDecl {name : String} {exported : Bool} {body body' : List Declaration} :
    SameViews body body' → SameView (.namespaceDecl name exported body)
      (.namespaceDecl name exported body')
  | classDecl {id id' : ClassId} {name : Option String} {exported : Bool} :
    c.classSite id id' → SameView (.classDecl ⟨id, name, exported⟩) (.classDecl ⟨id', name, exported⟩)

inductive SameViews : List Declaration → List Declaration → Prop
  | nil : SameViews [] []
  | cons {first first' : Declaration} {rest rest' : List Declaration} :
    SameView first first' → SameViews rest rest' → SameViews (first :: rest) (first' :: rest')

end

section

variable {c} {c' : Counterparts}

mutual

theorem SameNode.mono (hc : c.Within c') : ∀ {node node' : TypeNode}, c.SameNode node node' →
    c'.SameNode node node'
  | _, _, .mk hid hshape => .mk (hc.node hid) (hshape.mono hc)

theorem SameShape.mono (hc : c.Within c') : ∀ {shape shape' : TypeShape}, c.SameShape shape shape' →
    c'.SameShape shape shape'
  | _, _, .reference => .reference
  | _, _, .function hsignature => .function (hsignature.mono hc)
  | _, _, .other => .other

theorem SameSignature.mono (hc : c.Within c') : ∀ {signature signature' : FunctionLike},
    c.SameSignature signature signature' → c'.SameSignature signature signature'
  | _, _, .mk hid hparameters hreturn =>
    .mk (fun hnone => hc.function (hid hnone)) (hparameters.mono hc) (hreturn.mono hc)

theorem SameTyping.mono (hc : c.Within c') : ∀ {node node' : Option TypeNode},
    c.SameTyping node node' → c'.SameTyping node node'
  | _, _, .none => .none
  | _, _, .some hnode => .some (hnode.mono hc)

theorem SameParameters.mono (hc : c.Within c') : ∀ {parameters parameters' : List Parameter},
    c.SameParameters parameters parameters' → c'.SameParameters parameters parameters'
  | _, _, .nil => .nil
  | _, _, .cons hnode hrest => .cons (hnode.mono hc) (hrest.mono hc)

end

mutual

theorem SameView.mono (hc : c.Within c') : ∀ {view view' : Declaration}, c.SameView view view' →
    c'.SameView view view'
  | _, _, .value hfirst hsecond hsignature hname hexported =>
    .value hfirst hsecond (rel_mono (fun _ _ h => h.mono hc) hsignature) hname hexported
  | _, _, .namespaceDecl hbody => .namespaceDecl (hbody.mono hc)
  | _, _, .classDecl hid => .classDecl (hc.classSite hid)

theorem SameViews.mono (hc : c.Within c') : ∀ {views views' : List Declaration},
    c.SameViews views views' → c'.SameViews views views'
  | _, _, .nil => .nil
  | _, _, .cons hfirst hrest => .cons (hfirst.mono hc) (hrest.mono hc)

end

theorem SameViews.append {views views' others others' : List Declaration}
    (h : c.SameViews views views') (hothers : c.SameViews others others') :
    c.SameViews (views ++ others) (views' ++ others') := by
  induction views generalizing views' with
  | nil =>
    cases h
    exact hothers
  | cons first rest ih =>
    cases h with
    | cons hfirst hrest => exact .cons hfirst (ih hrest)

end

section

variable {c}

theorem SameTyping.function? {node node' : Option TypeNode} (h : c.SameTyping node node') :
    Option.Rel c.SameSignature (node.bind TypeNode.function?) (node'.bind TypeNode.function?) := by
  cases h with
  | none => exact .none
  | some hnode =>
    obtain ⟨-, hshape⟩ := hnode
    cases hshape with
    | reference | other => exact .none
    | function hsignature => exact .some hsignature

theorem SameView.funDecl {name exportAlias : Option String} {exported : Bool}
    {signature signature' : FunctionLike} (h : c.SameSignature signature signature') :
    c.SameView (.funDecl ⟨name, exportAlias, exported, signature⟩)
      (.funDecl ⟨name, exportAlias, exported, signature'⟩) :=
  .value rfl rfl (.some h) rfl rfl

theorem SameView.varDecl {name : String} {exportAlias : Option String} {exported : Bool}
    {value value' : Option Initializer} {node node' : Option TypeNode}
    (hvalue : c.SameInitializer value value') (hnode : c.SameTyping node node') :
    c.SameView (.varDecl ⟨name, exportAlias, exported, value, node⟩)
      (.varDecl ⟨name, exportAlias, exported, value', node'⟩) := by
  refine .value rfl rfl ?_ rfl rfl
  cases hvalue with
  | none => exact hnode.function?
  | value => exact .none
  | function hsignature => exact .some hsignature

end

/-- Two files with views that document the same, under paths for which `P` holds. -/
structure SameFileView (P : String → String → Prop) (first second : SourceFile) : Prop where
  path : P first.path second.path
  declarations : c.SameViews first.declarations second.declarations

/-! ## What is looked at -/

/-- Two views of the same candidate. -/
structure SameCandidate (first second : Candidate) : Prop where
  name : first.name = second.name
  props : c.SameTyping first.props second.props

section

variable {c} {signature signature' : FunctionLike} {declaration declaration' : Declaration}

theorem SameSignature.annotatedJsxElement (h : c.SameSignature signature signature') :
    signature.annotatedJsxElement = signature'.annotatedJsxElement := by
  obtain ⟨-, -, hreturn⟩ := h
  cases hreturn with
  | none => rfl
  | some hnode =>
    obtain ⟨-, hshape⟩ := hnode
    cases hshape with
    | @reference name => rcases name with _ | ⟨_ | _, _⟩ <;> rfl
    | function | other => rfl

theorem SameSignature.propsNode? (h : c.SameSignature signature signature') :
    c.SameTyping signature.propsNode? signature'.propsNode? := by
  obtain ⟨-, hparameters, -⟩ := h
  cases hparameters with
  | nil => exact .none
  | cons hnode _ => exact hnode

theorem SameView.signature? (h : c.SameView declaration declaration') :
    Option.Rel c.SameSignature declaration.signature? declaration'.signature? := by
  cases h with
  | value _ _ hsignature => exact hsignature
  | namespaceDecl | classDecl => exact .none

theorem SameView.publicName (h : c.SameView declaration declaration') :
    declaration.publicName = declaration'.publicName := by
  cases h with
  | value _ _ _ hname => exact hname
  | namespaceDecl | classDecl => rfl

theorem SameView.exported (h : c.SameView declaration declaration') :
    declaration.exported = declaration'.exported := by
  cases h with
  | value _ _ _ _ hexported => exact hexported
  | namespaceDecl | classDecl => rfl

mutual

theorem SameView.visited : ∀ {declaration declaration' : Declaration},
    c.SameView declaration declaration' → c.SameViews declaration.visited declaration'.visited
  | _, _, .value hfirst hsecond hsignature hname hexported => by
    rw [Declaration.visited_of_isValue hfirst, Declaration.visited_of_isValue hsecond]
    exact .cons (.value hfirst hsecond hsignature hname hexported) .nil
  | _, _, .namespaceDecl hbody => hbody.visitedIn
  | _, _, .classDecl hid => .cons (.classDecl hid) .nil

theorem SameViews.visitedIn : ∀ {body body' : List Declaration}, c.SameViews body body' →
    c.SameViews (Declaration.visitedIn body) (Declaration.visitedIn body')
  | _, _, .nil => .nil
  | _, _, .cons hfirst hrest => by
    rw [Declaration.visitedIn, Declaration.visitedIn, hfirst.exported]
    refine .append ?_ hrest.visitedIn
    split
    · exact hfirst.visited
    · exact .nil

end

theorem SameViews.forall₂ {views views' : List Declaration} (h : c.SameViews views views') :
    List.Forall₂ c.SameView views views' := by
  induction views generalizing views' with
  | nil =>
    cases h
    exact .nil
  | cons first rest ih =>
    cases h with
    | cons hfirst hrest => exact .cons hfirst (ih hrest)

theorem SameViews.flatMap_visited {views views' : List Declaration} (h : c.SameViews views views') :
    c.SameViews (views.flatMap Declaration.visited) (views'.flatMap Declaration.visited) := by
  induction views generalizing views' with
  | nil =>
    cases h
    exact .nil
  | cons first rest ih =>
    cases h with
    | cons hfirst hrest =>
      rw [List.flatMap_cons, List.flatMap_cons]
      exact hfirst.visited.append (ih hrest)

end

end Counterparts

end ComponentSchema
