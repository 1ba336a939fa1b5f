import ComponentSchema.Proofs.Rewriting.RegroupedBinding
import ComponentSchema.Proofs.Rewriting.RewrittenFiles

/-!
# Redundant parentheses

It does not matter which types of a program stand in redundant parentheses, at any depth, but for the
places that look at the syntax of a type. The explicit check of a component is about a return annotation
that reads `JSX.Element`, and so `(JSX.Element)` fails it; that matters where the annotation does not
denote an element. A class is documented with the texts of the parameters of its constructors. And nothing
is said about parentheses that decide whether a part of a union reads `null` or `undefined`, if in either
spelling a single part does not (`TypeExpr.Regrouped`), and about those around a function type that
annotates a variable (`TypeExpr.SameCallee`).

Hypothesis. `Program.ReadsAlike`: if a return annotation reads `JSX.Element` in one spelling only, it
denotes an element.

Results.
* `act_regroups`, `bindBody_regroups`: what was regrouped is bound side by side, at any depth.
* `constructSignatures_regrouped`: a class is documented as before.
* `documentFiles_regrouped`: programs that are the same but for parentheses have the same document.
-/
namespace ComponentSchema

open Syntax

/-! ## Declarations -/

/-- Two declarators in which types were regrouped. Of a value only the function is looked at. -/
inductive Syntax.Declarator.Regrouped : Declarator → Declarator → Prop
  | untyped (name : Option String) : Regrouped ⟨name, none, none⟩ ⟨name, none, none⟩
  | typed (name : Option String) {type type' : TypeExpr} : type.SameCallee type' →
    Regrouped ⟨name, some type, none⟩ ⟨name, some type', none⟩
  | initialized (name : Option String) {type type' : Option TypeExpr} {value value' : Expr} :
    RegroupedAnnotation type type' → Option.Rel Function.Regrouped value.function? value'.function? →
      Regrouped ⟨name, type, some value⟩ ⟨name, type', some value'⟩

/-- Two constructors that are documented alike: the texts of their parameters are the same. -/
def Syntax.Function.SameTexts (first second : Function) : Prop :=
  List.Forall₂ (fun parameter parameter' : Syntax.Parameter =>
    parameter.name = parameter'.name ∧ parameter.typeText = parameter'.typeText)
      first.parameters second.parameters

/-- Two classes whose signatures have the same comments before them and the same texts. The other members,
and constructors that are no signatures, are not looked at. -/
def Syntax.RegroupedClass (members members' : List ClassMember) : Prop :=
  List.Forall₂ (fun first second => first.1 = second.1 ∧ first.2.SameTexts second.2)
    (signatureConstructors members) (signatureConstructors members')

mutual

/-- Two declarations in which types were regrouped. -/
inductive Syntax.Decl.Regrouped : Decl → Decl → Prop
  | function (name : String) {definition definition' : Function} : definition.Regrouped definition' →
    Decl.Regrouped (.function name definition) (.function name definition')
  | variables {declarators declarators' : List Declarator} :
    List.Forall₂ Declarator.Regrouped declarators declarators' →
      Decl.Regrouped (.variables declarators) (.variables declarators')
  | classDecl (name : String) {members members' : List ClassMember} : RegroupedClass members members' →
    Decl.Regrouped (.classDecl name members) (.classDecl name members')
  | interface (name : String) {members members' : List TypeMember} : RegroupedMembers members members' →
    Decl.Regrouped (.interface name members) (.interface name members')
  | typeAlias (name : String) {type type' : TypeExpr} : type.Regrouped type' →
    Decl.Regrouped (.typeAlias name type) (.typeAlias name type')
  | enum (name : String) : Decl.Regrouped (.enum name) (.enum name)
  | namespaceDecl (name : NamespaceName) {body body' : NamespaceBody} : NamespaceBody.Regrouped body body' →
    Decl.Regrouped (.namespaceDecl name body) (.namespaceDecl name body')
  | other : Decl.Regrouped .other .other

inductive Syntax.NamespaceBody.Regrouped : NamespaceBody → NamespaceBody → Prop
  | absent : NamespaceBody.Regrouped .absent .absent
  | nested (name : String) {body body' : NamespaceBody} : NamespaceBody.Regrouped body body' →
    NamespaceBody.Regrouped (.nested name body) (.nested name body')
  | items {items items' : List Item} : RegroupedItems items items' →
    NamespaceBody.Regrouped (.items items) (.items items')

inductive Syntax.RegroupedItems : List Item → List Item → Prop
  | nil : RegroupedItems [] []
  | cons {item item' : Item} {rest rest' : List Item} : Item.Regrouped item item' →
    RegroupedItems rest rest' → RegroupedItems (item :: rest) (item' :: rest')

/-- Two items in which types were regrouped; statements are not looked at. -/
inductive Syntax.Item.Regrouped : Item → Item → Prop
  | statement (leading : List Comment) (statement statement' : Stmt) :
    Item.Regrouped ⟨leading, .statement statement⟩ ⟨leading, .statement statement'⟩
  | declaration (leading : List Comment) {decl decl' : Decl} : Decl.Regrouped decl decl' →
    Item.Regrouped ⟨leading, .declaration decl⟩ ⟨leading, .declaration decl'⟩
  | exportDecl (leading : List Comment) {decl decl' : Decl} : Decl.Regrouped decl decl' →
    Item.Regrouped ⟨leading, .exportDecl decl⟩ ⟨leading, .exportDecl decl'⟩
  | exportDefaultFunction (leading : List Comment) (name : Option String)
    {definition definition' : Function} : definition.Regrouped definition' →
      Item.Regrouped ⟨leading, .exportDefaultFunction name definition⟩
        ⟨leading, .exportDefaultFunction name definition'⟩
  | exportDefaultClass (leading : List Comment) (name : Option String)
    {members members' : List ClassMember} : RegroupedClass members members' →
      Item.Regrouped ⟨leading, .exportDefaultClass name members⟩
        ⟨leading, .exportDefaultClass name members'⟩
  | exportDefaultInterface (leading : List Comment) (name : String) {members members' : List TypeMember} :
    RegroupedMembers members members' → Item.Regrouped ⟨leading, .exportDefaultInterface name members⟩
      ⟨leading, .exportDefaultInterface name members'⟩
  | exportDefaultExpr (leading : List Comment) {value value' : Expr} : value.Regrouped value' →
    Item.Regrouped ⟨leading, .exportDefaultExpr value⟩ ⟨leading, .exportDefaultExpr value'⟩
  | imports (leading : List Comment) (source : StringLiteral) (specifiers : List ImportSpecifier) :
    Item.Regrouped ⟨leading, .imports source specifiers⟩ ⟨leading, .imports source specifiers⟩
  | exportNamed (leading : List Comment) (source : Option StringLiteral)
    (specifiers : List ExportSpecifier) :
    Item.Regrouped ⟨leading, .exportNamed source specifiers⟩ ⟨leading, .exportNamed source specifiers⟩
  | exportAll (leading : List Comment) (source : StringLiteral) :
    Item.Regrouped ⟨leading, .exportAll source⟩ ⟨leading, .exportAll source⟩
  | otherModule (leading : List Comment) :
    Item.Regrouped ⟨leading, .otherModule⟩ ⟨leading, .otherModule⟩

end

/-- Two files in which types were regrouped. -/
def Syntax.SourceTree.Regrouped (first second : SourceTree) : Prop :=
  RegroupedItems first.items second.items

theorem Syntax.Declarator.regrouped_refl (declarator : Declarator) : declarator.Regrouped declarator := by
  obtain ⟨name, type, value⟩ := declarator
  cases value with
  | none =>
    cases type with
    | none => exact .untyped name
    | some type => exact .typed name type.sameCallee_refl
  | some value =>
    refine .initialized name (.refl type) ?_
    cases value.function? with
    | none => exact .none
    | some definition => exact .some definition.regrouped_refl

theorem Syntax.regroupedClass_refl (members : List ClassMember) : RegroupedClass members members :=
  List.forall₂_same.2 fun _ _ => ⟨rfl, List.forall₂_same.2 fun _ _ => ⟨rfl, rfl⟩⟩

mutual

theorem Syntax.Decl.regrouped_refl : ∀ decl : Decl, decl.Regrouped decl
  | .function name definition => .function name definition.regrouped_refl
  | .variables _ => .variables (List.forall₂_same.2 fun declarator _ => declarator.regrouped_refl)
  | .classDecl name members => .classDecl name (regroupedClass_refl members)
  | .interface name members => .interface name (regroupedMembers_refl members)
  | .typeAlias name type => .typeAlias name type.regrouped_refl
  | .enum name => .enum name
  | .namespaceDecl name body => .namespaceDecl name body.regrouped_refl
  | .other => .other

theorem Syntax.NamespaceBody.regrouped_refl : ∀ body : NamespaceBody, body.Regrouped body
  | .absent => .absent
  | .nested name body => .nested name body.regrouped_refl
  | .items items => .items (regroupedItems_refl items)

theorem Syntax.regroupedItems_refl : ∀ items : List Item, RegroupedItems items items
  | [] => .nil
  | item :: rest => .cons item.regrouped_refl (regroupedItems_refl rest)

theorem Syntax.Item.regrouped_refl : ∀ item : Item, item.Regrouped item
  | ⟨leading, .statement _⟩ => .statement leading _ _
  | ⟨leading, .declaration decl⟩ => .declaration leading decl.regrouped_refl
  | ⟨leading, .exportDecl decl⟩ => .exportDecl leading decl.regrouped_refl
  | ⟨leading, .exportDefaultFunction name definition⟩ =>
    .exportDefaultFunction leading name definition.regrouped_refl
  | ⟨leading, .exportDefaultClass name members⟩ =>
    .exportDefaultClass leading name (regroupedClass_refl members)
  | ⟨leading, .exportDefaultInterface name members⟩ =>
    .exportDefaultInterface leading name (regroupedMembers_refl members)
  | ⟨leading, .exportDefaultExpr value⟩ => .exportDefaultExpr leading value.regrouped_refl
  | ⟨leading, .imports source specifiers⟩ => .imports leading source specifiers
  | ⟨leading, .exportNamed source specifiers⟩ => .exportNamed leading source specifiers
  | ⟨leading, .exportAll source⟩ => .exportAll leading source
  | ⟨leading, .otherModule⟩ => .otherModule leading

end

/-- What does not depend on types is the same for every item. -/
theorem Syntax.RegroupedItems.map_eq {α : Type} {f : Item → α}
    (h : ∀ {item item' : Item}, item.Regrouped item' → f item = f item') :
    ∀ {items items' : List Item}, RegroupedItems items items' → items.map f = items'.map f
  | _, _, .nil => rfl
  | _, _, .cons hitem hrest => by rw [List.map_cons, List.map_cons, h hitem, RegroupedItems.map_eq h hrest]

theorem Syntax.SourceTree.Regrouped.specifiers {first second : SourceTree} (h : first.Regrouped second) :
    first.specifiers = second.specifiers :=
  specifiers_congr (RegroupedItems.map_eq (fun hitem => by cases hitem <;> rfl) h)

theorem Syntax.SourceTree.Regrouped.isScript {first second : SourceTree} (h : first.Regrouped second) :
    first.isScript = second.isScript :=
  isScript_congr (RegroupedItems.map_eq (fun hitem => by cases hitem <;> rfl) h)

/-! ## Classes -/

theorem mapIdx_eq_of_forall₂ {α β γ : Type} {R : α → β → Prop} {items : List α} {items' : List β}
    (h : List.Forall₂ R items items') {f : Nat → α → γ} {g : Nat → β → γ}
    (hfg : ∀ i item item', R item item' → f i item = g i item') : items.mapIdx f = items'.mapIdx g := by
  induction h generalizing f g with
  | nil => rfl
  | cons hfirst _ ih =>
    rw [List.mapIdx_cons, List.mapIdx_cons, hfg 0 _ _ hfirst, ih fun i => hfg (i + 1)]

theorem Syntax.Function.SameTexts.constructorDoc {definition definition' : Function}
    (h : definition.SameTexts definition') (name : String) (leading : List Comment) :
    ComponentSchema.constructorDoc name leading definition =
      ComponentSchema.constructorDoc name leading definition' := by
  have hdocs := mapIdx_eq_of_forall₂ h
    (f := fun i parameter => parameter.symbolDoc (DocComment.ofComments leading) i)
    (g := fun i parameter => parameter.symbolDoc (DocComment.ofComments leading) i) ?_
  · rw [ComponentSchema.constructorDoc, ComponentSchema.constructorDoc, hdocs]
  · rintro i parameter parameter' ⟨hname, htext⟩
    simp only [Syntax.Parameter.symbolDoc, Syntax.Parameter.nameAt, hname, htext]

theorem constructSignatures_regrouped (name : String) {members members' : List ClassMember}
    (h : RegroupedClass members members') :
    constructSignatures name members = constructSignatures name members' := by
  unfold RegroupedClass at h
  unfold constructSignatures
  generalize signatureConstructors members = declared at h
  generalize signatureConstructors members' = declared' at h
  cases h with
  | nil => rfl
  | @cons first second rest rest' hfirst hrest =>
    show (first :: rest).map _ = (second :: rest').map _
    rw [← List.forall₂_eq_eq_eq]
    refine List.rel_map ?_ (List.Forall₂.cons hfirst hrest)
    rintro ⟨leading, definition⟩ ⟨_, definition'⟩ ⟨rfl, htexts⟩
    exact htexts.constructorDoc name leading

/-! ## Views -/

/-- Two views in which the same is visited. -/
structure Counterparts.LikeVisit (c : Counterparts) (first second : Declaration) : Prop where
  exported : first.exported = second.exported
  visited : List.Forall₂ c.LikeView first.visited second.visited

/-- Views of several declarations, in which the same is visited. -/
abbrev Counterparts.LikeVisits (c : Counterparts) (views views' : List Declaration) : Prop :=
  List.Forall₂ c.LikeVisit views views'

/-- Two initializers in which the same is looked at. -/
inductive Counterparts.LikeInitializer (c : Counterparts) : Initializer → Initializer → Prop
  | function {signature signature' : FunctionLike} : c.LikeSignature signature signature' →
    LikeInitializer c (.function signature) (.function signature')
  | value : LikeInitializer c .value .value

namespace Counterparts

variable {c c' : Counterparts} {views views' : List Declaration}

theorem LikeVisit.value {declaration declaration' : Declaration}
    (hexported : declaration.exported = declaration'.exported) (hfirst : declaration.isValue = true)
    (hsecond : declaration'.isValue = true)
    (hsignature : Option.Rel c.LikeSignature declaration.signature? declaration'.signature?)
    (hname : declaration.publicName = declaration'.publicName) : c.LikeVisit declaration declaration' := by
  refine ⟨hexported, ?_⟩
  rw [Declaration.visited_of_isValue hfirst, Declaration.visited_of_isValue hsecond]
  exact .cons (.value hfirst hsecond hsignature hname) .nil

/-- Two variables with initializers. -/
theorem LikeVisit.varDecl {name : String} {exportAlias : Option String} {exported : Bool}
    {view view' : Initializer} {node node' : Option TypeNode} (h : c.LikeInitializer view view') :
    c.LikeVisit (.varDecl ⟨name, exportAlias, exported, some view, node⟩)
      (.varDecl ⟨name, exportAlias, exported, some view', node'⟩) := by
  refine .value rfl rfl rfl ?_ rfl
  cases h with
  | function hsignature => exact .some hsignature
  | value => exact .none

theorem LikeVisits.mono (hc : c.Within c') (h : c.LikeVisits views views') : c'.LikeVisits views views' :=
  h.imp fun _ _ hvisit => ⟨hvisit.exported, hvisit.visited.imp fun _ _ => .mono hc⟩

theorem LikeVisits.visitedIn (h : c.LikeVisits views views') :
    List.Forall₂ c.LikeView (Declaration.visitedIn views) (Declaration.visitedIn views') := by
  induction h with
  | nil => exact .nil
  | cons hfirst _ ih =>
    rw [Declaration.visitedIn, Declaration.visitedIn, hfirst.exported]
    refine List.rel_append ?_ ih
    split
    · exact hfirst.visited
    · exact .nil

theorem LikeVisits.namespaceDecl (h : c.LikeVisits views views') (name : String) (exported : Bool) :
    c.LikeVisits [.namespaceDecl name exported views] [.namespaceDecl name exported views'] :=
  .cons ⟨rfl, h.visitedIn⟩ .nil

end Counterparts

/-! ## Acts -/

open Binding (Act)

/-- Two acts in which types were regrouped. -/
inductive Binding.Act.Regrouped : Act → Act → Prop
  | function (name exportAlias : Option String) (exported : Bool) {definition definition' : Function} :
    definition.Regrouped definition' →
      Act.Regrouped (.function name exportAlias exported definition)
        (.function name exportAlias exported definition')
  | declarator (aliases : List (String × String)) (exported : Bool) {written written' : Declarator} :
    written.Regrouped written' →
      Act.Regrouped (.declarator aliases exported written) (.declarator aliases exported written')
  | classView (name : Option String) {members members' : List ClassMember} (exported : Bool)
    (leading : List Comment) : RegroupedClass members members' →
      Act.Regrouped (.classView name members exported leading) (.classView name members' exported leading)
  | nominal (name : String) (exported : Bool) : Act.Regrouped (.nominal name exported) (.nominal name exported)
  | typeAlias (name : String) {type type' : TypeExpr} (exported : Bool) : type.Regrouped type' →
    Act.Regrouped (.typeAlias name type exported) (.typeAlias name type' exported)
  | interface (name : String) {members members' : List TypeMember} (exported : Bool) :
    RegroupedMembers members members' →
      Act.Regrouped (.interface name members exported) (.interface name members' exported)
  | exportDefault (name : String) : Act.Regrouped (.exportDefault name) (.exportDefault name)
  | imports (source : StringLiteral) (specifiers : List ImportSpecifier) :
    Act.Regrouped (.imports source specifiers) (.imports source specifiers)
  | clause {item item' : Item} : item.Regrouped item' → Act.Regrouped (.clause item.kind) (.clause item'.kind)

theorem Syntax.Decl.Regrouped.acts {decl decl' : Decl} (h : decl.Regrouped decl')
    {aliases : List (String × String)} {exported : Bool} {leading : List Comment} {acts : List Act}
    (hacts : decl.acts? aliases exported leading = some acts) :
    ∃ acts', decl'.acts? aliases exported leading = some acts' ∧
      List.Forall₂ Act.Regrouped acts acts' := by
  cases h with
  | function name hdefinition =>
    cases hacts
    exact ⟨_, rfl, .cons (.function _ _ _ hdefinition) .nil⟩
  | «variables» hdeclarators =>
    cases hacts
    exact ⟨_, rfl, List.rel_map (fun _ _ => .declarator aliases exported) hdeclarators⟩
  | classDecl name hmembers =>
    cases hacts
    exact ⟨_, rfl, .cons (.nominal ..) (.cons (.classView _ _ _ hmembers) .nil)⟩
  | interface name hmembers =>
    cases hacts
    exact ⟨_, rfl, .cons (.interface _ _ hmembers) .nil⟩
  | typeAlias name htype =>
    cases hacts
    exact ⟨_, rfl, .cons (.typeAlias _ _ htype) .nil⟩
  | enum name =>
    cases hacts
    exact ⟨_, rfl, .cons (.nominal ..) .nil⟩
  | namespaceDecl => cases hacts
  | other =>
    cases hacts
    exact ⟨_, rfl, .nil⟩

theorem Syntax.Item.Regrouped.acts {item item' : Item} (h : item.Regrouped item')
    {acts : List Act} (hacts : item.acts? = some acts) :
    ∃ acts', item'.acts? = some acts' ∧ List.Forall₂ Act.Regrouped acts acts' := by
  cases h with
  | declaration | exportDecl => cases hacts
  | exportDefaultFunction leading name hdefinition =>
    cases hacts
    exact ⟨_, rfl, .cons (.function _ _ _ hdefinition) .nil⟩
  | exportDefaultClass leading name hmembers =>
    cases name with
    | none =>
      cases hacts
      exact ⟨_, rfl, .cons (.classView _ _ _ hmembers) .nil⟩
    | some name =>
      cases hacts
      exact ⟨_, rfl, .cons (.nominal ..) (.cons (.exportDefault _)
        (.cons (.classView _ _ _ hmembers) .nil))⟩
  | exportDefaultInterface leading name hmembers =>
    cases hacts
    exact ⟨_, rfl, .cons (.interface _ _ hmembers) (.cons (.exportDefault _) .nil)⟩
  | exportDefaultExpr leading hvalue =>
    cases hvalue with
    | identifier name =>
      cases hacts
      exact ⟨_, rfl, .cons (.exportDefault _) .nil⟩
    | _ =>
      cases hacts
      exact ⟨_, rfl, .nil⟩
  | imports leading source specifiers =>
    cases hacts
    exact ⟨_, rfl, .cons (.imports ..) .nil⟩
  | _ =>
    cases hacts
    exact ⟨_, rfl, .nil⟩

theorem Syntax.RegroupedItems.clauses : ∀ {items items' : List Item}, RegroupedItems items items' →
    List.Forall₂ Act.Regrouped (clauseActs items) (clauseActs items')
  | _, _, .nil => .nil
  | _, _, .cons hitem hrest => .cons (.clause hitem) hrest.clauses

/-! ## Binding -/

open Twins (Stage)

namespace Binding

open Index

variable {n : Stage} {index₁ index₂ : Index} {x : ScopeId}

theorem initializer_regroups (h : Regrouped n index₁ index₂) {value value' : Expr}
    (hvalue : Option.Rel Function.Regrouped value.function? value'.function?) :
    Regroups n index₁ index₂ (initializer x value) (initializer x value')
      fun n' => n'.counterparts.LikeInitializer := by
  unfold initializer
  rcases rel_cases hvalue with ⟨hx, hy⟩ | ⟨definition, definition', hx, hy, hdefinition⟩
  · rw [hx, hy]
    exact .done h .value
  · rw [hx, hy]
    exact (function_regroups h hdefinition).map fun _ _ _ hsignature => .function hsignature

theorem variableDecl_regroups (h : Regrouped n index₁ index₂) (exported : Bool)
    (aliases : List (String × String)) {declarator declarator' : Declarator}
    (hdeclarator : declarator.Regrouped declarator') : Regroups n index₁ index₂
      (variableDecl x exported aliases declarator) (variableDecl x exported aliases declarator')
      fun n' => Option.Rel n'.counterparts.LikeVisit := by
  cases hdeclarator with
  | untyped name =>
    cases name with
    | none => exact .done h .none
    | some => exact .done h (.some (.value rfl rfl rfl .none rfl))
  | typed name htype =>
    cases name with
    | none => exact .done h .none
    | some =>
      have hnode : Regroups n index₁ index₂ (maybeTypeNode x (some _)) (maybeTypeNode x (some _))
          fun n' node node' => Option.Rel n'.counterparts.LikeSignature (node.bind TypeNode.function?)
            (node'.bind TypeNode.function?) :=
        (typeNode_sameCallee h htype).map fun _ _ _ hcallee => hcallee
      exact hnode.bind fun _ _ _ _ _ _ h₁ hcallee => .done h₁ (.some (.value rfl rfl rfl hcallee rfl))
  | initialized name htype hvalue =>
    cases name with
    | none => exact .done h .none
    | some =>
      refine (maybeTypeNode_regroups h htype).bind fun _ _ _ _ _ _ h₁ _ => ?_
      have hinitialized : Regroups _ _ _ (some <$> initializer x _) (some <$> initializer x _)
          fun n' view view' => ∃ first second, view = some first ∧ view' = some second ∧
            n'.counterparts.LikeInitializer first second :=
        (initializer_regroups h₁ hvalue).map fun _ _ _ hview => ⟨_, _, rfl, rfl, hview⟩
      refine hinitialized.bind ?_
      rintro _ _ _ _ _ _ h₂ ⟨_, _, rfl, rfl, hview⟩
      exact .done h₂ (.some (.varDecl hview))

theorem classView_regroups (h : Regrouped n index₁ index₂) (name : Option String)
    {members members' : List ClassMember} (hmembers : RegroupedClass members members') (exported : Bool)
    (leading : List Comment) : Regroups n index₁ index₂ (classView name members exported leading)
      (classView name members' exported leading) fun n' => n'.counterparts.LikeVisit := by
  simp only [classView, constructSignatures_regrouped (name.getD defaultExportName) hmembers]
  refine ⟨n, .refl n, { h with classSites := congrArg (Array.push · _) h.classSites }, rfl, ?_⟩
  exact .cons (.classDecl (congrArg (fun sites => ClassId.mk (Array.size sites)) h.classSites)) .nil

section

variable {file file' : ModuleFile}

theorem bindImport_eq (hfile : ∀ source, file.dependency? source = file'.dependency? source) (x : ScopeId)
    (source : StringLiteral) (specifiers : List ImportSpecifier) :
    bindImport file x source specifiers = bindImport file' x source specifiers := by
  rw [bindImport, bindImport, hfile]

theorem bindExportClause_eq (hfile : ∀ source, file.dependency? source = file'.dependency? source)
    (x : ScopeId) {item item' : Item} (hitem : item.Regrouped item') :
    bindExportClause file x item.kind = bindExportClause file' x item'.kind := by
  cases hitem with
  | exportNamed leading source =>
    cases source with
    | none => rfl
    | some => rw [bindExportClause, bindExportClause, hfile]
  | exportAll => rw [bindExportClause, bindExportClause, hfile]
  | _ => rfl

theorem exportAliases_regrouped {items items' : List Item} (h : RegroupedItems items items') :
    exportAliases items = exportAliases items' := by
  have haliases := RegroupedItems.map_eq (f := fun item => item.kind.aliases)
    (fun hitem => by cases hitem <;> rfl) h
  rw [exportAliases, exportAliases, List.flatMap_def, List.flatMap_def, haliases]

theorem act_regroups (hfile : ∀ source, file.dependency? source = file'.dependency? source)
    (h : Regrouped n index₁ index₂) {act act' : Act} (hact : act.Regrouped act') :
    Regroups n index₁ index₂ (act.bind file x) (act'.bind file' x)
      fun n' => n'.counterparts.LikeVisits := by
  cases hact with
  | function _ _ _ hdefinition =>
    refine (function_regroups h hdefinition).bind fun _ _ _ _ _ _ h₁ hsignature => .done h₁ ?_
    exact .cons (.value rfl rfl rfl (.some hsignature) rfl) .nil
  | declarator aliases exported hwritten =>
    refine (variableDecl_regroups h exported aliases hwritten).bind
      fun _ _ _ _ _ _ h₁ hview => .done h₁ ?_
    cases hview with
    | none => exact .nil
    | some hview => exact .cons hview .nil
  | classView name exported leading hmembers =>
    exact (classView_regroups h name hmembers exported leading).bind
      fun _ _ _ _ _ _ h₁ hview => .done h₁ (.cons hview .nil)
  | nominal => exact (declare_regroups h .nominal).bind fun _ _ _ _ _ _ h₁ _ => .done h₁ .nil
  | typeAlias _ _ htype =>
    exact (declare_regroups h (.typeAlias htype)).bind fun _ _ _ _ _ _ h₁ _ => .done h₁ .nil
  | interface _ _ hmembers =>
    exact (declareInterface_regroups h hmembers).bind fun _ _ _ _ _ _ h₁ _ => .done h₁ .nil
  | exportDefault =>
    exact ((OnScopes.modifyScope x _).regroups h).bind fun _ _ _ _ _ _ h₁ _ => .done h₁ .nil
  | imports source specifiers =>
    simp only [Act.bind, ← bindImport_eq hfile]
    exact ((OnScopes.bindImport file x source specifiers).regroups h).bind
      fun _ _ _ _ _ _ h₁ _ => .done h₁ .nil
  | clause hitem =>
    simp only [Act.bind, ← bindExportClause_eq hfile x hitem]
    exact ((OnScopes.bindExportClause file x _).regroups h).bind
      fun _ _ _ _ _ _ h₁ _ => .done h₁ .nil

/-- What is bound in the same scope on both sides is visited alike. -/
def regrouping : Judgement where
  Account := Unit
  Holds x y step step' _ := x = y → ∀ {n index₁ index₂}, Regrouped n index₁ index₂ →
    Regroups n index₁ index₂ step step' fun n' => n'.counterparts.LikeVisits
  nothing := ()
  both _ _ := ()
  within _ _ _ := ()
  holds_nothing _ _ _ _ h := .done h .nil
  holds_both hfirst hsecond hxy _ _ _ h :=
    (hfirst hxy h).bind fun _ _ _ _ _ _ h₁ hviews => (hsecond hxy h₁).bind
      fun _ _ _ _ _ hn h₂ hothers => .done h₂ (List.rel_append (hviews.mono hn.within) hothers)
  holds_within {x _ name exported _ _ _} hinside hxy _ _ _ h := by
    subst hxy
    refine ((OnScopes.enter x exported name).regroups h).bind fun _ _ _ inner inner' _ h₁ heq => ?_
    exact (hinside inner inner' heq h₁).bind
      fun _ _ _ _ _ _ h₂ hviews => .done h₂ (hviews.namespaceDecl name.shown exported)

theorem acts_regroups (hfile : ∀ source, file.dependency? source = file'.dependency? source)
    {acts acts' : List Act} (h : List.Forall₂ Act.Regrouped acts acts') (x y : ScopeId) :
    regrouping.Holds x y (bindActs file x acts) (bindActs file' y acts') () := by
  induction h with
  | nil => exact regrouping.holds_nothing
  | @cons act act' _ _ hact _ ih =>
    have hfirst : regrouping.Holds x y (act.bind file x) (act'.bind file' y) () :=
      fun hxy _ _ _ h => hxy ▸ act_regroups hfile h hact
    exact regrouping.holds_both hfirst ih

/-- Syntax in which types were regrouped is bound side by side. -/
def regroupingCorrespondence (hfile : ∀ source, file.dependency? source = file'.dependency? source) :
    regrouping.Correspondence file file' where
  Decls _ _ _ decl decl' account := decl.Regrouped decl' ∧ account = ()
  Bodies body body' account := body.Regrouped body' ∧ account = ()
  Lists _ items items' account := RegroupedItems items items' ∧ account = ()
  Items _ item item' account := item.Regrouped item' ∧ account = ()
  decl_cases := by
    rintro aliases exported leading decl decl' _ ⟨hdecl, rfl⟩
    rcases hacts : decl.acts? aliases exported leading with _ | acts
    · cases hdecl with
      | namespaceDecl name hbody => exact .namespaceDecl ⟨hbody, rfl⟩ (.of_eq rfl)
      | _ => cases hacts
    · obtain ⟨acts', hacts', hregrouped⟩ := hdecl.acts hacts
      exact .of_acts hacts hacts' (acts_regroups hfile hregrouped)
  body_cases := by
    rintro _ _ _ ⟨hbody, rfl⟩
    cases hbody with
    | absent => exact .absent (.of_eq rfl)
    | nested name hbody => exact .nested ⟨hbody, rfl⟩ (.of_eq rfl)
    | items hitems =>
      exact .items (acts_regroups hfile hitems.clauses) (exportAliases_regrouped hitems)
        ⟨hitems, rfl⟩ (.of_eq rfl)
  list_cases := by
    rintro _ _ _ _ ⟨hitems, rfl⟩
    cases hitems with
    | nil => exact .nil (.of_eq rfl)
    | cons hitem hrest => exact .cons ⟨hitem, rfl⟩ ⟨hrest, rfl⟩ (.of_eq rfl)
  item_cases := by
    rintro aliases item item' _ ⟨hitem, rfl⟩
    rcases hacts : item.acts? with _ | acts
    · cases hitem with
      | declaration _ hdecl => exact .declaration ⟨hdecl, rfl⟩ (.of_eq rfl)
      | exportDecl _ hdecl => exact .exportDecl ⟨hdecl, rfl⟩ (.of_eq rfl)
      | exportDefaultClass _ name => cases name <;> cases hacts
      | exportDefaultExpr _ hvalue => cases hvalue <;> cases hacts
      | _ => cases hacts
    · obtain ⟨acts', hacts', hregrouped⟩ := hitem.acts hacts
      exact .of_acts hacts hacts' (acts_regroups hfile hregrouped)

theorem bindBody_regroups (hfile : ∀ source, file.dependency? source = file'.dependency? source)
    {body body' : NamespaceBody} (hbody : body.Regrouped body') (x : ScopeId)
    (h : Regrouped n index₁ index₂) : Regroups n index₁ index₂ (bindBody file x body)
      (bindBody file' x body') fun n' => n'.counterparts.LikeVisits :=
  (regroupingCorrespondence hfile).bindBody body ⟨hbody, rfl⟩ x x rfl h

end

/-- Files in which types were regrouped. -/
theorem bindEntries_regroups (h : Regrouped n index₁ index₂)
    {entries entries' : List (ModuleId × ModuleFile)}
    (hentries : List.Forall₂ (fun first second => first.1 = second.1 ∧
      first.2.Rewritten SourceTree.Regrouped second.2) entries entries') :
    Regroups n index₁ index₂ (entries.mapM bindEntry) (entries'.mapM bindEntry) fun n' =>
      List.Forall₂ (n'.counterparts.LikeFileView Eq) := by
  induction hentries generalizing n index₁ index₂ with
  | nil => exact .done h .nil
  | @cons entry entry' rest rest' hentry _ ih =>
    obtain ⟨id, file⟩ := entry
    obtain ⟨_, file'⟩ := entry'
    obtain ⟨rfl, hfile⟩ := hentry
    have hfirst : Regroups n index₁ index₂ (bindEntry (id, file)) (bindEntry (id, file'))
        fun n' => n'.counterparts.LikeFileView Eq := by
      refine .get_bind ?_
      have hscope : index₁.moduleScope id = index₂.moduleScope id := by
        rw [Index.moduleScope, Index.moduleScope, h.moduleScopes]
      rw [← hscope]
      refine (bindBody_regroups hfile.dependency? (.items hfile.tree) _ h).bind
        fun _ _ _ _ _ _ h₁ hviews => .done h₁ ⟨congrArg Path.text hfile.path, ?_⟩
      exact List.rel_flatMap hviews fun _ _ hview => hview.visited
    rw [List.mapM_cons, List.mapM_cons]
    refine hfirst.bind fun _ _ _ _ _ _ h₁ hview => ?_
    refine (ih h₁).bind fun _ _ _ _ _ hn h₂ hviews => .done h₂ (.cons ⟨hview.path, ?_⟩ hviews)
    exact hview.declarations.imp fun _ _ => .mono hn.within

end Binding

/-! ## Programs -/

/-- Programs in which types were regrouped have the same document. -/
theorem Modules.document_regrouped {modules modules' : Modules}
    (h : modules.Rewritten SourceTree.Regrouped modules')
    (hreadings : modules.program.ReadsAlike modules'.program) (mode : SchemaMode) :
    modules.program.document mode = modules'.program.document mode := by
  have hsame := h.unbound SourceTree.Regrouped.isScript
  obtain ⟨n, -, hindex, hviews⟩ :=
    Binding.bindEntries_regroups (Index.Regrouped.start modules.unbound) h.bound
  have hprograms : n.counterparts.Restates modules.program.index modules'.program.index := by
    show n.counterparts.Restates modules.bind.2 modules'.bind.2
    rw [Modules.bind_eq, Modules.bind_eq, ← hsame]
    exact hindex.restates
  refine (hprograms.document_alike (P := Eq) mode ?_ hreadings).eq
  show List.Forall₂ _ modules.bind.1 modules'.bind.1
  rw [Modules.bind_eq, Modules.bind_eq, ← hsame]
  exact hviews

/-- It does not matter which types of a program stand in redundant parentheses, where the syntax of the
types is not looked at; a return annotation may read `JSX.Element` in one spelling only if it denotes an
element, so all three are components. -/
theorem documentFiles_regrouped {tree tree' : FileTree} (hrooted : tree.IsRooted)
    (h : tree.Rewritten SourceTree.Regrouped tree') (roots : List Path) (mode : SchemaMode)
    (hreadings : ∀ program program', Program.load tree roots = .ok program →
      Program.load tree' roots = .ok program' → program.ReadsAlike program') :
    documentFiles tree roots mode = documentFiles tree' roots mode := by
  refine documentFiles_rewritten hrooted (fun parsed => regroupedItems_refl parsed.items)
    SourceTree.Regrouped.specifiers h roots mode fun {modules modules'} hload hload' hmodules => ?_
  refine Modules.document_regrouped hmodules (hreadings _ _ ?_ ?_) mode
  · rw [Program.load_eq, hload]
    rfl
  · rw [Program.load_eq, hload']
    rfl

/-- Types in no parentheses. -/
def plainText : String :=
  "interface R \x7b c: string \x7d " ++
    "type P = \x7b a: string | number \x7d & R; " ++
    "export function A(p: P) \x7b return <a />; \x7d " ++
    "export declare const B: (p: R) => JSX.Element; " ++
    "export declare function C(): JSX.Element;"

/-- The same types in parentheses. -/
def groupedText : String :=
  "interface R \x7b c: (string) \x7d " ++
    "type P = (\x7b a: ((string) | number) \x7d & (R)); " ++
    "export function A(p: (P)) \x7b return <a />; \x7d " ++
    "export declare const B: (p: (R)) => (JSX.Element); " ++
    "export declare function C(): (JSX.Element);"

def plainTree : FileTree where
  entries := [(["a.tsx"], .file plainText)]
  current := []

def groupedTree : FileTree where
  entries := [(["a.tsx"], .file groupedText)]
  current := []

/-- An interface, an alias, a component by inference, and two by their return annotations. -/
def typedItems (member aliased argument : TypeExpr) (text : String) (parameter returned : TypeExpr) :
    List Item :=
  [⟨[], .declaration (.interface "R" [.property (.identifier "c") false (some member)])⟩,
    ⟨[], .declaration (.typeAlias "P" aliased)⟩,
    ⟨[], .exportDecl (.function "A" ⟨[⟨some "p", some ⟨argument, text⟩, none⟩], none,
      some (.block [.returns (some (.jsx []))]), false, false⟩)⟩,
    ⟨[], .exportDecl (.variables [⟨some "B", some (.function [⟨some "p", some parameter⟩] returned),
      none⟩])⟩,
    ⟨[], .exportDecl (.function "C" ⟨[], some returned, none, false, false⟩)⟩]

/-- The right-hand side of the alias, made from parts of the intersection. -/
def aliasedParts (inner second : TypeExpr) : TypeExpr :=
  .intersection [.literal [.property (.identifier "a") false (some inner)], second]

/-- What is read of the types in no parentheses. -/
def plainItems : List Item :=
  typedItems (.keyword .string)
    (aliasedParts (.union [.keyword .string, .keyword .number]) (.reference (.ident "R")))
    (.reference (.ident "P")) "P" (.reference (.ident "R")) jsxElementReference

/-- What is read of the types in parentheses. -/
def groupedItems : List Item :=
  typedItems (.parenthesized (.keyword .string))
    (.parenthesized (aliasedParts
      (.parenthesized (.union [.parenthesized (.keyword .string), .keyword .number]))
      (.parenthesized (.reference (.ident "R")))))
    (.parenthesized (.reference (.ident "P"))) "(P)" (.parenthesized (.reference (.ident "R")))
    (.parenthesized jsxElementReference)

theorem plainItems_regrouped : RegroupedItems plainItems groupedItems := by
  refine .cons (.declaration [] (.interface "R" (.cons (.property _ _ (.some ?_)) .nil))) (.cons
    (.declaration [] (.typeAlias "P" (.wrapping (.intersection (.cons ?_ (.cons ?_ .nil)))))) (.cons
      (.exportDecl [] (.function "A" ⟨.cons ⟨rfl, .some ?_⟩ .nil, .refl none, ?_, rfl, rfl⟩)) (.cons
        (.exportDecl [] (.variables (.cons (.typed _ (.function (.cons (.some ?_) .nil) ?_)) .nil))) (.cons
          (.exportDecl [] (.function "C" ⟨.nil, .some ?_, .none, rfl, rfl⟩)) .nil))))
  · exact .wrapping (.keyword .string)
  · refine .literal (.cons (.property _ _ (.some (.wrapping (.union ?_ fun _ => rfl)))) .nil)
    exact .cons (.wrapping (.keyword .string)) (.cons (.keyword .number) .nil)
  · exact .wrapping (.reference (.ident "R"))
  · exact .wrapping (.reference (.ident "P"))
  · exact .some (Body.regrouped_of_returned_eq rfl)
  · exact .wrapping (.reference (.ident "R"))
  · exact .wrapping (.reference _)
  · exact .wrapping (.reference _)

set_option maxRecDepth 100000 in
theorem parse_plainText : SourceTree.parse (Variant.ofPath "a.tsx") plainText = .ok ⟨plainItems⟩ := by
  rfl

set_option maxRecDepth 100000 in
theorem parse_groupedText :
    SourceTree.parse (Variant.ofPath "a.tsx") groupedText = .ok ⟨groupedItems⟩ := by
  rfl

theorem plainTree_rewritten : plainTree.Rewritten SourceTree.Regrouped groupedTree where
  current := rfl
  entries := .cons ⟨rfl, .source rfl parse_plainText parse_groupedText plainItems_regrouped⟩ .nil

/-- The return annotations of `B` and `C` read `JSX.Element` in one spelling only and denote the built-in
element, so all three are components. -/
theorem program_groupedItems :
    (SourceTree.program ⟨"a.tsx"⟩ ⟨plainItems⟩).readsAlike (SourceTree.program ⟨"a.tsx"⟩ ⟨groupedItems⟩) ∧
      ((SourceTree.program ⟨"a.tsx"⟩ ⟨groupedItems⟩).document .repeated).components.map
          (fun component => (component.name, component.propsSchemaName)) =
        [("A", some "P"), ("B", some "R"), ("C", none)] := by
  decide +kernel

theorem plainTree_readsAlike (program program' : Program)
    (h : Program.load plainTree [⟨"a.tsx"⟩] = .ok program)
    (h' : Program.load groupedTree [⟨"a.tsx"⟩] = .ok program') : program.ReadsAlike program' := by
  rw [Program.load_alone rfl parse_plainText rfl] at h
  rw [Program.load_alone rfl parse_groupedText rfl] at h'
  obtain rfl := Except.ok.inj h
  obtain rfl := Except.ok.inj h'
  exact Program.readsAlike_of_reads program_groupedItems.1

theorem documentFiles_groupedTree :
    plainTree.IsRooted ∧ plainTree.Rewritten SourceTree.Regrouped groupedTree ∧
      (∀ program program', Program.load plainTree [⟨"a.tsx"⟩] = .ok program →
        Program.load groupedTree [⟨"a.tsx"⟩] = .ok program' → program.ReadsAlike program') ∧
      (documentFiles groupedTree [⟨"a.tsx"⟩] .repeated).toOption.map
          (fun document => document.components.map fun component => (component.name,
            component.propsSchemaName)) = some [("A", some "P"), ("B", some "R"), ("C", none)] ∧
        documentFiles plainTree [⟨"a.tsx"⟩] .repeated =
          documentFiles groupedTree [⟨"a.tsx"⟩] .repeated := by
  have hrooted : plainTree.IsRooted := by decide
  refine ⟨hrooted, plainTree_rewritten, plainTree_readsAlike, ?_, ?_⟩
  · rw [documentFiles_alone rfl parse_groupedText rfl]
    exact congrArg some program_groupedItems.2
  · exact documentFiles_regrouped hrooted plainTree_rewritten _ _ plainTree_readsAlike

/-- A function with the given return annotation, where `JSX.Element` is not an element, and a class with
the given annotation in its constructor. -/
def annotatedTree (returned parameter : String) : FileTree where
  entries := [(["a.tsx"], .file ("declare namespace JSX \x7b export type Element = string \x7d " ++
    "export function A(): " ++ returned ++ " \x7b return x(); \x7d " ++
    "export class K \x7b constructor(a: " ++ parameter ++ ") \x7b \x7d \x7d"))]
  current := []

/-- The names of the components of a document, and the texts of the parameters of its classes. -/
def Documentation.texts (document : Documentation) : List String × List (Option String) :=
  let constructors := document.classes.flatMap fun entry => entry.constructors.getD []
  let parameters := constructors.flatMap fun entry => entry.parameters.getD []
  (document.components.map (·.name), parameters.map (·.typeText))

set_option maxRecDepth 100000 in
/-- Parentheses around `JSX.Element`, and in the constructor of a class, change the document. -/
theorem documentFiles_annotatedTree :
    documentFiles (annotatedTree "JSX.Element" "string") [⟨"a.tsx"⟩] .repeated ≠
        documentFiles (annotatedTree "(JSX.Element)" "string") [⟨"a.tsx"⟩] .repeated ∧
      documentFiles (annotatedTree "JSX.Element" "string") [⟨"a.tsx"⟩] .repeated ≠
        documentFiles (annotatedTree "JSX.Element" "(string)") [⟨"a.tsx"⟩] .repeated := by
  have hplain : (documentFiles (annotatedTree "JSX.Element" "string") [⟨"a.tsx"⟩] .repeated).toOption.map
      Documentation.texts = some (["A"], [some "string"]) := by decide +kernel
  have hreturned : (documentFiles (annotatedTree "(JSX.Element)" "string") [⟨"a.tsx"⟩]
      .repeated).toOption.map Documentation.texts = some ([], [some "string"]) := by decide +kernel
  have hparameter : (documentFiles (annotatedTree "JSX.Element" "(string)") [⟨"a.tsx"⟩]
      .repeated).toOption.map Documentation.texts = some (["A"], [some "(string)"]) := by decide +kernel
  constructor
  · intro heq
    rw [heq, hreturned] at hplain
    exact absurd hplain (by decide)
  · intro heq
    rw [heq, hparameter] at hplain
    exact absurd hplain (by decide)

end ComponentSchema
