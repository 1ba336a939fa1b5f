import ComponentSchema.Proofs.Binder.TwinPrograms
import ComponentSchema.Proofs.Classifier.ReturnAnnotations
import ComponentSchema.Proofs.Comparison.AlikeViews
import ComponentSchema.Proofs.Comparison.RestatedAnswers

/-!
# Restated programs have the same document

What a traversal asks a program is answered the same by a program that restates it, so the two traversals
find the same: the same schemas under the same names, the same components, and the same classes. Only the
files that the classes stand in may go by other paths. Twin programs restate each other.

Hypothesis. `Program.ReadsAlike`: if a return annotation reads `JSX.Element` in one of the programs only, it
denotes an element.

Results.
* `Restates.extractInto_alongside`: by induction on the depth of the descent and on lists of members.
* `Restates.classify_alongside`: a declaration is a component in both programs or in none.
* `Restates.document_alike`: the documents of the two programs.
* `Twins.Agree.program_alike`: the documents of twin programs.
-/
namespace ComponentSchema

open Syntax

/-- The program of some loaded files. -/
def Modules.program (modules : Modules) : Program := ⟨modules.bind.1, modules.bind.2⟩

theorem Program.load_eq (tree : FileTree) (roots : List Path) :
    Program.load tree roots = (Modules.load tree roots).map Modules.program := by
  unfold Program.load
  cases Modules.load tree roots <;> rfl

/-! ## Documents -/

/-- Two entries that are the same but for the files they name, for which `P` holds. -/
def SameEntry (P : String → String → Prop) (first second : DocEntry) : Prop :=
  ∃ (entry : DocEntry) (path path' : String), P path path' ∧
    first = { entry with fileName := some path } ∧ second = { entry with fileName := some path' }

/-- Two documents that are the same but for the files that their classes name. -/
structure Documentation.Alike (P : String → String → Prop) (first second : Documentation) : Prop where
  types : first.types = second.types
  components : first.components = second.components
  classes : List.Forall₂ (SameEntry P) first.classes second.classes

theorem Documentation.Alike.eq {first second : Documentation} (h : first.Alike Eq second) :
    first = second := by
  obtain ⟨types, components, classes⟩ := first
  obtain ⟨types', components', classes'⟩ := second
  obtain ⟨rfl, rfl, hclasses⟩ := h
  have heq : classes = classes' := by
    rw [← List.forall₂_eq_eq_eq]
    refine List.Forall₂.imp ?_ hclasses
    rintro _ _ ⟨entry, path, _, rfl, rfl, rfl⟩
    rfl
  rw [heq]

/-- Two arenas that hold the same types, of which the first one is between two questions. -/
def Counterparts.LikeTracked (c : Counterparts) (index : Index) (arena arena' : Arena) : Prop :=
  c.LikeArena arena arena' ∧ ∃ w, Tracked index arena w

/-- Two lists that correspond, of which more is known place by place. -/
theorem forall₂_and_zip {α β : Type} {R S : α → β → Prop} {items : List α} {items' : List β}
    (h : List.Forall₂ R items items') (hmore : ∀ pair ∈ items.zip items', S pair.1 pair.2) :
    List.Forall₂ (fun item item' => R item item' ∧ S item item') items items' :=
  List.forall₂_iff_zip.2 ⟨h.length_eq, fun hpair => ⟨List.forall₂_zip h hpair, hmore _ hpair⟩⟩

namespace Counterparts.Restates

variable {c : Counterparts} {program₁ program₂ : Program} {arena arena' : Arena}

/-! ## Facts -/

section

variable (harena : c.LikeArena arena arena')
include harena

theorem symbol_alongside (type : TypeId) :
    c.Answers arena arena' (program₁.facts.symbol type) (program₂.facts.symbol type) :=
  Alongside.get_bind (.done harena (congrArg TypeData.symbol (harena.typeData type)))

theorem aliasName_alongside (type : TypeId) :
    c.Answers arena arena' (program₁.facts.aliasName type) (program₂.facts.aliasName type) :=
  Alongside.get_bind (.done harena (congrArg TypeData.aliasName (harena.typeData type)))

theorem intrinsicName_alongside (type : TypeId) :
    c.Answers arena arena' (program₁.facts.intrinsicName type) (program₂.facts.intrinsicName type) :=
  Alongside.get_bind (.done harena
    (congrArg (fun data => data.intrinsic.map (·.text)) (harena.typeData type)))

theorem members_alongside (type : TypeId) :
    c.Answers arena arena' (program₁.facts.members type) (program₂.facts.members type) :=
  Alongside.get_bind (.done harena (congrArg TypeData.members (harena.typeData type)))

theorem memberName_alongside (member : MemberId) :
    c.Answers arena arena' (program₁.facts.memberName member) (program₂.facts.memberName member) :=
  Alongside.get_bind (.done harena (harena.memberData member).1)

theorem memberOptional_alongside (member : MemberId) :
    c.Answers arena arena' (program₁.facts.memberOptional member)
      (program₂.facts.memberOptional member) :=
  Alongside.get_bind (.done harena (harena.memberData member).2)

end

section

variable (h : c.Restates program₁.index program₂.index)
include h

theorem returnType_alongside {signature signature' : FunctionLike}
    (hsignature : c.LikeSignature signature signature') (harena : c.LikeArena arena arena') :
    c.Answers arena arena' (program₁.facts.returnType signature)
      (program₂.facts.returnType signature') := by
  obtain ⟨id, parameters, returnType⟩ := signature
  obtain ⟨id', parameters', returnType'⟩ := signature'
  obtain ⟨hid, hreturn, -⟩ := hsignature
  cases hreturn with
  | none => exact returnTypeOf_alongside h (hid rfl) harena
  | some hij => exact typeOfNode_alongside h hij harena

theorem typeOf_alongside {node node' : TypeNode} (hnode : c.node node.id node'.id)
    (harena : c.LikeArena arena arena') :
    c.Answers arena arena' (program₁.facts.typeOf node) (program₂.facts.typeOf node') :=
  typeOfNode_alongside h hnode harena

/-! ## Schemas -/

omit h in
theorem schemaName_alongside (type : TypeId) (harena : c.LikeArena arena arena') :
    c.Answers arena arena' (program₁.facts.schemaName type) (program₂.facts.schemaName type) := by
  refine (aliasName_alongside harena type).bind fun _ _ aliasName harena₁ => ?_
  cases aliasName with
  | some name => exact .done harena₁ rfl
  | none =>
    refine (symbol_alongside harena₁ type).bind fun _ _ symbol harena₂ => ?_
    cases symbol <;> exact .done harena₂ rfl

section

variable {expand expand' : TypeId → Extractor → Resolve (Extracted Unit)}
  (hexpand : ∀ type extractor {arena arena'}, c.LikeArena arena arena' →
    c.Answers arena arena' (expand type extractor) (expand' type extractor))
include hexpand

theorem property_alongside (member : MemberId) (extractor : Extractor)
    (harena : c.LikeArena arena arena') :
    c.Answers arena arena' (program₁.facts.property expand member extractor)
      (program₂.facts.property expand' member extractor) := by
  refine (memberName_alongside harena member).bind fun _ _ name harena₁ => ?_
  refine (memberOptional_alongside harena₁ member).bind fun _ _ isOptional harena₂ => ?_
  refine (memberType_alongside h member harena₂).bind fun _ _ type harena₃ => ?_
  cases type with
  | none => exact .done harena₃ rfl
  | some type =>
    refine (intrinsicName_alongside harena₃ type).bind fun _ _ intrinsicType harena₄ => ?_
    refine (aliasName_alongside harena₄ type).bind fun _ _ aliasName harena₅ => ?_
    cases aliasName with
    | none => exact .done harena₅ rfl
    | some complexType =>
      exact (hexpand type extractor harena₅).bind fun _ _ nested harena₆ => .done harena₆ rfl

theorem properties_alongside (members : List MemberId) (extractor : Extractor)
    (harena : c.LikeArena arena arena') :
    c.Answers arena arena' (program₁.facts.properties expand members extractor)
      (program₂.facts.properties expand' members extractor) := by
  induction members generalizing extractor arena arena' with
  | nil => exact .done harena rfl
  | cons member rest ih =>
    refine (property_alongside h hexpand member extractor harena).bind fun _ _ first harena₁ => ?_
    exact (ih first.extractor harena₁).bind fun _ _ others harena₂ => .done harena₂ rfl

theorem schemaOf_alongside (type : TypeId) (extractor : Extractor)
    (harena : c.LikeArena arena arena') :
    c.Answers arena arena' (program₁.facts.schemaOf expand type extractor)
      (program₂.facts.schemaOf expand' type extractor) := by
  refine (schemaName_alongside type harena).bind fun _ _ name harena₁ => ?_
  refine (members_alongside harena₁ type).bind fun _ _ members harena₂ => ?_
  exact (properties_alongside h hexpand members (extractor.enter type) harena₂).bind
    fun _ _ found harena₃ => .done harena₃ rfl

end

variable (mode : SchemaMode)

theorem expand_alongside (depth : Nat) (type : TypeId) (extractor : Extractor)
    (harena : c.LikeArena arena arena') :
    c.Answers arena arena' (program₁.facts.expand mode depth type extractor)
      (program₂.facts.expand mode depth type extractor) := by
  induction depth generalizing type extractor arena arena' with
  | zero => exact .done harena rfl
  | succ depth ih =>
    simp only [TypeFacts.expand]
    split
    · exact .done harena rfl
    · exact (schemaOf_alongside h (fun type extractor _ _ => ih type extractor) type extractor
        harena).bind fun _ _ found harena₁ => .done harena₁ rfl

/-- The schemas that a type needs are the same. -/
theorem extractInto_alongside (type : TypeId) (extractor : Extractor)
    (harena : c.LikeArena arena arena') :
    c.Answers arena arena' (program₁.facts.extractInto mode type extractor)
      (program₂.facts.extractInto mode type extractor) := by
  have hbound : program₁.facts.aliasBound = program₂.facts.aliasBound := h.aliases
  unfold TypeFacts.extractInto TypeFacts.extract
  rw [hbound]
  split
  · exact .done harena rfl
  · exact (schemaOf_alongside h (fun type extractor _ _ => expand_alongside h mode _ type extractor)
      type extractor harena).bind fun _ _ found harena₁ => .done harena₁ rfl

/-! ## Components -/

theorem returnsJsxElement_alongside {signature signature' : FunctionLike}
    (hsignature : c.LikeSignature signature signature') (harena : c.LikeArena arena arena') :
    c.Answers arena arena' (program₁.facts.returnsJsxElement signature)
      (program₂.facts.returnsJsxElement signature') := by
  refine (returnType_alongside h hsignature harena).bind fun _ _ type harena₁ => ?_
  cases type with
  | none => exact .done harena₁ rfl
  | some type =>
    exact (symbol_alongside harena₁ type).bind fun _ _ symbol harena₂ => .done harena₂ rfl

/-- A declaration is a component in both programs or in none. -/
theorem classify_alongside {w : Naming} (hready : Ready program₁.index arena w)
    {declaration declaration' : Declaration}
    (hsignature : Option.Rel c.LikeSignature declaration.signature? declaration'.signature?)
    (hreadings : declaration.ReadsAlike program₁.index declaration')
    (hname : declaration.publicName = declaration'.publicName) (harena : c.LikeArena arena arena') :
    Alongside c.LikeArena (Option.Rel c.LikeCandidate) arena arena'
      (program₁.facts.classify declaration) (program₂.facts.classify declaration') := by
  unfold TypeFacts.classify TypeFacts.isComponent
  rcases rel_cases hsignature with ⟨hx, hy⟩ | ⟨signature, signature', hx, hy, hsame⟩
  · rw [hx, hy]
    exact .done harena .none
  · rw [hx, hy]
    have hreturned : c.Answers arena arena'
        (do return (← program₁.facts.returnsJsxElement signature) || signature.annotatedJsxElement)
        (do return (← program₂.facts.returnsJsxElement signature') ||
          signature'.annotatedJsxElement) := by
      obtain ⟨harena₁, heq⟩ := returnsJsxElement_alongside h hsame harena
      refine ⟨harena₁, ?_⟩
      show (((program₁.facts.returnsJsxElement signature).run arena).1 || signature.annotatedJsxElement) =
        (((program₂.facts.returnsJsxElement signature').run arena').1 || signature'.annotatedJsxElement)
      rcases hreadings signature hx signature' hy with hreads | helement
      · rw [heq, hreads]
      · -- Both functions are found to return an element, however their annotations read.
        obtain ⟨_, -, -, htrue⟩ := returnsJsxElement_of_returnsElement hready helement
        rw [← heq, htrue, Bool.true_or, Bool.true_or]
    refine Alongside.bind hreturned fun _ _ isComponent isComponent' harena₁ heq => ?_
    subst heq
    cases isComponent with
    | true => exact .done harena₁ (.some ⟨hname, hsame.props⟩)
    | false => exact .done harena₁ .none

/-! ## Traversals -/

variable {P : String → String → Prop} {traversal traversal' : Traversal}

/-- Two traversals that have found the same, but for the files that classes stand in. -/
structure SameTraversal (P : String → String → Prop) (first second : Traversal) : Prop where
  document : first.document.Alike P second.document
  extractor : first.extractor = second.extractor

omit h in
theorem SameTraversal.addComponent (htraversal : SameTraversal P traversal traversal')
    (component : Component) (added : List Schema) (extractor : Extractor) :
    SameTraversal P (traversal.addComponent component added extractor)
      (traversal'.addComponent component added extractor) :=
  ⟨⟨congrArg (· ++ added) htraversal.document.types,
    congrArg (· ++ [component]) htraversal.document.components, htraversal.document.classes⟩, rfl⟩

omit h in
theorem SameTraversal.addClass (htraversal : SameTraversal P traversal traversal')
    {entry entry' : DocEntry} (hentry : SameEntry P entry entry') :
    SameTraversal P (traversal.addClass entry) (traversal'.addClass entry') :=
  ⟨⟨htraversal.document.types, htraversal.document.components,
    List.rel_append htraversal.document.classes (.cons hentry .nil)⟩, htraversal.extractor⟩

theorem classEntry_same {path path' : String} (hpath : P path path') {id id' : ClassId}
    (hid : c.classSite id id') (name : Option String) (exported : Bool) :
    SameEntry P (program₁.facts.classEntry path ⟨id, name, exported⟩)
      (program₂.facts.classEntry path' ⟨id', name, exported⟩) := by
  have hclass : program₁.facts.classSymbol ⟨id, name, exported⟩ =
      program₂.facts.classSymbol ⟨id', name, exported⟩ := by
    simp only [Program.facts, h.classes hid]
  have hconstructors : program₁.facts.constructSignatures ⟨id, name, exported⟩ =
      program₂.facts.constructSignatures ⟨id', name, exported⟩ := by
    simp only [Program.facts, h.classes hid]
  refine ⟨program₁.facts.classEntry path ⟨id, name, exported⟩, path, path', hpath, rfl, ?_⟩
  unfold TypeFacts.classEntry
  rw [hclass, hconstructors]

theorem visitCandidate_alongside {w : Naming} (hready : Ready program₁.index arena w)
    {declaration declaration' : Declaration}
    (hsignature : Option.Rel c.LikeSignature declaration.signature? declaration'.signature?)
    (hreadings : declaration.ReadsAlike program₁.index declaration')
    (hname : declaration.publicName = declaration'.publicName)
    (htraversal : SameTraversal P traversal traversal') (harena : c.LikeArena arena arena') :
    Alongside c.LikeArena (SameTraversal P) arena arena'
      (program₁.facts.visitCandidate mode declaration traversal)
      (program₂.facts.visitCandidate mode declaration' traversal') := by
  refine (classify_alongside h hready hsignature hreadings hname harena).bind
    fun arena arena' found found' harena₁ hfound => ?_
  rcases rel_cases hfound with ⟨rfl, rfl⟩ | ⟨candidate, candidate', rfl, rfl, hcandidate⟩
  · exact .done harena₁ htraversal
  · obtain ⟨name, props⟩ := candidate
    obtain ⟨name', props'⟩ := candidate'
    obtain ⟨hname, hprops⟩ := hcandidate
    obtain rfl : name = name' := hname
    have hexpanded : ∀ (type : TypeId) {arena arena' : Arena}, c.LikeArena arena arena' →
        c.Answers arena arena' (program₁.facts.extractInto mode type traversal.extractor)
          (program₂.facts.extractInto mode type traversal'.extractor) := by
      intro type arena arena' harena
      rw [← htraversal.extractor]
      exact extractInto_alongside h mode type traversal.extractor harena
    have hunknown : SameTraversal P (traversal.addComponent ⟨name, none⟩ [] traversal.extractor)
        (traversal'.addComponent ⟨name, none⟩ [] traversal'.extractor) := by
      rw [← htraversal.extractor]
      exact htraversal.addComponent _ _ _
    cases hprops with
    | none => exact .done harena₁ hunknown
    | some hnode =>
      refine Alongside.bind (typeOf_alongside h hnode harena₁) ?_
      rintro _ _ type _ harena₂ rfl
      cases type with
      | none => exact .done harena₂ hunknown
      | some type =>
        refine Alongside.bind (hexpanded type harena₂) ?_
        rintro _ _ added _ harena₃ rfl
        exact .done harena₃ (htraversal.addComponent _ _ _)

theorem visit_alongside {w : Naming} (hready : Ready program₁.index arena w) {path path' : String}
    (hpath : P path path') {declaration declaration' : Declaration}
    (hview : c.LikeView declaration declaration')
    (hreadings : declaration.ReadsAlike program₁.index declaration')
    (htraversal : SameTraversal P traversal traversal') (harena : c.LikeArena arena arena') :
    Alongside c.LikeArena (SameTraversal P) arena arena'
      (program₁.facts.visit mode path traversal declaration)
      (program₂.facts.visit mode path' traversal' declaration') := by
  cases hview with
  | value hfirst hsecond hsignature hname =>
    rw [TypeFacts.visit_of_isValue hfirst, TypeFacts.visit_of_isValue hsecond]
    exact visitCandidate_alongside h mode hready hsignature hreadings hname htraversal harena
  | classDecl hid => exact .done harena (htraversal.addClass (classEntry_same h hpath hid _ _))

theorem visitFile_alongside {file file' : SourceFile} (hfile : c.LikeFileView P file file')
    (hreadings : file.ReadsAlike program₁.index file') (htraversal : SameTraversal P traversal traversal')
    (harena : c.LikeTracked program₁.index arena arena') :
    Alongside (c.LikeTracked program₁.index) (SameTraversal P) arena arena'
      (program₁.facts.visitFile mode traversal file)
      (program₂.facts.visitFile mode traversal' file') := by
  refine Alongside.foldlM harena htraversal (forall₂_and_zip hfile.declarations hreadings) ?_
  rintro _ _ found _ declaration _ ⟨harena₁, w, htracked⟩ htraversal₁ ⟨hview, hreads⟩
  obtain ⟨harena₂, hfound⟩ :=
    visit_alongside h mode htracked.ready hfile.path hview hreads htraversal₁ harena₁
  obtain ⟨w', -, htracked', -⟩ := visit_finds htracked mode file.path found declaration
  exact ⟨⟨harena₂, w', htracked'⟩, hfound⟩

/-- Programs of which one restates the other have the same document, but for the paths of files. -/
theorem document_alike
    (hfiles : List.Forall₂ (c.LikeFileView P) program₁.files program₂.files)
    (hreadings : program₁.ReadsAlike program₂) :
    (program₁.document mode).Alike P (program₂.document mode) := by
  have hstart : SameTraversal P Traversal.start Traversal.start := ⟨⟨rfl, rfl, .nil⟩, rfl⟩
  have hempty : c.LikeTracked program₁.index Arena.empty Arena.empty := ⟨.empty c, _, tracked_empty _⟩
  have hvisited := Alongside.foldlM hempty hstart (forall₂_and_zip hfiles hreadings)
    fun _ _ _ _ _ _ harena htraversal hfile =>
      visitFile_alongside h mode hfile.1 hfile.2 htraversal harena
  exact hvisited.2.document

end

end Counterparts.Restates

/-! ## Twins -/

/-- Views that document the same read alike. -/
theorem Counterparts.SameFileView.readsAlike {c : Counterparts} {P : String → String → Prop}
    {first second : SourceFile} (h : c.SameFileView P first second) (index : Index) :
    first.ReadsAlike index second := by
  intro declarations hdeclarations signature hsignature signature' hsignature'
  have hview := List.forall₂_zip h.declarations.flatMap_visited.forall₂ hdeclarations
  have hsame := hview.signature?
  rw [Option.mem_def.1 hsignature, Option.mem_def.1 hsignature'] at hsame
  exact .inl (Option.rel_some_some.1 hsame).annotatedJsxElement

namespace Twins

variable {t : Twins} {n : Stage} {index₁ index₂ : Index}

/-- A program has as many aliases as its twin. -/
theorem Agree.aliases (h : t.Agree n index₁ index₂) :
    index₁.decls.countP Program.isAlias = index₂.decls.countP Program.isAlias := by
  have hkinds : index₁.decls.map (·.kind) = index₂.decls.map (·.kind) := by
    refine Array.ext_getElem? fun i => ?_
    rw [Array.getElem?_map, Array.getElem?_map]
    rcases rel_cases (h.decls i) with ⟨hx, hy⟩ | ⟨first, second, hx, hy, hdecl⟩
    · rw [hx, hy]
    · rw [hx, hy, Option.map_some, Option.map_some, hdecl.kind]
  have hcount : ∀ decls : Array TypeDecl, decls.countP Program.isAlias =
      (decls.map (·.kind)).countP fun kind => Program.isAlias ⟨"", globalScope, kind⟩ := by
    intro decls
    rw [Array.countP_map]
    rfl
  rw [hcount, hcount, hkinds]

/-- Twin programs restate each other. -/
theorem Agree.restates (h : t.Agree n index₁ index₂) :
    (t.counterparts n).Restates index₁ index₂ where
  name hxy := (h.scopes hxy).name
  lookup hxy segments := by
    rw [h.lookup hxy]
    cases index₂.lookup _ segments with
    | none => exact .none
    | some => exact .some rfl
  decls hde := by
    obtain rfl := hde
    refine rel_mono (fun _ _ hsame => ⟨hsame.name, hsame.scope, ?_⟩) (h.decls _)
    exact hsame.kind ▸ TypeDeclKind.regrouped_refl _
  declUnique hde hde' := by
    obtain rfl := hde
    obtain rfl := hde'
    exact Iff.rfl
  declsSize := h.declsSize
  aliases := h.aliases
  nodes hij := by
    obtain ⟨site, site', hi, hj, hscope, htype⟩ := h.nodes hij
    rw [hi, hj]
    exact .some ⟨hscope, htype ▸ TypeExpr.regrouped_refl _⟩
  nodeUnique := h.nodeUnique
  functions hfg := by
    obtain ⟨site, site', hf, hg, hscope, hbody, hwraps⟩ := h.functions hfg
    rw [hf, hg]
    have hreturned : ∀ body body', Body.SameReturns body body' → body.Regrouped body' := by
      intro body body' hsame
      refine Body.regrouped_of_returned_eq ?_
      cases hsame <;> rfl
    exact .some ⟨hscope, rel_mono hreturned hbody, hwraps⟩
  classes hid := by
    obtain rfl := hid
    rw [h.classes]

/-- Programs whose files are bound alike, in the same order, have the same document, but for the paths
of files. -/
theorem Agree.program_alike {modules₁ modules₂ : Modules} {P : String → String → Prop}
    (hstart : t.Agree Stage.start modules₁.unbound modules₂.unbound)
    (hbound : List.Forall₂ (fun first second =>
      t.module first.1 second.1 ∧ t.SameBinding P first.2 second.2) modules₁.bound modules₂.bound)
    (mode : SchemaMode) :
    (modules₁.program.document mode).Alike P (modules₂.program.document mode) := by
  obtain ⟨n, hagree, hviews⟩ := hstart.bind hbound
  have hprograms : (t.counterparts n).Restates modules₁.program.index modules₂.program.index :=
    hagree.restates
  refine hprograms.document_alike mode (hviews.imp fun _ _ hview => hview.like) ?_
  exact fun files hfiles => (List.forall₂_zip hviews hfiles).readsAlike modules₁.program.index

end Twins

end ComponentSchema
