import ComponentSchema.Proofs.Checker.ElementTypes
import ComponentSchema.Proofs.Traversal.FileContributions

/-!
# Return annotations that denote `JSX.Element`

A function is a component if its return annotation denotes `Element` in a namespace `JSX`, and also if the
annotation reads `JSX.Element`, whatever that denotes. So how an annotation reads matters only where it
denotes something else.

Results.
* `returnsJsxElement_of_returnsElement`: a function is found to return an element if its annotation
  denotes one, whatever has been asked before.
* `Program.readsAlike_of_reads`: where the annotation denotes the built-in element this can be computed.
-/
namespace ComponentSchema

open Syntax

/-! ## Annotations -/

/-- The return annotation denotes `Element` in a namespace `JSX`, built-in or declared. -/
def Index.ReturnsElement (index : Index) (signature : FunctionLike) : Prop :=
  ∃ node site o, signature.returnType = some node ∧ index.typeSites[node.id.index]? = some site ∧
    index.NamesElement site.scope site.type o

theorem returnsJsxElement_of_returnsElement {program : Program} {a : Arena} {w : Naming}
    (h : Ready program.index a w) {signature : FunctionLike}
    (helement : program.index.ReturnsElement signature) :
    Serves program.index a w (program.facts.returnsJsxElement signature) fun answer _ _ =>
      answer = true := by
  obtain ⟨node, site, o, hnode, hsite, hnames⟩ := helement
  obtain ⟨v, hv, hvelement⟩ := hnames.outline (.site node.id) none
  have huntangled : (TypeOrigin.site node.id).Untangled program.index := by
    intro site' hsite'
    obtain rfl := Option.some.inj (hsite.symm.trans hsite')
    exact hnames.untangled
  have hmeaning : meaning program.index (.site node.id) = some v := by
    rw [meaning, hsite]
    exact hv
  have hreturns : Serves program.index a w (program.facts.returnType signature)
      fun answer a' w' => ∃ t, answer = some t ∧ Fits a' w' t v := by
    simp only [Program.facts, hnode]
    refine (Resolve.typeOfNode_serves h node.id).imp fun answer a' w' _ hanswer => ?_
    have hstands := hanswer huntangled
    rw [hmeaning] at hstands
    cases hstands with
    | some hfits => exact ⟨_, rfl, hfits⟩
  refine hreturns.bind ?_
  rintro _ a' w' _ h' ⟨t, rfl, hfits⟩
  have hsymbol : (a'.typeData t).symbol = some TypeSymbol.jsxElement :=
    hfits.hasSymbol.typeData.trans hvelement.symbol
  exact Serves.get_bind (.done h' (beq_iff_eq.2 hsymbol))

/-! ## Programs in which annotations read alike -/

/-- Two signatures whose return annotations both read `JSX.Element` or neither does, or the first one
denotes an element. -/
def Index.ReadsAlike (index : Index) (first second : FunctionLike) : Prop :=
  first.annotatedJsxElement = second.annotatedJsxElement ∨ index.ReturnsElement first

/-- The signatures of two declarations read alike, if both have one. -/
def Declaration.ReadsAlike (index : Index) (first second : Declaration) : Prop :=
  ∀ signature ∈ first.signature?, ∀ signature' ∈ second.signature?, index.ReadsAlike signature signature'

/-- The declarations of two files that are visited read alike, place by place. -/
def SourceFile.ReadsAlike (index : Index) (first second : SourceFile) : Prop :=
  ∀ declarations ∈ (first.declarations.flatMap Declaration.visited).zip
    (second.declarations.flatMap Declaration.visited),
      declarations.1.ReadsAlike index declarations.2

/-- The files of two programs read alike, one by one. -/
def Program.ReadsAlike (first second : Program) : Prop :=
  ∀ files ∈ first.files.zip second.files, files.1.ReadsAlike first.index files.2

/-- Whether the return annotation is a mere name that leads to the built-in `JSX.Element`. -/
def Index.returnsBuiltin (index : Index) (signature : FunctionLike) : Bool :=
  ((signature.returnType.bind fun node => index.typeSites[node.id.index]?).any fun site =>
    site.type.isName && site.type.names.contains jsxElementSegments &&
      (index.lookup site.scope jsxElementSegments).isNone)

theorem Index.returnsElement_of_builtin {index : Index} {signature : FunctionLike}
    (h : index.returnsBuiltin signature = true) : index.ReturnsElement signature := by
  obtain ⟨site, hsite, hbuiltin⟩ := (Option.any_eq_true _ _).1 h
  obtain ⟨node, hnode, hsite⟩ := Option.bind_eq_some_iff.1 hsite
  simp only [Bool.and_eq_true, List.contains_iff_mem, Option.isNone_iff_eq_none] at hbuiltin
  obtain ⟨⟨hname, hsegments⟩, hnone⟩ := hbuiltin
  exact ⟨node, site, .jsxElement, hnode, hsite, .builtin hname hsegments hnone⟩

/-- Whether the annotations read alike, or lead to the built-in element. -/
def Program.readsAlike (first second : Program) : Bool :=
  (first.files.zip second.files).all fun files =>
    ((files.1.declarations.flatMap Declaration.visited).zip
      (files.2.declarations.flatMap Declaration.visited)).all fun declarations =>
        declarations.1.signature?.all fun signature => declarations.2.signature?.all fun signature' =>
          signature.annotatedJsxElement == signature'.annotatedJsxElement ||
            first.index.returnsBuiltin signature

theorem Program.readsAlike_of_reads {first second : Program} (h : first.readsAlike second = true) :
    first.ReadsAlike second := by
  intro files hfiles declarations hdeclarations signature hsignature signature' hsignature'
  have hread := List.all_eq_true.1 (List.all_eq_true.1 h files hfiles) declarations hdeclarations
  rw [Option.mem_def.1 hsignature, Option.all_some, Option.mem_def.1 hsignature', Option.all_some,
    Bool.or_eq_true] at hread
  exact hread.imp beq_iff_eq.1 Index.returnsElement_of_builtin

end ComponentSchema
