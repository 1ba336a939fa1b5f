import ComponentSchema.Proofs.Binder.WellFormedIndex
import ComponentSchema.Proofs.ReturnInference.ElementReturns

/-!
# The returns of a function as a set

Whether a function is inferred to return `Element` in `JSX` depends on what it returns, and on nothing
else: not on the order of its `return` statements or on how many there are of a kind, not on where they
stand, not on returns without a value and of `null` or `undefined`, and not on what is inside the
functions and classes nested in it.

Results.
* `Body.Changed.sameArguments`: each of these changes leaves the set of returned expressions as it is.
* `Program.infersElement_changed`: bodies that return the same, in programs that declare the same
  types.
-/
namespace ComponentSchema

open Syntax Relation

/-! ## Outside of nested functions -/

/-- A function of which nothing is known. -/
def Syntax.Function.blank : Function := ⟨[], none, none, false, false⟩

mutual

/-- An expression without what is inside the functions and classes in it. -/
def Syntax.Expr.outer : Expr → Expr
  | .template parts => .template (outerParts parts)
  | .jsx parts => .jsx (outerParts parts)
  | .parenthesized inner => .parenthesized inner.outer
  | .void operand => .void operand.outer
  | .conditional test consequent alternate =>
    .conditional test.outer consequent.outer alternate.outer
  | .logicalAnd left right => .logicalAnd left.outer right.outer
  | .alternative left right => .alternative left.outer right.outer
  | .cast operand type => .cast operand.outer type
  | .satisfies operand => .satisfies operand.outer
  | .nonNull operand => .nonNull operand.outer
  | .constCast operand => .constCast operand.outer
  | .arrow _ => .arrow Function.blank
  | .function _ => .function Function.blank
  | .classExpr _ => .classExpr []
  | .access parts => .access (outerParts parts)
  | .collection parts => .collection (outerParts parts)
  | .other parts => .other (outerParts parts)
  | value => value

def Syntax.outerParts : List Expr → List Expr
  | [] => []
  | part :: rest => part.outer :: outerParts rest

end

mutual

/-- A statement without what is inside the functions and classes in it. -/
def Syntax.Stmt.outer : Stmt → Stmt
  | .expression value => .expression value.outer
  | .returns value => .returns (value.map Expr.outer)
  | .block statements => .block (outerStatements statements)
  | .conditional test consequent alternate =>
    .conditional test.outer consequent.outer alternate.outer
  | .loop head body => .loop (outerParts head) body.outer
  | .switch subject tests branches =>
    .switch subject.outer (outerParts tests) (outerStatements branches)
  | .attempt body handler finalizer => .attempt body.outer handler.outer finalizer.outer
  | .labeled body => .labeled body.outer
  | .throws value => .throws value.outer
  | .variables values => .variables (outerParts values)
  | .nestedFunction _ => .nestedFunction Function.blank
  | .nestedClass _ => .nestedClass []
  | .other => .other

def Syntax.outerStatements : List Stmt → List Stmt
  | [] => []
  | statement :: rest => statement.outer :: outerStatements rest

end

/-- A body without what is inside the functions and classes in it. -/
def Syntax.Body.outer : Body → Body
  | .expression value => .expression value.outer
  | .block statements => .block (outerStatements statements)

section

variable {value : Expr}

theorem Syntax.Expr.leaves_outer : ∀ value : Expr,
    value.outer.leaves = value.leaves.map Expr.outer
  | .parenthesized inner | .satisfies inner | .nonNull inner | .constCast inner => by
    rw [Expr.outer, Expr.leaves, Expr.leaves, Expr.leaves_outer inner]
  | .conditional _ left right | .alternative left right => by
    rw [Expr.outer, Expr.leaves, Expr.leaves, Expr.leaves_outer left, Expr.leaves_outer right,
      List.map_append]
  | .logicalAnd _ right => by rw [Expr.outer, Expr.leaves, Expr.leaves, Expr.leaves_outer right]
  | .identifier _ | .null | .string _ | .template _ | .number _ | .boolean | .jsx _ | .void _
  | .cast .. | .arrow _ | .function _ | .classExpr _ | .access _ | .collection _ | .other _ => by
    simp [Expr.outer, Expr.leaves]

@[simp] theorem Syntax.Expr.isNullish_outer : value.outer.isNullish = value.isNullish := by
  cases value <;> simp [Expr.outer, Expr.isNullish]

@[simp] theorem Syntax.Expr.isJsx_outer : value.outer.isJsx = value.isJsx := by
  cases value <;> simp [Expr.outer, Expr.isJsx]

@[simp] theorem Syntax.Expr.castType?_outer : value.outer.castType? = value.castType? := by
  cases value <;> simp [Expr.outer, Expr.castType?]

end

mutual

theorem returnedBy_outer : ∀ statement : Stmt,
    returnedBy statement.outer = (returnedBy statement).map (Option.map Expr.outer)
  | .returns value => by simp [Stmt.outer, returnedBy]
  | .block statements => by
    rw [Stmt.outer, returnedBy, returnedBy, returnedByAll_outer statements]
  | .conditional test consequent alternate => by
    rw [Stmt.outer, returnedBy, returnedBy, returnedBy_outer consequent, returnedBy_outer alternate,
      List.map_append]
  | .loop head body => by rw [Stmt.outer, returnedBy, returnedBy, returnedBy_outer body]
  | .switch subject tests branches => by
    rw [Stmt.outer, returnedBy, returnedBy, returnedByAll_outer branches]
  | .attempt body handler finalizer => by
    rw [Stmt.outer, returnedBy, returnedBy, returnedBy_outer body, returnedBy_outer handler,
      returnedBy_outer finalizer, List.map_append, List.map_append]
  | .labeled body => by rw [Stmt.outer, returnedBy, returnedBy, returnedBy_outer body]
  | .expression _ | .throws _ | .variables _ | .nestedFunction _ | .nestedClass _ | .other => by
    simp [Stmt.outer, returnedBy]

theorem returnedByAll_outer : ∀ statements : List Stmt,
    returnedByAll (outerStatements statements) =
      (returnedByAll statements).map (Option.map Expr.outer)
  | [] => rfl
  | statement :: rest => by
    rw [outerStatements, returnedByAll, returnedByAll, returnedBy_outer statement,
      returnedByAll_outer rest, List.map_append]

end

theorem Syntax.Body.returned_outer (body : Body) :
    body.outer.returned = body.returned.map (Option.map Expr.outer) := by
  cases body with
  | expression value => rfl
  | block statements => exact returnedByAll_outer statements

/-! ## Returned expressions -/

/-- The expressions that a body returns, but for `null`, `undefined` and `void` expressions, without what
is inside the functions and classes in them. -/
def Syntax.Body.arguments (body : Body) : List Expr :=
  ((body.returned.filterMap id).filter fun value => !value.isNullish).map Expr.outer

/-- The bodies return the same. -/
def Syntax.Body.SameArguments (body body' : Body) : Prop :=
  ∀ value, value ∈ body.arguments ↔ value ∈ body'.arguments

theorem Syntax.Body.leaves_eq (body : Body) :
    body.leaves = body.returned.flatMap fun value => (value.map Expr.leaves).getD [] := by
  cases body with
  | expression value => simp [Body.leaves, Body.returned]
  | block statements => rfl

theorem Syntax.Expr.leaves_of_isNullish {value : Expr} (h : value.isNullish = true) :
    value.leaves = [value] := by
  cases value <;> simp_all [Expr.isNullish, Expr.leaves]

/-- The values of a body are those of what it returns. -/
theorem Syntax.Body.mem_values_iff {body : Body} {value : Expr} :
    value ∈ body.values ↔ value.isNullish = false ∧
      ∃ whole, some whole ∈ body.returned ∧ whole.isNullish = false ∧ value ∈ whole.leaves := by
  rw [Body.values, List.mem_filter, Body.leaves_eq, List.mem_flatMap, and_comm, Bool.not_eq_true']
  refine and_congr_right fun hvalue => ⟨?_, ?_⟩
  · rintro ⟨_ | whole, hwhole, hmem⟩
    · cases hmem
    · refine ⟨whole, hwhole, ?_, hmem⟩
      rcases hnull : whole.isNullish with _ | _
      · rfl
      · replace hmem : value ∈ whole.leaves := hmem
        rw [Expr.leaves_of_isNullish hnull, List.mem_singleton] at hmem
        rw [← hmem, hvalue] at hnull
        cases hnull
  · rintro ⟨whole, hwhole, -, hmem⟩
    exact ⟨some whole, hwhole, hmem⟩

/-- What does not depend on the inside of functions holds of all values of a body just if it holds of all
that what the body returns may come from. -/
theorem Syntax.Body.forall_values_iff {p : Expr → Prop} (hp : ∀ value, p value.outer ↔ p value)
    (body : Body) : (∀ value ∈ body.values, p value) ↔
      ∀ argument ∈ body.arguments, ∀ leaf ∈ argument.leaves, leaf.isNullish = false → p leaf := by
  constructor
  · intro h argument hargument leaf hleaf hsome
    obtain ⟨whole, hwhole, rfl⟩ := List.mem_map.1 hargument
    obtain ⟨hreturned, hwhole⟩ := List.mem_filter.1 hwhole
    rw [Expr.leaves_outer] at hleaf
    obtain ⟨value, hvalue, rfl⟩ := List.mem_map.1 hleaf
    rw [Expr.isNullish_outer] at hsome
    rw [hp]
    exact h value (Body.mem_values_iff.2
      ⟨hsome, whole, by simpa using hreturned, by simpa using hwhole, hvalue⟩)
  · intro h value hvalue
    obtain ⟨hsome, whole, hreturned, hwhole, hleaf⟩ := Body.mem_values_iff.1 hvalue
    rw [← hp]
    refine h whole.outer (List.mem_map_of_mem (List.mem_filter.2 ⟨?_, by simpa using hwhole⟩)) _ ?_ ?_
    · exact List.mem_filterMap.2 ⟨some whole, hreturned, rfl⟩
    · rw [Expr.leaves_outer]
      exact List.mem_map_of_mem hleaf
    · rwa [Expr.isNullish_outer]

theorem Syntax.Body.mem_arguments_iff {body : Body} {value : Expr} :
    value ∈ body.arguments ↔ some value ∈ body.outer.returned ∧ value.isNullish = false := by
  rw [Body.arguments, List.mem_map, Body.returned_outer, List.mem_map]
  constructor
  · rintro ⟨whole, hwhole, rfl⟩
    obtain ⟨hreturned, hsome⟩ := List.mem_filter.1 hwhole
    exact ⟨⟨some whole, by simpa using hreturned, rfl⟩, by simpa using hsome⟩
  · rintro ⟨⟨_ | whole, hreturned, hvalue⟩, hsome⟩
    · cases hvalue
    · obtain rfl := Option.some.inj hvalue
      rw [Expr.isNullish_outer] at hsome
      exact ⟨whole, List.mem_filter.2 ⟨by simpa using hreturned, by simpa using hsome⟩, rfl⟩

namespace Syntax.Body.SameArguments

variable {body body' body'' : Body}

theorem symm (h : body.SameArguments body') : body'.SameArguments body := fun value => (h value).symm

theorem trans (h : body.SameArguments body') (h' : body'.SameArguments body'') :
    body.SameArguments body'' :=
  fun value => (h value).trans (h' value)

theorem of_outer (h : body.outer = body'.outer) : body.SameArguments body' := by
  intro value
  rw [Body.mem_arguments_iff, Body.mem_arguments_iff, h]

/-- Bodies return the same if they do so but for `null`, `undefined` and `void` expressions. -/
theorem of_returned (h : ∀ value, value.isNullish = false →
    (some value ∈ body.returned ↔ some value ∈ body'.returned)) : body.SameArguments body' := by
  intro value
  simp only [Body.arguments, List.mem_map, List.mem_filter, List.mem_filterMap, id_eq,
    exists_eq_right, Bool.not_eq_true']
  refine exists_congr fun whole => and_congr_left fun _ => ?_
  exact and_congr_left fun hsome => h whole hsome

theorem forall_values (h : body.SameArguments body') {p : Expr → Prop}
    (hp : ∀ value, p value.outer ↔ p value) :
    (∀ value ∈ body.values, p value) ↔ ∀ value ∈ body'.values, p value := by
  rw [Body.forall_values_iff hp, Body.forall_values_iff hp]
  exact forall_congr' fun argument => imp_congr_left (h argument)

/-- Of bodies that return the same, each returns an element just if the other does. -/
theorem returnsElement (h : body.SameArguments body') (index : Index) (scope : ScopeId) :
    body.ReturnsElement index scope ↔ body'.ReturnsElement index scope := by
  have hnone : body.values = [] ↔ body'.values = [] := by
    rw [List.eq_nil_iff_forall_not_mem, List.eq_nil_iff_forall_not_mem]
    exact h.forall_values (p := fun _ => False) fun _ => Iff.rfl
  refine and_congr (not_congr hnone) (or_congr (and_congr_left fun _ => ?_) (exists_congr fun o => ?_))
  · exact h.forall_values (p := fun value => value.isJsx = true) fun value => by
      rw [Expr.isJsx_outer]
  · exact h.forall_values (p := fun value => value.CastsToElement index scope o) fun value => by
      rw [Expr.CastsToElement, Expr.castType?_outer, Expr.CastsToElement]

end Syntax.Body.SameArguments

/-! ## Changes -/

mutual

/-- A statement without what it returns. -/
def Syntax.Stmt.emptied : Stmt → Stmt
  | .returns _ => .returns none
  | .block statements => .block (emptiedStatements statements)
  | .conditional test consequent alternate => .conditional test consequent.emptied alternate.emptied
  | .loop head body => .loop head body.emptied
  | .switch subject tests branches => .switch subject tests (emptiedStatements branches)
  | .attempt body handler finalizer => .attempt body.emptied handler.emptied finalizer.emptied
  | .labeled body => .labeled body.emptied
  | statement => statement

def Syntax.emptiedStatements : List Stmt → List Stmt
  | [] => []
  | statement :: rest => statement.emptied :: emptiedStatements rest

end

mutual

/-- A `return` statement is put somewhere in a statement. -/
inductive Syntax.Stmt.Gains (value : Option Expr) : Stmt → Stmt → Prop
  /-- A branch that is missing. -/
  | missing : Gains value .other (.returns value)
  | block {statements statements' : List Stmt} (h : GainsAmong value statements statements') :
    Gains value (.block statements) (.block statements')
  | consequent {test : Expr} {first first' second : Stmt} (h : Gains value first first') :
    Gains value (.conditional test first second) (.conditional test first' second)
  | alternate {test : Expr} {first second second' : Stmt} (h : Gains value second second') :
    Gains value (.conditional test first second) (.conditional test first second')
  | loop {head : List Expr} {body body' : Stmt} (h : Gains value body body') :
    Gains value (.loop head body) (.loop head body')
  | switch {subject : Expr} {tests : List Expr} {branches branches' : List Stmt}
    (h : GainsAmong value branches branches') :
    Gains value (.switch subject tests branches) (.switch subject tests branches')
  | tried {body body' handler finalizer : Stmt} (h : Gains value body body') :
    Gains value (.attempt body handler finalizer) (.attempt body' handler finalizer)
  | handler {body handler handler' finalizer : Stmt} (h : Gains value handler handler') :
    Gains value (.attempt body handler finalizer) (.attempt body handler' finalizer)
  | finalizer {body handler finalizer finalizer' : Stmt} (h : Gains value finalizer finalizer') :
    Gains value (.attempt body handler finalizer) (.attempt body handler finalizer')
  | labeled {body body' : Stmt} (h : Gains value body body') : Gains value (.labeled body) (.labeled body')

/-- A `return` statement is put before, behind or into one of several statements. -/
inductive Syntax.Stmt.GainsAmong (value : Option Expr) : List Stmt → List Stmt → Prop
  | here {rest : List Stmt} : GainsAmong value rest (.returns value :: rest)
  | inside {statement statement' : Stmt} {rest : List Stmt} (h : Gains value statement statement') :
    GainsAmong value (statement :: rest) (statement' :: rest)
  | later {statement : Stmt} {rest rest' : List Stmt} (h : GainsAmong value rest rest') :
    GainsAmong value (statement :: rest) (statement :: rest')

end

open Syntax.Stmt (Gains GainsAmong)

/-- A change that makes no difference to what a body returns, but for its order, or how often. -/
inductive Syntax.Body.Changed : Body → Body → Prop
  /-- What is returned changes places among the `return` statements. -/
  | permuted {statements statements' : List Stmt}
    (hplaces : emptiedStatements statements = emptiedStatements statements')
    (hperm : (returnedByAll statements).Perm (returnedByAll statements')) :
    Changed (.block statements) (.block statements')
  | duplicated {statements statements' : List Stmt} {value : Option Expr}
    (hmem : value ∈ returnedByAll statements) (h : GainsAmong value statements statements') :
    Changed (.block statements) (.block statements')
  /-- `return;`, `return null` or `return undefined` is added. -/
  | nullish {statements statements' : List Stmt} {value : Option Expr}
    (hvalue : value = none ∨ value = some .null ∨ value = some (.identifier "undefined"))
    (h : GainsAmong value statements statements') : Changed (.block statements) (.block statements')
  /-- A `return` statement is put elsewhere. -/
  | moved {others statements statements' : List Stmt} {value : Option Expr}
    (h : GainsAmong value others statements) (h' : GainsAmong value others statements') :
    Changed (.block statements) (.block statements')
  /-- The inside of functions and classes is replaced. -/
  | nested {body body' : Body} (h : body.outer = body'.outer) : Changed body body'

section

variable {value : Option Expr}

mutual

theorem Syntax.Stmt.Gains.mem_returned : ∀ {statement statement' : Stmt},
    Gains value statement statement' → ∀ returned,
      returned ∈ returnedBy statement' ↔ returned = value ∨ returned ∈ returnedBy statement
  | _, _, .missing, returned => by simp [returnedBy]
  | _, _, .block h, returned => by
    rw [returnedBy, returnedBy]
    exact h.mem_returned returned
  | _, _, .consequent h, returned | _, _, .alternate h, returned => by
    simp only [returnedBy, List.mem_append, h.mem_returned returned]
    tauto
  | _, _, .loop h, returned | _, _, .labeled h, returned => by
    rw [returnedBy, returnedBy]
    exact h.mem_returned returned
  | _, _, .switch h, returned => by
    rw [returnedBy, returnedBy]
    exact h.mem_returned returned
  | _, _, .tried h, returned | _, _, .handler h, returned | _, _, .finalizer h, returned => by
    simp only [returnedBy, List.mem_append, h.mem_returned returned]
    tauto

theorem Syntax.Stmt.GainsAmong.mem_returned : ∀ {statements statements' : List Stmt},
    GainsAmong value statements statements' → ∀ returned,
      returned ∈ returnedByAll statements' ↔ returned = value ∨ returned ∈ returnedByAll statements
  | _, _, .here, returned => by simp [returnedByAll, returnedBy]
  | _, _, .inside h, returned => by
    simp only [returnedByAll, List.mem_append, h.mem_returned returned]
    tauto
  | _, _, .later h, returned => by
    simp only [returnedByAll, List.mem_append, h.mem_returned returned]
    tauto

end

theorem Syntax.Body.Changed.sameArguments {body body' : Body} (h : body.Changed body') :
    body.SameArguments body' := by
  cases h with
  | permuted _ hperm => exact .of_returned fun value _ => hperm.mem_iff
  | duplicated hmem h =>
    refine .of_returned fun value _ => ?_
    rw [Body.returned, Body.returned, h.mem_returned, or_iff_right_of_imp]
    rintro rfl
    exact hmem
  | nullish hvalue h =>
    refine .of_returned fun value hsome => ?_
    rw [Body.returned, Body.returned, h.mem_returned, or_iff_right]
    rintro rfl
    rcases hvalue with hvalue | hvalue | hvalue
    · cases hvalue
    · obtain rfl := Option.some.inj hvalue
      cases hsome
    · obtain rfl := Option.some.inj hvalue
      cases hsome
  | moved h h' =>
    refine .of_returned fun value _ => ?_
    rw [Body.returned, Body.returned, h.mem_returned, h'.mem_returned]
  | nested h => exact .of_outer h

end

theorem Syntax.Body.sameArguments_of_changed {body body' : Body} (h : EqvGen Body.Changed body body') :
    body.SameArguments body' := by
  induction h with
  | rel _ _ hchanged => exact hchanged.sameArguments
  | refl => exact fun _ => Iff.rfl
  | symm _ _ _ ih => exact ih.symm
  | trans _ _ _ _ _ ih ih' => exact ih.trans ih'

/-! ## Programs -/

/-- The indices hold the same types. What annotations, functions and classes they keep may differ. -/
structure Index.SameTypes (index index' : Index) : Prop where
  scopes : index'.scopes = index.scopes
  moduleScopes : index'.moduleScopes = index.moduleScopes
  decls : index'.decls = index.decls

namespace Index.SameTypes

variable {index index' : Index} {scope : ScopeId} {type : TypeExpr} {d : DeclId} {o : TypeOrigin}

theorem symm (h : index.SameTypes index') : index'.SameTypes index :=
  ⟨h.scopes.symm, h.moduleScopes.symm, h.decls.symm⟩

theorem sameScopes (h : index.SameTypes index') : index.SameScopes index' := ⟨h.scopes, h.moduleScopes⟩

theorem mentions_iff (h : index.SameTypes index') {names : List (List String)} :
    index'.Mentions scope names d ↔ index.Mentions scope names d := by
  simp only [Index.Mentions, h.sameScopes.lookup_eq]

theorem isAlias_iff (h : index.SameTypes index') :
    index'.IsAlias d scope type ↔ index.IsAlias d scope type := by
  simp only [Index.IsAlias, h.decls]

theorem declaresElement (h : index.SameTypes index') {decl : TypeDecl}
    (hd : index.DeclaresElement d decl) : index'.DeclaresElement d decl :=
  ⟨h.decls ▸ hd.found, hd.notAlias, h.sameScopes.scope_eq decl.scope ▸ hd.symbol⟩

theorem namesElement (h : index.SameTypes index') (ho : index.NamesElement scope type o) :
    index'.NamesElement scope type o := by
  induction ho with
  | builtin hname hm hnone => exact .builtin hname hm ((h.sameScopes.lookup_eq ..).trans hnone)
  | declared hname hm hdecl => exact .declared hname (h.mentions_iff.2 hm) (h.declaresElement hdecl)
  | onward hname hm halias _ ih =>
    exact .onward hname (h.mentions_iff.2 hm) (h.isAlias_iff.2 halias) ih

theorem namesElement_iff (h : index.SameTypes index') :
    index'.NamesElement scope type o ↔ index.NamesElement scope type o :=
  ⟨h.symm.namesElement, h.namesElement⟩

theorem returnsElement_iff (h : index.SameTypes index') (body : Body) :
    body.ReturnsElement index' scope ↔ body.ReturnsElement index scope := by
  simp only [Body.ReturnsElement, Expr.CastsToElement, h.namesElement_iff]

end Index.SameTypes

/-- Whether a function is inferred to return an element depends only on what it returns, as a set: not on
the order of its returns, on how often or where they are written, on returns of nothing, `null` or
`undefined`, or on the inside of the functions and classes in it; and not on what was asked before, or on
what else the program keeps. -/
theorem Program.infersElement_changed {program program' : Program}
    (hprogram : program.index.SameTypes program'.index) (queries queries' : List Query)
    (scope : ScopeId) (body body' : Body) :
    (body.SameArguments body' →
      (program.InfersElement queries scope body ↔ program'.InfersElement queries' scope body')) ∧
    (EqvGen Body.Changed body body' →
      (program.InfersElement queries scope body ↔ program'.InfersElement queries' scope body')) := by
  have hsame : body.SameArguments body' →
      (program.InfersElement queries scope body ↔ program'.InfersElement queries' scope body') := by
    intro h
    rw [infersElement_iff, infersElement_iff, hprogram.returnsElement_iff]
    exact h.returnsElement program.index scope
  exact ⟨hsame, fun h => hsame (Body.sameArguments_of_changed h)⟩

/-- An element that is returned in a branch may be returned behind it as well. -/
theorem Program.infersElement_changed_moved :
    let program : Program := ⟨[], Index.empty⟩
    let element := some (Expr.jsx [])
    let body := Body.block
      [.conditional (.identifier "x") (.returns element) .other, .returns (some .null)]
    let body' := Body.block
      [.conditional (.identifier "x") .other .other, .returns element, .returns (some .null)]
    program.index.SameTypes program.index ∧ EqvGen Body.Changed body body' ∧
      program.InfersElement [] globalScope body ∧ program.InfersElement [] globalScope body' := by
  intro program element body body'
  have hprogram : program.index.SameTypes program.index := ⟨rfl, rfl, rfl⟩
  have hmoved : EqvGen Body.Changed body body' :=
    .rel _ _ (.moved (.inside (.consequent .missing)) (.later .here))
  have hbody' : program.InfersElement [] globalScope body' :=
    ⟨⟨0⟩, by decide +kernel, by decide +kernel⟩
  have hsame := (Program.infersElement_changed hprogram [] [] globalScope body body').2 hmoved
  exact ⟨hprogram, hmoved, hsame.2 hbody', hbody'⟩

end ComponentSchema
