import ComponentSchema.Proofs.Binder.IndexChanges
import ComponentSchema.Proofs.Checker.QuerySteps
import ComponentSchema.Proofs.Comparison.RestatedDocuments

/-!
# The names of components

A function or a variable that is a component is published under the first alias that an export clause of
the same item list gives it, and under its own name if there is none. A function that is declared in an
`export default` is never given an alias: it keeps its name, or is called `default` if it has none.

Results.
* `lookup_exportAliases`: the alias that is looked up is the first one.
* `Binding.act_named`, `Binding.bindBody_named`: what is shown, act by act.
* `Modules.shown_names`: for all files of a program, in namespaces as well.
* `Modules.defaultFunction_keepsName`: a default function that an export clause names otherwise.
-/
namespace ComponentSchema

open Syntax

/-! ## Aliases -/

/-- The names, other than its own and `default`, under which an item exports a local name. -/
def Syntax.ItemKind.aliasesOf (name : String) : ItemKind → List String
  | .exportNamed none entries =>
    entries.filterMap fun entry =>
      match entry with
      | .named original (some exported) =>
        if original = name ∧ exported ≠ name ∧ exported ≠ defaultExportName then some exported else none
      | _ => none
  | _ => []

/-- The name that a function or a variable of an item list is published under. -/
def publishedName (items : List Item) (name : String) : String :=
  (items.flatMap (·.kind.aliasesOf name)).head?.getD name

theorem lookup_eq_head? {entries : List (String × String)} (name : String) :
    entries.lookup name =
      (entries.filterMap fun entry => if entry.1 = name then some entry.2 else none).head? := by
  induction entries with
  | nil => rfl
  | cons entry rest ih =>
    obtain ⟨key, value⟩ := entry
    rw [List.lookup_cons, List.filterMap_cons]
    by_cases hkey : key = name
    · simp [hkey]
    · have hne : (name == key) = false := beq_eq_false_iff_ne.2 (Ne.symm hkey)
      simp [hkey, hne, ih]

theorem filterMap_aliases (name : String) : ∀ kind : ItemKind,
    (kind.aliases.filterMap fun entry => if entry.1 = name then some entry.2 else none) =
      kind.aliasesOf name
  | .exportNamed none entries => by
    rw [ItemKind.aliases, ItemKind.aliasesOf, List.filterMap_filterMap]
    refine List.filterMap_congr fun entry _ => ?_
    rcases entry with ⟨original, _ | exported⟩ | exported
    · rfl
    · by_cases hname : original = name
      · by_cases hself : exported = name <;> by_cases hdefault : exported = defaultExportName <;>
          simp [hname, hself, hdefault]
      · by_cases hother : exported ≠ original ∧ exported ≠ defaultExportName <;> simp [hname, hother]
    · rfl
  | .exportNamed (some _) _ | .statement _ | .declaration _ | .exportDecl _ | .exportDefaultFunction ..
  | .exportDefaultClass .. | .exportDefaultInterface .. | .exportDefaultExpr _ | .imports .. | .exportAll _
  | .otherModule => rfl

/-- The alias of a name is the first that it is given. -/
theorem lookup_exportAliases (items : List Item) (name : String) :
    (exportAliases items).lookup name = (items.flatMap (·.kind.aliasesOf name)).head? := by
  rw [lookup_eq_head?, exportAliases, List.filterMap_flatMap]
  simp only [filterMap_aliases]

/-! ## Names of declarations -/

/-- A declaration of a view, by its names. -/
inductive Named where
  /-- A function or a variable, by the name that it is published under. -/
  | leaf (name : String)
  | classDecl (name : Option String)
  | namespaceDecl (name : String) (body : List Named)

mutual

def Declaration.named : Declaration → Named
  | .funDecl declaration => .leaf (Declaration.funDecl declaration).publicName
  | .varDecl declaration => .leaf (Declaration.varDecl declaration).publicName
  | .classDecl declaration => .classDecl declaration.name
  | .namespaceDecl name _ body => .namespaceDecl name (Declaration.namedAll body)

def Declaration.namedAll : List Declaration → List Named
  | [] => []
  | declaration :: rest => declaration.named :: Declaration.namedAll rest

end

mutual

/-- What a view shows of a declaration that stands in an item list. -/
def Syntax.Decl.named (items : List Item) : Decl → List Named
  | .function name _ => [.leaf (publishedName items name)]
  | .variables declarators =>
    declarators.filterMap fun declarator =>
      declarator.name.map fun name => .leaf (publishedName items name)
  | .classDecl name _ => [.classDecl (some name)]
  | .namespaceDecl .global body => [.namespaceDecl "global" body.named]
  | .namespaceDecl (.identifier name) body => [.namespaceDecl name body.named]
  | .namespaceDecl (.string name) body => [.namespaceDecl name body.named]
  | _ => []

/-- What a view shows of the body of a namespace. -/
def Syntax.NamespaceBody.named : NamespaceBody → List Named
  | .absent => []
  | .nested name body => [.namespaceDecl name body.named]
  | .items items => namedItems items items

/-- What a view shows of some items of an item list. -/
def Syntax.namedItems (items : List Item) : List Item → List Named
  | [] => []
  | item :: rest => item.named items ++ namedItems items rest

/-- What a view shows of an item of an item list. -/
def Syntax.Item.named (items : List Item) : Item → List Named
  | ⟨_, .declaration decl⟩ => decl.named items
  | ⟨_, .exportDecl decl⟩ => decl.named items
  | ⟨_, .exportDefaultFunction name _⟩ => [.leaf (name.getD defaultExportName)]
  | ⟨_, .exportDefaultClass name _⟩ => [.classDecl name]
  | _ => []

end

/-! ## Binding -/

namespace Binding

variable {α β : Type} {Q : α → Prop} {R : β → Prop}

/-- Whatever has been bound before, `Q` holds of the answer. -/
def Gives (step : Binding α) (Q : α → Prop) : Prop := ∀ index, Q (step.run index).1

theorem Gives.pure {answer : α} (h : Q answer) : Gives (Pure.pure answer) Q := fun _ => h

theorem Gives.bind {first : Binding α} {next : α → Binding β} (h : Gives first Q)
    (hnext : ∀ answer, Q answer → Gives (next answer) R) : Gives (first >>= next) R :=
  fun index => hnext _ (h index) _

theorem Gives.after {first : Binding α} {next : α → Binding β} (hnext : ∀ answer, Gives (next answer) R) :
    Gives (first >>= next) R :=
  fun _ => hnext _ _

variable {items : List Item}

theorem getD_own (name : String) (given : Option String) :
    ((given <|> some name).getD defaultExportName) = given.getD name := by
  cases given <;> rfl

theorem namedAll_append (declarations others : List Declaration) :
    Declaration.namedAll (declarations ++ others) =
      Declaration.namedAll declarations ++ Declaration.namedAll others := by
  induction declarations with
  | nil => rfl
  | cons declaration rest ih => rw [List.cons_append, Declaration.namedAll, ih]; rfl

/-- What the view of an act shows. -/
def Act.named : Act → List Named
  | .function name exportAlias _ _ => [.leaf ((exportAlias <|> name).getD defaultExportName)]
  | .declarator aliases _ written =>
    (written.name.map fun name => .leaf ((aliases.lookup name).getD name)).toList
  | .classView name .. => [.classDecl name]
  | _ => []

theorem act_named (file : ModuleFile) (x : ScopeId) (act : Act) :
    Gives (act.bind file x) fun views => Declaration.namedAll views = act.named := by
  cases act with
  | function => exact .after fun _ => .pure rfl
  | declarator aliases exported written =>
    obtain ⟨_ | name, type, value⟩ := written
    · exact .pure rfl
    · have hview : Gives (variableDecl x exported aliases ⟨some name, type, value⟩) fun view =>
          ∃ value node, view = some (.varDecl ⟨name, aliases.lookup name, exported, value, node⟩) := by
        refine .after fun node => ?_
        cases value with
        | none => exact .pure ⟨_, _, rfl⟩
        | some value => exact .after fun _ => .pure ⟨_, _, rfl⟩
      exact hview.bind fun _ ⟨_, _, heq⟩ => .pure (heq ▸ rfl)
  | classView name members exported leading =>
    have hview : Gives (Binding.classView name members exported leading) fun view =>
        view.named = .classDecl name := .after fun _ => .pure rfl
    refine hview.bind fun view hview => .pure ?_
    rw [Declaration.namedAll, hview]
    rfl
  | nominal | typeAlias | interface | exportDefault | imports | clause => exact .after fun _ => .pure rfl

/-- Whatever is bound shows the names that it is written with. -/
def naming : Judgement where
  Account := List Named
  Holds _ _ step _ names := Gives step fun views => Declaration.namedAll views = names
  nothing := []
  both names names' := names ++ names'
  within name _ names := [.namespaceDecl name.shown names]
  holds_nothing := .pure rfl
  holds_both h h' := h.bind fun views hviews => h'.bind fun others hothers =>
    .pure (by rw [namedAll_append, hviews, hothers])
  holds_within h := .after fun inner => (h inner inner).bind fun views hviews =>
    .pure (by rw [Declaration.namedAll, Declaration.named, hviews]; rfl)

theorem acts_named (file : ModuleFile) (acts : List Act) (x : ScopeId) :
    Gives (bindActs file x acts) fun views => Declaration.namedAll views = acts.flatMap Act.named := by
  have hacts : naming.Holds x x (bindActs file x acts) (bindActs file x acts)
      (naming.ofActs Act.named acts) :=
    Judgement.holds_acts (fun act x _ => act_named file x act) acts x x
  exact Judgement.foldr_append Act.named acts ▸ hacts

theorem named_of_decl {decl : Decl} {items : List Item} {exported : Bool} {leading : List Comment}
    {acts : List Act} (h : decl.acts? (exportAliases items) exported leading = some acts) :
    acts.flatMap Act.named = decl.named items := by
  cases decl with
  | function name =>
    cases h
    simp only [List.flatMap_cons, List.flatMap_nil, List.append_nil, Act.named, getD_own,
      lookup_exportAliases]
    rfl
  | «variables» declarators =>
    cases h
    simp only [List.flatMap_map, Act.named, lookup_exportAliases]
    exact (List.filterMap_eq_flatMap_toList ..).symm
  | namespaceDecl => cases h
  | _ =>
    cases h
    rfl

theorem named_of_item {item : Item} {acts : List Act} (h : item.acts? = some acts) (items : List Item) :
    acts.flatMap Act.named = item.named items := by
  obtain ⟨leading, kind⟩ := item
  cases kind with
  | declaration | exportDecl => cases h
  | exportDefaultClass name => cases name <;> cases h <;> rfl
  | exportDefaultExpr value => cases value <;> cases h <;> rfl
  | _ =>
    cases h
    rfl

/-- Each piece of syntax beside itself, with the names that it is given in its item list. -/
def namingCorrespondence (file : ModuleFile) : naming.Correspondence file file where
  Decls aliases _ _ decl decl' names :=
    decl = decl' ∧ ∃ items, aliases = exportAliases items ∧ names = decl.named items
  Bodies body body' names := body = body' ∧ names = body.named
  Lists aliases part part' names :=
    part = part' ∧ ∃ items, aliases = exportAliases items ∧ names = namedItems items part
  Items aliases item item' names :=
    item = item' ∧ ∃ items, aliases = exportAliases items ∧ names = item.named items
  decl_cases := by
    rintro _ exported leading decl _ _ ⟨rfl, items, rfl, rfl⟩
    rcases hacts : decl.acts? (exportAliases items) exported leading with _ | acts
    · cases decl with
      | namespaceDecl name body => exact .namespaceDecl ⟨rfl, rfl⟩ (.of_eq (by cases name <;> rfl))
      | _ => cases hacts
    · exact .of_acts hacts hacts fun x _ => named_of_decl hacts ▸ acts_named file acts x
  body_cases := by
    rintro body _ _ ⟨rfl, rfl⟩
    cases body with
    | absent => exact .absent (.of_eq rfl)
    | nested name body => exact .nested ⟨rfl, rfl⟩ (.of_eq rfl)
    | items items =>
      have hclauses : (clauseActs items).flatMap Act.named = [] := by simp [clauseActs, Act.named]
      exact .items (fun x _ => hclauses ▸ acts_named file _ x) rfl ⟨rfl, items, rfl, rfl⟩ (.of_eq rfl)
  list_cases := by
    rintro _ part _ _ ⟨rfl, items, rfl, rfl⟩
    cases part with
    | nil => exact .nil (.of_eq rfl)
    | cons item rest => exact .cons ⟨rfl, items, rfl, rfl⟩ ⟨rfl, items, rfl, rfl⟩ (.of_eq rfl)
  item_cases := by
    rintro _ item _ _ ⟨rfl, items, rfl, rfl⟩
    rcases hacts : item.acts? with _ | acts
    · obtain ⟨leading, kind⟩ := item
      cases kind with
      | declaration => exact .declaration ⟨rfl, items, rfl, rfl⟩ (.of_eq rfl)
      | exportDecl => exact .exportDecl ⟨rfl, items, rfl, rfl⟩ (.of_eq rfl)
      | exportDefaultClass name => cases name <;> cases hacts
      | exportDefaultExpr value => cases value <;> cases hacts
      | _ => cases hacts
    · exact .of_acts hacts hacts fun x _ => named_of_item hacts items ▸ acts_named file acts x

theorem bindBody_named (file : ModuleFile) (body : NamespaceBody) (x : ScopeId) :
    Gives (bindBody file x body) fun views => Declaration.namedAll views = body.named :=
  (namingCorrespondence file).bindBody body ⟨rfl, rfl⟩ x x

/-! ## Files -/

theorem Gives.mapM {ι γ : Type} {step : ι → Binding α} {shown : α → γ} {written : ι → γ}
    (hstep : ∀ item, Gives (step item) fun answer => shown answer = written item) (items : List ι) :
    Gives (items.mapM step) fun answers => answers.map shown = items.map written := by
  induction items with
  | nil => exact .pure rfl
  | cons item rest ih =>
    rw [List.mapM_cons]
    refine (hstep item).bind fun answer hanswer => ih.bind fun answers hanswers => .pure ?_
    rw [List.map_cons, List.map_cons, hanswer, hanswers]

theorem bindEntry_named (entry : ModuleId × ModuleFile) :
    Gives (bindEntry entry) fun file => (file.path, Declaration.namedAll file.declarations) =
      (entry.2.path.text, namedItems entry.2.tree.items entry.2.tree.items) := by
  refine .after fun index => ?_
  refine (bindBody_named entry.2 (.items entry.2.tree.items) _).bind fun views hviews => .pure ?_
  rw [hviews]
  rfl

end Binding

/-- A component is published under the name that the view shows. -/
theorem TypeFacts.classify_named (facts : TypeFacts Resolve) {declaration : Declaration} {a : Arena}
    {candidate : Candidate} (h : ((facts.classify declaration).run a).1 = some candidate) :
    declaration.named = .leaf candidate.name := by
  unfold TypeFacts.classify at h
  rcases hsignature : declaration.signature? with _ | signature
  · rw [hsignature] at h
    cases h
  · rw [hsignature] at h
    have hname : candidate.name = declaration.publicName := by
      simp only [StateT.run_bind] at h
      generalize (facts.isComponent signature).run a = found at h
      obtain ⟨_ | _, b⟩ := found
      · cases h
      · obtain rfl := Option.some.inj h
        rfl
    rw [hname]
    cases declaration with
    | funDecl | varDecl => rfl
    | namespaceDecl | classDecl => cases hsignature

/-- In every file, and in the namespaces in it, functions and variables are shown under the first alias
that an export clause of their item list gives them, or under their own names; a default function is
shown under its own name, or as `default`. What is a component is published under the name that is
shown. -/
theorem Modules.shown_names (modules : Modules) :
    modules.bind.1.map (fun file => (file.path, Declaration.namedAll file.declarations)) =
      modules.bound.map (fun entry =>
        (entry.2.path.text, namedItems entry.2.tree.items entry.2.tree.items)) ∧
    ∀ (declaration : Declaration) (a : Arena) (candidate : Candidate),
      ((modules.program.facts.classify declaration).run a).1 = some candidate →
        declaration.named = .leaf candidate.name := by
  refine ⟨?_, fun declaration a candidate h => TypeFacts.classify_named _ h⟩
  rw [bind_eq]
  exact Binding.Gives.mapM Binding.bindEntry_named modules.bound _

/-! ## Default functions -/

/-- The name that a function or a variable is declared with. -/
def Declaration.ownName? : Declaration → Option String
  | .funDecl declaration => declaration.name
  | .varDecl declaration => some declaration.name
  | _ => none

/-- A default function that an export clause gives another name. -/
def aliasTree : FileTree where
  entries := [(["a.tsx"], .file ("export default function N() \x7b return <div />; \x7d\n" ++
    "export \x7b N as A \x7d;\n"))]
  current := []

/-- The names of the declarations of a program, and those that they are published under as components. -/
def Modules.namesOfComponents (modules : Modules) :
    List (String × List (Option String × Option String)) :=
  modules.bind.1.map fun file => (file.path, file.declarations.map fun declaration =>
    (declaration.ownName?,
      ((modules.program.facts.classify declaration).run (modules.program.after [])).1.map (·.name)))

set_option maxRecDepth 100000 in
theorem bound_aliasTree : (Modules.load aliasTree [⟨"a.tsx"⟩]).toOption.map (fun modules =>
      modules.bound.map fun entry => (entry.2.path.text, publishedName entry.2.tree.items "N")) =
    some [("a.tsx", "A")] := by
  decide +kernel

set_option maxRecDepth 100000 in
theorem names_aliasTree :
    (Modules.load aliasTree [⟨"a.tsx"⟩]).toOption.map Modules.namesOfComponents =
      some [("a.tsx", [(some "N", some "N")])] := by
  decide +kernel

/-- The default function is published under its own name. -/
theorem Modules.defaultFunction_keepsName : ¬ ∀ (tree : FileTree) (roots : List Path) (modules : Modules),
    Modules.load tree roots = .ok modules → ∀ entry ∈ modules.bound, ∀ file ∈ modules.bind.1,
      file.path = entry.2.path.text → ∀ declaration ∈ file.declarations, ∀ name,
        declaration.ownName? = some name → ∀ queries candidate,
          ((modules.program.facts.classify declaration).run (modules.program.after queries)).1 =
            some candidate → candidate.name = publishedName entry.2.tree.items name := by
  intro hclaim
  have hbound := bound_aliasTree
  have hnames := names_aliasTree
  rcases hload : Modules.load aliasTree [⟨"a.tsx"⟩] with error | modules
  · rw [hload] at hnames
    cases hnames
  · rw [hload] at hbound hnames
    obtain ⟨entry, hentries, hentry⟩ := List.map_eq_singleton_iff.1 (Option.some.inj hbound)
    obtain ⟨file, hviews, hfile⟩ := List.map_eq_singleton_iff.1 (Option.some.inj hnames)
    obtain ⟨hpath, halias⟩ := Prod.mk.inj hentry
    obtain ⟨hpath', hshown⟩ := Prod.mk.inj hfile
    obtain ⟨declaration, hdeclarations, hdeclaration⟩ := List.map_eq_singleton_iff.1 hshown
    obtain ⟨hown, hfound⟩ := Prod.mk.inj hdeclaration
    obtain ⟨candidate, hcandidate, hname⟩ := Option.map_eq_some_iff.1 hfound
    have hpublished := hclaim _ _ modules hload entry (by simp [hentries]) file (by simp [hviews])
      (hpath'.trans hpath.symm) declaration (by simp [hdeclarations]) "N" hown [] candidate hcandidate
    rw [hname, halias] at hpublished
    exact absurd hpublished (by decide)

end ComponentSchema
