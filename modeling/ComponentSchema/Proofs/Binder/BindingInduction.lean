import ComponentSchema.Program.Binding

/-!
# Induction on what is bound

What binding does to an index comes down to a few kinds of acts on one scope, and to entering namespaces:
`Decl.acts?` and `Item.acts?` say which acts a declaration or an item comes to, if it has no items in it.

A `Judgement` is about what is bound from two files side by side, with a rule for one list of views after
the other and a rule for namespaces. What it has to say is held in an account: what is added, which names
must be free, or nothing at all. A judgement about one file takes no notice of the second.

A `Correspondence` tells which pieces of syntax may be bound side by side, and under which account. In most
cases they are the same on both sides; then the accounts follow from those of the acts (`Ledger`).

Results.
* `bindDecl_eq_bindActs`, `bindItem_eq_bindActs`: binding, act by act.
* `Correspondence.bindDecl`, `Correspondence.bindBody`, `Correspondence.bindItems`,
  `Correspondence.bindItem`: what corresponds is bound as its account says, by induction on the syntax.
-/
namespace ComponentSchema

open Syntax

/-! ## Acts -/

/-- One thing that binding does in a scope. -/
inductive Binding.Act where
  | function (name exportAlias : Option String) (exported : Bool) (definition : Function)
  | declarator (aliases : List (String × String)) (exported : Bool) (written : Declarator)
  | classView (name : Option String) (members : List ClassMember) (exported : Bool)
    (leading : List Comment)
  | nominal (name : String) (exported : Bool)
  | typeAlias (name : String) (type : TypeExpr) (exported : Bool)
  | interface (name : String) (members : List TypeMember) (exported : Bool)
  | exportDefault (name : String)
  | imports (source : StringLiteral) (specifiers : List ImportSpecifier)
  | clause (kind : ItemKind)

open Binding (Act)

/-- The acts that a declaration comes to; those of a namespace are in its body. -/
def Syntax.Decl.acts? (aliases : List (String × String)) (exported : Bool) (leading : List Comment) :
    Decl → Option (List Act)
  | .function name definition => some [.function (some name) (aliases.lookup name) exported definition]
  | .variables declarators => some (declarators.map (.declarator aliases exported))
  | .classDecl name members =>
    some [.nominal name exported, .classView (some name) members exported leading]
  | .interface name members => some [.interface name members exported]
  | .typeAlias name type => some [.typeAlias name type exported]
  | .enum name => some [.nominal name exported]
  | .namespaceDecl _ _ => none
  | .other => some []

/-- The acts that an item comes to, its export clause apart; those of a declaration are its own. -/
def Syntax.Item.acts? : Item → Option (List Act)
  | ⟨_, .declaration _⟩ | ⟨_, .exportDecl _⟩ => none
  | ⟨_, .exportDefaultFunction name definition⟩ => some [.function name none true definition]
  | ⟨leading, .exportDefaultClass none members⟩ => some [.classView none members true leading]
  | ⟨leading, .exportDefaultClass (some name) members⟩ =>
    some [.nominal name false, .exportDefault name, .classView (some name) members true leading]
  | ⟨_, .exportDefaultInterface name members⟩ =>
    some [.interface name members false, .exportDefault name]
  | ⟨_, .exportDefaultExpr (.identifier name)⟩ => some [.exportDefault name]
  | ⟨_, .imports source specifiers⟩ => some [.imports source specifiers]
  | _ => some []

/-- The acts that the export clauses among some items come to. -/
def Syntax.clauseActs (items : List Item) : List Act := items.map fun item => .clause item.kind

/-- The name that the view of a namespace shows. -/
def Syntax.NamespaceName.shown : NamespaceName → String
  | .identifier name | .string name => name
  | .global => "global"

namespace Binding

/-- One list of views after the other. -/
def andThen (first second : Binding (List Declaration)) : Binding (List Declaration) := do
  return (← first) ++ (← second)

/-- The view that an act makes, if it makes one. -/
def Act.bind (file : ModuleFile) (scope : ScopeId) : Act → Binding (List Declaration)
  | .function name exportAlias exported definition => do
    let signature ← Binding.function scope definition
    pure [.funDecl ⟨name, exportAlias, exported, signature⟩]
  | .declarator aliases exported written => do
    let view ← variableDecl scope exported aliases written
    pure view.toList
  | .classView name members exported leading => do
    let view ← Binding.classView name members exported leading
    pure [view]
  | .nominal name exported => do
    declare scope name .nominal exported
    pure []
  | .typeAlias name type exported => do
    declare scope name (.typeAlias type) exported
    pure []
  | .interface name members exported => do
    declareInterface scope name members exported
    pure []
  | .exportDefault name => do
    addExport scope defaultExportName (.own name)
    pure []
  | .imports source specifiers => do
    bindImport file scope source specifiers
    pure []
  | .clause kind => do
    bindExportClause file scope kind
    pure []

/-- The views that acts make, one after the other. -/
def bindActs (file : ModuleFile) (scope : ScopeId) : List Act → Binding (List Declaration)
  | [] => pure []
  | act :: rest => andThen (act.bind file scope) (bindActs file scope rest)

/-- The scope in which the body of a namespace is bound. -/
def enter (scope : ScopeId) (exported : Bool) : NamespaceName → Binding ScopeId
  | .identifier name => namespaceScope scope name exported
  | .string name => newScope (some name) (some scope)
  | .global => pure globalScope

/-- The view of a namespace, given how its body is bound in its scope. -/
def inNamespace (scope : ScopeId) (name : NamespaceName) (exported : Bool)
    (inside : ScopeId → Binding (List Declaration)) : Binding (List Declaration) := do
  let inner ← enter scope exported name
  let declarations ← inside inner
  pure [.namespaceDecl name.shown exported declarations]

section

variable (file : ModuleFile) (aliases : List (String × String)) (scope : ScopeId) (exported : Bool)
  (leading : List Comment)

theorem bindActs_variables (declarators : List Declarator) :
    bindActs file scope (declarators.map (.declarator aliases exported)) =
      declarators.mapM (variableDecl scope exported aliases) >>= fun views =>
        pure (views.filterMap id) := by
  induction declarators with
  | nil => rfl
  | cons declarator rest ih =>
    simp only [List.map_cons, bindActs, ih, andThen, Act.bind, List.mapM_cons, bind_assoc, pure_bind]
    refine bind_congr fun view => bind_congr fun views => ?_
    cases view <;> rfl

/-- A declaration that is no namespace is bound by its acts. -/
theorem bindDecl_eq_bindActs {decl : Decl} {acts : List Act}
    (h : decl.acts? aliases exported leading = some acts) :
    bindDecl file aliases scope exported leading decl = bindActs file scope acts := by
  cases decl with
  | «variables» =>
    cases h
    rw [bindActs_variables, bindDecl]
  | namespaceDecl => cases h
  | _ =>
    cases h
    simp only [bindDecl, bindActs, andThen, Act.bind, bind_assoc, pure_bind, List.nil_append,
      List.cons_append]

/-- A namespace is bound by its body. -/
theorem bindDecl_eq_inNamespace (name : NamespaceName) (body : NamespaceBody) :
    bindDecl file aliases scope exported leading (.namespaceDecl name body) =
      inNamespace scope name exported fun inner => bindBody file inner body := by
  cases name <;> simp only [bindDecl, inNamespace, enter, pure_bind] <;> rfl

theorem bindBody_eq_inNamespace (name : String) (body : NamespaceBody) :
    bindBody file scope (.nested name body) =
      inNamespace scope (.identifier name) true fun inner => bindBody file inner body := by
  simp only [bindBody]
  rfl

theorem bindActs_clauses (items : List Item) : bindActs file scope (clauseActs items) =
    (items.forM fun item => bindExportClause file scope item.kind) >>= fun _ => pure [] := by
  induction items with
  | nil => rfl
  | cons item rest ih =>
    rw [clauseActs] at ih
    simp only [clauseActs, List.map_cons, bindActs, ih, andThen, Act.bind, bind_assoc, pure_bind,
      List.nil_append]
    exact (bind_assoc _ _ _).symm

/-- The export clauses of a body come first. -/
theorem bindBody_eq_andThen (items : List Item) : bindBody file scope (.items items) =
    andThen (bindActs file scope (clauseActs items))
      (bindItems file (exportAliases items) scope items) := by
  simp only [bindBody, bindActs_clauses, andThen, bind_assoc, pure_bind, List.nil_append, bind_pure]

theorem bindItems_eq_andThen (item : Item) (rest : List Item) :
    bindItems file aliases scope (item :: rest) =
      andThen (bindItem file aliases scope item) (bindItems file aliases scope rest) := by
  simp only [bindItems]
  rfl

/-- An item that is no declaration is bound by its acts. -/
theorem bindItem_eq_bindActs {item : Item} {acts : List Act} (h : item.acts? = some acts) :
    bindItem file aliases scope item = bindActs file scope acts := by
  obtain ⟨leading, kind⟩ := item
  cases kind with
  | declaration | exportDecl => cases h
  | exportDefaultClass name =>
    cases name <;> cases h <;> simp only [bindItem, bindActs, andThen, Act.bind, bind_assoc, pure_bind,
      List.nil_append, List.cons_append]
  | exportDefaultExpr value =>
    cases value <;> cases h <;> simp only [bindItem, bindActs, andThen, Act.bind, bind_assoc, pure_bind,
      List.nil_append]
  | _ =>
    cases h
    simp only [bindItem, bindActs, andThen, Act.bind, bind_assoc, pure_bind, List.nil_append,
      List.cons_append]

end

/-! ## Judgements -/

/-- What is said of views that are bound in a scope each, from two files side by side. -/
structure Judgement where
  Account : Type
  Holds : ScopeId → ScopeId → Binding (List Declaration) → Binding (List Declaration) → Account → Prop
  nothing : Account
  both : Account → Account → Account
  within : NamespaceName → Bool → Account → Account
  holds_nothing : ∀ {x y}, Holds x y (pure []) (pure []) nothing
  holds_both : ∀ {x y first first' second second' account account'}, Holds x y first first' account →
    Holds x y second second' account' →
      Holds x y (andThen first second) (andThen first' second') (both account account')
  holds_within : ∀ {x y name exported inside inside' account},
    (∀ inner inner', Holds inner inner' (inside inner) (inside' inner') account) →
      Holds x y (inNamespace x name exported inside) (inNamespace y name exported inside')
        (within name exported account)

namespace Judgement

variable (j : Judgement)

/-- What one account says, another one does. -/
def Implies (account account' : j.Account) : Prop :=
  ∀ x y first second, j.Holds x y first second account → j.Holds x y first second account'

variable {j}

theorem Implies.of_eq {account account' : j.Account} (h : account = account') :
    j.Implies account account' := fun _ _ _ _ hholds => h ▸ hholds

variable (j)

/-! ## Syntax that is bound side by side -/

section

variable (file file' : ModuleFile)

/-- How two declarations correspond: by what is bound of them, or as namespaces. -/
inductive DeclCase (Bodies : NamespaceBody → NamespaceBody → j.Account → Prop)
    (aliases : List (String × String)) (exported : Bool) (leading : List Comment) :
    Decl → Decl → j.Account → Prop
  | leaf {decl decl' : Decl} {account : j.Account} :
    (∀ x y, j.Holds x y (bindDecl file aliases x exported leading decl)
      (bindDecl file' aliases y exported leading decl') account) →
      DeclCase Bodies aliases exported leading decl decl' account
  | namespaceDecl {name : NamespaceName} {body body' : NamespaceBody} {inner account : j.Account} :
    Bodies body body' inner → j.Implies (j.within name exported inner) account →
      DeclCase Bodies aliases exported leading (.namespaceDecl name body) (.namespaceDecl name body')
        account

/-- How the bodies of two namespaces correspond. -/
inductive BodyCase (Bodies : NamespaceBody → NamespaceBody → j.Account → Prop)
    (Lists : List (String × String) → List Item → List Item → j.Account → Prop) :
    NamespaceBody → NamespaceBody → j.Account → Prop
  | absent {account : j.Account} : j.Implies j.nothing account → BodyCase Bodies Lists .absent .absent account
  | nested {name : String} {body body' : NamespaceBody} {inner account : j.Account} :
    Bodies body body' inner → j.Implies (j.within (.identifier name) true inner) account →
      BodyCase Bodies Lists (.nested name body) (.nested name body') account
  | items {items items' : List Item} {clauses others account : j.Account} :
    (∀ x y, j.Holds x y (bindActs file x (clauseActs items)) (bindActs file' y (clauseActs items'))
      clauses) → exportAliases items = exportAliases items' →
        Lists (exportAliases items) items items' others → j.Implies (j.both clauses others) account →
          BodyCase Bodies Lists (.items items) (.items items') account

/-- How two lists of items correspond: one by one. -/
inductive ListCase (Items : Item → Item → j.Account → Prop)
    (Lists : List Item → List Item → j.Account → Prop) : List Item → List Item → j.Account → Prop
  | nil {account : j.Account} : j.Implies j.nothing account → ListCase Items Lists [] [] account
  | cons {item item' : Item} {rest rest' : List Item} {first others account : j.Account} :
    Items item item' first → Lists rest rest' others → j.Implies (j.both first others) account →
      ListCase Items Lists (item :: rest) (item' :: rest') account

/-- How two items correspond: by what is bound of them, or as declarations. -/
inductive ItemCase (Decls : Bool → List Comment → Decl → Decl → j.Account → Prop)
    (aliases : List (String × String)) : Item → Item → j.Account → Prop
  | leaf {item item' : Item} {account : j.Account} :
    (∀ x y, j.Holds x y (bindItem file aliases x item) (bindItem file' aliases y item') account) →
      ItemCase Decls aliases item item' account
  | declaration {leading : List Comment} {decl decl' : Decl} {inner account : j.Account} :
    Decls false leading decl decl' inner → j.Implies inner account →
      ItemCase Decls aliases ⟨leading, .declaration decl⟩ ⟨leading, .declaration decl'⟩ account
  | exportDecl {leading : List Comment} {decl decl' : Decl} {inner account : j.Account} :
    Decls true leading decl decl' inner → j.Implies inner account →
      ItemCase Decls aliases ⟨leading, .exportDecl decl⟩ ⟨leading, .exportDecl decl'⟩ account

/-- Which pieces of syntax may be bound side by side, and under which account. -/
structure Correspondence where
  Decls : List (String × String) → Bool → List Comment → Decl → Decl → j.Account → Prop
  Bodies : NamespaceBody → NamespaceBody → j.Account → Prop
  Lists : List (String × String) → List Item → List Item → j.Account → Prop
  Items : List (String × String) → Item → Item → j.Account → Prop
  decl_cases : ∀ {aliases exported leading decl decl' account},
    Decls aliases exported leading decl decl' account →
      j.DeclCase file file' Bodies aliases exported leading decl decl' account
  body_cases : ∀ {body body' account}, Bodies body body' account →
    j.BodyCase file file' Bodies Lists body body' account
  list_cases : ∀ {aliases items items' account}, Lists aliases items items' account →
    j.ListCase (Items aliases) (Lists aliases) items items' account
  item_cases : ∀ {aliases item item' account}, Items aliases item item' account →
    j.ItemCase file file' (Decls aliases) aliases item item' account

end

namespace Correspondence

variable {j} {file file' : ModuleFile} (c : j.Correspondence file file')

mutual

theorem bindDecl : ∀ (decl : Decl) {decl' : Decl} {aliases : List (String × String)} {exported : Bool}
    {leading : List Comment} {account : j.Account}, c.Decls aliases exported leading decl decl' account →
      ∀ x y, j.Holds x y (Binding.bindDecl file aliases x exported leading decl)
        (Binding.bindDecl file' aliases y exported leading decl') account
  | .namespaceDecl name body, _, _, _, _, _, h, x, y => by
    cases c.decl_cases h with
    | leaf hleaf => exact hleaf x y
    | namespaceDecl hbody himplies =>
      rw [bindDecl_eq_inNamespace, bindDecl_eq_inNamespace]
      exact himplies _ _ _ _ (j.holds_within fun inner inner' => bindBody body hbody inner inner')
  | .function _ _, _, _, _, _, _, h, x, y | .variables _, _, _, _, _, _, h, x, y
  | .classDecl _ _, _, _, _, _, _, h, x, y | .interface _ _, _, _, _, _, _, h, x, y
  | .typeAlias _ _, _, _, _, _, _, h, x, y | .enum _, _, _, _, _, _, h, x, y
  | .other, _, _, _, _, _, h, x, y => by
    cases c.decl_cases h with
    | leaf hleaf => exact hleaf x y

theorem bindBody : ∀ (body : NamespaceBody) {body' : NamespaceBody} {account : j.Account},
    c.Bodies body body' account →
      ∀ x y, j.Holds x y (Binding.bindBody file x body) (Binding.bindBody file' y body') account
  | .absent, _, _, h, x, y => by
    cases c.body_cases h with
    | absent himplies =>
      simp only [Binding.bindBody]
      exact himplies _ _ _ _ j.holds_nothing
  | .nested name body, _, _, h, x, y => by
    cases c.body_cases h with
    | nested hbody himplies =>
      rw [bindBody_eq_inNamespace, bindBody_eq_inNamespace]
      exact himplies _ _ _ _ (j.holds_within fun inner inner' => bindBody body hbody inner inner')
  | .items items, _, _, h, x, y => by
    cases c.body_cases h with
    | items hclauses haliases hitems himplies =>
      rw [bindBody_eq_andThen, bindBody_eq_andThen, ← haliases]
      exact himplies _ _ _ _ (j.holds_both (hclauses x y) (bindItems items hitems x y))

theorem bindItems : ∀ (items : List Item) {items' : List Item} {aliases : List (String × String)}
    {account : j.Account}, c.Lists aliases items items' account →
      ∀ x y, j.Holds x y (Binding.bindItems file aliases x items)
        (Binding.bindItems file' aliases y items') account
  | [], _, _, _, h, x, y => by
    cases c.list_cases h with
    | nil himplies =>
      simp only [Binding.bindItems]
      exact himplies _ _ _ _ j.holds_nothing
  | item :: rest, _, _, _, h, x, y => by
    cases c.list_cases h with
    | cons hitem hrest himplies =>
      rw [bindItems_eq_andThen, bindItems_eq_andThen]
      exact himplies _ _ _ _ (j.holds_both (bindItem item hitem x y) (bindItems rest hrest x y))

theorem bindItem : ∀ (item : Item) {item' : Item} {aliases : List (String × String)}
    {account : j.Account}, c.Items aliases item item' account →
      ∀ x y, j.Holds x y (Binding.bindItem file aliases x item)
        (Binding.bindItem file' aliases y item') account
  | ⟨leading, kind⟩, _, _, _, h, x, y => by
    cases c.item_cases h with
    | leaf hleaf => exact hleaf x y
    | declaration hdecl himplies =>
      simp only [Binding.bindItem]
      exact himplies _ _ _ _ (bindDecl _ hdecl x y)
    | exportDecl hdecl himplies =>
      simp only [Binding.bindItem]
      exact himplies _ _ _ _ (bindDecl _ hdecl x y)

end

end Correspondence

/-! ## The same syntax on both sides -/

/-- The account of several acts. -/
def ofActs (ofAct : Act → j.Account) (acts : List Act) : j.Account :=
  acts.foldr (fun act account => j.both (ofAct act) account) j.nothing

section

variable {j} {file file' : ModuleFile} {ofAct : Act → j.Account} {acts acts' : List Act}
  {account : j.Account}

/-- Declarations whose acts are bound side by side. -/
theorem DeclCase.of_acts {Bodies : NamespaceBody → NamespaceBody → j.Account → Prop}
    {aliases : List (String × String)} {exported : Bool} {leading : List Comment} {decl decl' : Decl}
    (hacts : decl.acts? aliases exported leading = some acts)
    (hacts' : decl'.acts? aliases exported leading = some acts')
    (h : ∀ x y, j.Holds x y (bindActs file x acts) (bindActs file' y acts') account) :
    j.DeclCase file file' Bodies aliases exported leading decl decl' account := by
  refine .leaf fun x y => ?_
  rw [bindDecl_eq_bindActs _ _ _ _ _ hacts, bindDecl_eq_bindActs _ _ _ _ _ hacts']
  exact h x y

/-- Items whose acts are bound side by side. -/
theorem ItemCase.of_acts {Decls : Bool → List Comment → Decl → Decl → j.Account → Prop}
    {aliases : List (String × String)} {item item' : Item} (hacts : item.acts? = some acts)
    (hacts' : item'.acts? = some acts')
    (h : ∀ x y, j.Holds x y (bindActs file x acts) (bindActs file' y acts') account) :
    j.ItemCase file file' Decls aliases item item' account := by
  refine .leaf fun x y => ?_
  rw [bindItem_eq_bindActs _ _ _ hacts, bindItem_eq_bindActs _ _ _ hacts']
  exact h x y

theorem holds_acts
    (hact : ∀ act x y, j.Holds x y (act.bind file x) (act.bind file' y) (ofAct act))
    (acts : List Act) (x y : ScopeId) :
    j.Holds x y (bindActs file x acts) (bindActs file' y acts) (j.ofActs ofAct acts) := by
  induction acts with
  | nil => exact j.holds_nothing
  | cons act rest ih => exact j.holds_both (hact act x y) ih

end

/-- Accounts that are lists. -/
theorem foldr_append {ι τ : Type} (ofAct : ι → List τ) (acts : List ι) :
    acts.foldr (fun act rest => ofAct act ++ rest) [] = acts.flatMap ofAct := by
  rw [List.foldr_append_eq_append, List.append_nil, List.flatMap_def]

/-- Accounts that are lists for every place. -/
theorem foldr_append_at {ι σ τ : Type} (ofAct : ι → σ → List τ) (acts : List ι) (place : σ) :
    acts.foldr (fun act rest place => ofAct act place ++ rest place) (fun _ => []) place =
      acts.flatMap fun act => ofAct act place := by
  induction acts with
  | nil => rfl
  | cons act rest ih => rw [List.foldr_cons, List.flatMap_cons, ih]

/-- Accounts of all syntax, given those of acts. -/
structure Ledger (file file' : ModuleFile) where
  ofAct : Act → j.Account
  ofDecl : List (String × String) → Bool → List Comment → Decl → j.Account
  ofBody : NamespaceBody → j.Account
  ofItems : List (String × String) → List Item → j.Account
  ofItem : List (String × String) → Item → j.Account
  act : ∀ act x y, j.Holds x y (act.bind file x) (act.bind file' y) (ofAct act)
  decl_acts : ∀ {aliases exported leading decl acts}, decl.acts? aliases exported leading = some acts →
    j.Implies (j.ofActs ofAct acts) (ofDecl aliases exported leading decl)
  decl_namespaceDecl : ∀ {aliases exported leading name body},
    j.Implies (j.within name exported (ofBody body))
      (ofDecl aliases exported leading (.namespaceDecl name body))
  body_absent : j.Implies j.nothing (ofBody .absent)
  body_nested : ∀ {name body},
    j.Implies (j.within (.identifier name) true (ofBody body)) (ofBody (.nested name body))
  body_items : ∀ {items}, j.Implies (j.both (j.ofActs ofAct (clauseActs items))
    (ofItems (exportAliases items) items)) (ofBody (.items items))
  items_nil : ∀ {aliases}, j.Implies j.nothing (ofItems aliases [])
  items_cons : ∀ {aliases item rest},
    j.Implies (j.both (ofItem aliases item) (ofItems aliases rest)) (ofItems aliases (item :: rest))
  item_acts : ∀ {aliases item acts}, item.acts? = some acts →
    j.Implies (j.ofActs ofAct acts) (ofItem aliases item)
  item_declaration : ∀ {aliases leading decl},
    j.Implies (ofDecl aliases false leading decl) (ofItem aliases ⟨leading, .declaration decl⟩)
  item_exportDecl : ∀ {aliases leading decl},
    j.Implies (ofDecl aliases true leading decl) (ofItem aliases ⟨leading, .exportDecl decl⟩)

namespace Ledger

variable {j} {file file' : ModuleFile} (l : j.Ledger file file')

/-- Each piece of syntax beside itself. -/
def correspondence : j.Correspondence file file' where
  Decls aliases exported leading decl decl' account :=
    decl = decl' ∧ account = l.ofDecl aliases exported leading decl
  Bodies body body' account := body = body' ∧ account = l.ofBody body
  Lists aliases items items' account := items = items' ∧ account = l.ofItems aliases items
  Items aliases item item' account := item = item' ∧ account = l.ofItem aliases item
  decl_cases := by
    rintro aliases exported leading decl _ _ ⟨rfl, rfl⟩
    rcases hacts : decl.acts? aliases exported leading with _ | acts
    · cases decl with
      | namespaceDecl name body => exact .namespaceDecl ⟨rfl, rfl⟩ l.decl_namespaceDecl
      | _ => cases hacts
    · exact .of_acts hacts hacts fun x y => l.decl_acts hacts _ _ _ _ (holds_acts l.act acts x y)
  body_cases := by
    rintro body _ _ ⟨rfl, rfl⟩
    cases body with
    | absent => exact .absent l.body_absent
    | nested name body => exact .nested ⟨rfl, rfl⟩ l.body_nested
    | items items => exact .items (holds_acts l.act _) rfl ⟨rfl, rfl⟩ l.body_items
  list_cases := by
    rintro aliases items _ _ ⟨rfl, rfl⟩
    cases items with
    | nil => exact .nil l.items_nil
    | cons item rest => exact .cons ⟨rfl, rfl⟩ ⟨rfl, rfl⟩ l.items_cons
  item_cases := by
    rintro aliases item _ _ ⟨rfl, rfl⟩
    rcases hacts : item.acts? with _ | acts
    · obtain ⟨leading, kind⟩ := item
      cases kind with
      | declaration => exact .declaration ⟨rfl, rfl⟩ l.item_declaration
      | exportDecl => exact .exportDecl ⟨rfl, rfl⟩ l.item_exportDecl
      | exportDefaultClass name => cases name <;> cases hacts
      | exportDefaultExpr value => cases value <;> cases hacts
      | _ => cases hacts
    · exact .of_acts hacts hacts fun x y => l.item_acts hacts _ _ _ _ (holds_acts l.act acts x y)

theorem bindDecl (decl : Decl) (aliases : List (String × String)) (exported : Bool)
    (leading : List Comment) (x y : ScopeId) :
    j.Holds x y (Binding.bindDecl file aliases x exported leading decl)
      (Binding.bindDecl file' aliases y exported leading decl)
      (l.ofDecl aliases exported leading decl) :=
  l.correspondence.bindDecl decl ⟨rfl, rfl⟩ x y

theorem bindBody (body : NamespaceBody) (x y : ScopeId) :
    j.Holds x y (Binding.bindBody file x body) (Binding.bindBody file' y body) (l.ofBody body) :=
  l.correspondence.bindBody body ⟨rfl, rfl⟩ x y

theorem bindItems (items : List Item) (aliases : List (String × String)) (x y : ScopeId) :
    j.Holds x y (Binding.bindItems file aliases x items) (Binding.bindItems file' aliases y items)
      (l.ofItems aliases items) :=
  l.correspondence.bindItems items ⟨rfl, rfl⟩ x y

theorem bindItem (item : Item) (aliases : List (String × String)) (x y : ScopeId) :
    j.Holds x y (Binding.bindItem file aliases x item) (Binding.bindItem file' aliases y item)
      (l.ofItem aliases item) :=
  l.correspondence.bindItem item ⟨rfl, rfl⟩ x y

end Ledger

end Judgement

end Binding

end ComponentSchema
