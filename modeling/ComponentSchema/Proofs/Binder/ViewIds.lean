import ComponentSchema.Proofs.Binder.PiecePlacement
import ComponentSchema.Proofs.Binder.ScopeAdditions
import ComponentSchema.Proofs.Binder.ShownSyntax

/-!
# Views and the syntax behind them

While a program is bound, the tables of its syntax only grow, and an id is the position of what was kept
last. So every id in a view leads back to the syntax it was given for, however deep in an annotation it
stands, and no two parts of the view share one.

`Binding.Lowers` says of a step which positions it takes, which scopes it makes for `declare module`
blocks, and what its answer shows in every later index. Steps that keep no syntax are told apart by
`Binding.Spares`.

Results.
* `Binding.typeNode_lowers`: by induction on annotations.
* `Binding.act_lowers`, `Binding.bindBody_lowers`: what is shown in the scope of a file or of a block.
* `Modules.bind_shows`: the view of a program shows its files, each part under an id of its own.
-/
namespace ComponentSchema

open Syntax Relation

/-! ## Growing tables -/

namespace Index

variable {index index' index'' : Index} {M : ModuleId → Prop}

/-- The positions that are taken. -/
def ids (index : Index) : Ids :=
  ⟨List.range index.typeSites.size, List.range index.functionSites.size, List.range index.classSites.size⟩

theorem ids_addTypeSite (index : Index) (site : TypeSite) :
    ids { index with typeSites := index.typeSites.push site } =
      index.ids ++ ⟨[index.typeSites.size], [], []⟩ := by
  simp [ids, Ids.append_def, List.range_succ]

theorem ids_addFunctionSite (index : Index) (site : FunctionSite) :
    ids { index with functionSites := index.functionSites.push site } =
      index.ids ++ ⟨[], [index.functionSites.size], []⟩ := by
  simp [ids, Ids.append_def, List.range_succ]

theorem ids_addClassSite (index : Index) (site : ClassSite) :
    ids { index with classSites := index.classSites.push site } =
      index.ids ++ ⟨[], [], [index.classSites.size]⟩ := by
  simp [ids, Ids.append_def, List.range_succ]

/-- What is kept stays where it is. -/
theorem Change.keepsSites (hchange : Change M index index') (i : Nat) :
    (∀ site, index.typeSites[i]? = some site → index'.typeSites[i]? = some site) ∧
      (∀ site, index.functionSites[i]? = some site → index'.functionSites[i]? = some site) ∧
        ∀ site, index.classSites[i]? = some site → index'.classSites[i]? = some site := by
  have hpush : ∀ {α : Type} {items : Array α} {item site : α}, items[i]? = some site →
      (items.push item)[i]? = some site :=
    fun hsite => (getElem?_push_of_lt (lt_size_of_getElem? hsite)).trans hsite
  cases hchange with
  | typeSite => exact ⟨fun _ => hpush, fun _ => id, fun _ => id⟩
  | functionSite => exact ⟨fun _ => id, fun _ => hpush, fun _ => id⟩
  | classSite => exact ⟨fun _ => id, fun _ => id, fun _ => hpush⟩
  | _ => exact ⟨fun _ => id, fun _ => id, fun _ => id⟩

theorem Changes.keepsSites (hchanges : Changes M index index') (i : Nat) :
    (∀ site, index.typeSites[i]? = some site → index'.typeSites[i]? = some site) ∧
      (∀ site, index.functionSites[i]? = some site → index'.functionSites[i]? = some site) ∧
        ∀ site, index.classSites[i]? = some site → index'.classSites[i]? = some site := by
  induction hchanges with
  | refl => exact ⟨fun _ => id, fun _ => id, fun _ => id⟩
  | tail _ hchange ih =>
    obtain ⟨htypes, hfunctions, hclasses⟩ := hchange.keepsSites i
    exact ⟨fun site h => htypes site (ih.1 site h), fun site h => hfunctions site (ih.2.1 site h),
      fun site h => hclasses site (ih.2.2 site h)⟩

/-- From one index to a later one: namespaces keep their scopes, and those that are new are given new
ones. -/
structure Grows (index index' : Index) : Prop extends Continues index index' where
  fresh : ∀ {z : ScopeId} {name : String} {inner : ScopeId},
    (index'.scope z).namespaces.lookup name = some inner →
      (index.scope z).namespaces.lookup name = some inner ∨ index.scopes.size ≤ inner.index

theorem Grows.refl (index : Index) : Grows index index := ⟨.refl index, .inl⟩

theorem Grows.trans (h : Grows index index') (h' : Grows index' index'') : Grows index index'' := by
  refine ⟨h.toContinues.trans h'.toContinues, fun hlook => ?_⟩
  rcases h'.fresh hlook with hlook' | hnew
  · exact h.fresh hlook'
  · exact .inr (Nat.le_trans h.changes.size hnew)

/-- After changes that leave the namespaces as they are. -/
theorem Grows.of_namespaces (hchanges : Changes (fun _ => True) index index')
    (h : ∀ z, (index'.scope z).namespaces = (index.scope z).namespaces) : Grows index index' :=
  ⟨⟨hchanges, fun hlook => h _ ▸ hlook⟩, fun hlook => .inl (h _ ▸ hlook)⟩

/-- After a namespace is given a new scope. -/
theorem Grows.addNamespace {x : ScopeId} {name : String} (hx : index.HasScope x)
    (hlook : (index.scope x).namespaces.lookup name = none) :
    let inner : ScopeId := ⟨index.scopes.size⟩
    let next := (index.pushScope (Scope.empty (some name) (some x))).modifyScope x fun data =>
      { data with namespaces := (name, inner) :: data.namespaces }
    Grows index next ∧ next.HasScope inner ∧ (next.scope x).namespaces.lookup name = some inner := by
  intro inner next
  let made := index.pushScope (Scope.empty (some name) (some x))
  have hmade : Change (fun _ => True) index made :=
    .newScope _ fun p hp => Option.some.inj hp ▸ hx
  have hinner : made.HasScope inner := by simp [made, inner, HasScope]
  have hx' : made.HasScope x := Nat.lt_of_lt_of_le hx hmade.size
  have hscope : made.scope inner = Scope.empty (some name) (some x) :=
    (scope_push index inner _).trans (if_pos rfl)
  have hnext : Change (fun _ => True) made next :=
    .addNamespace hx' hinner (congrArg Scope.name hscope) (congrArg Scope.parent hscope)
  have hnamespaces : ∀ z, (next.scope z).namespaces =
      if z = x then (name, inner) :: (index.scope x).namespaces else (index.scope z).namespaces := by
    intro z
    refine (congrArg Scope.namespaces (scope_modify made z _ hx')).trans ?_
    split
    · exact congrArg ((name, inner) :: ·) (namespaces_pushScope index x _ _)
    · exact namespaces_pushScope index z _ _
  refine ⟨⟨⟨.tail (.single hmade) hnext, fun {z other found} hfound => ?_⟩,
    fun {z other found} hfound => ?_⟩, Nat.lt_of_lt_of_le hinner hnext.size, ?_⟩
  · rw [hnamespaces]
    split
    · rename_i hzx
      exact (lookup_cons_iff hlook).2 (.inr (hzx ▸ hfound))
    · exact hfound
  · rw [hnamespaces] at hfound
    split at hfound
    · rename_i hzx
      subst hzx
      rcases (lookup_cons_iff hlook).1 hfound with ⟨-, rfl⟩ | hold
      · exact .inr (Nat.le_refl _)
      · exact .inl hold
    · exact .inl hfound
  · rw [hnamespaces, if_pos rfl, List.lookup_cons_self]

/-- Scopes that are made from one index to a later one, in order. -/
structure Fresh (index index' : Index) (blocks : List ScopeId) : Prop where
  increasing : blocks.Pairwise fun block other => block.index < other.index
  within : ∀ block ∈ blocks, index.scopes.size ≤ block.index ∧ block.index < index'.scopes.size

theorem Fresh.nil : Fresh index index' [] := ⟨.nil, fun _ h => nomatch h⟩

theorem Fresh.append {blocks others : List ScopeId} (h : Fresh index index' blocks)
    (h' : Fresh index' index'' others) (hsize : index.scopes.size ≤ index'.scopes.size)
    (hsize' : index'.scopes.size ≤ index''.scopes.size) : Fresh index index'' (blocks ++ others) := by
  refine ⟨List.pairwise_append.2 ⟨h.increasing, h'.increasing, fun block hblock other hother => ?_⟩,
    fun block hblock => ?_⟩
  · exact Nat.lt_of_lt_of_le (h.within block hblock).2 (h'.within other hother).1
  · rcases List.mem_append.1 hblock with hblock | hblock
    · obtain ⟨hle, hlt⟩ := h.within block hblock
      exact ⟨hle, Nat.lt_of_lt_of_le hlt hsize'⟩
    · obtain ⟨hle, hlt⟩ := h'.within block hblock
      exact ⟨Nat.le_trans hsize hle, hlt⟩

theorem Fresh.nodup {blocks : List ScopeId} (h : Fresh index index' blocks) : blocks.Nodup :=
  h.increasing.imp fun hlt heq => Nat.ne_of_lt hlt (congrArg ScopeId.index heq)

end Index

/-! ## What acts show -/

/-- The scope that is made for the body of a namespace and for no other. -/
def Syntax.NamespaceName.blocks (inner : ScopeId) : NamespaceName → List ScopeId
  | .string _ => [inner]
  | .identifier _ | .global => []

namespace Index

/-- The body of a namespace in a scope is shown in another one. -/
def OpensIn (index : Index) (x inner : ScopeId) : NamespaceName → Prop
  | .identifier name => (index.scope x).namespaces.lookup name = some inner
  | .string name => (index.scope inner).name = some name ∧ (index.scope inner).parent = some x ∧
      ∀ z other, (index.scope z).namespaces.lookup other ≠ some inner
  | .global => inner = globalScope

/-- The views that show an act in a scope. -/
def ShowsAct (index : Index) (x : ScopeId) : Binding.Act → List Declaration → Prop
  | .function name _ _ definition, views => ∃ view : FunctionDeclaration, views = [.funDecl view] ∧
      view.name = name ∧ index.ShowsFunction x definition view.signature
  | .declarator _ _ written, views => index.ShowsVariables x [written] views
  | .classView name members _ leading, views => ∃ view : ClassDeclaration, views = [.classDecl view] ∧
      index.ShowsClass name members leading view
  | _, views => views = []

/-- The views that show several acts, one after the other. -/
inductive ShowsActs (index : Index) (x : ScopeId) : List Binding.Act → List Declaration → Prop
  | nil : ShowsActs index x [] []
  | cons {act : Binding.Act} {rest : List Binding.Act} {views others : List Declaration} :
    index.ShowsAct x act views → ShowsActs index x rest others →
      ShowsActs index x (act :: rest) (views ++ others)

end Index

/-! ## Steps of binding -/

open Index

namespace Binding

variable {α β : Type} {index : Index} {x : ScopeId} {name : String} {exported : Bool}

/-- A step that takes some positions and makes scopes for some blocks, with what its answer shows in every
later index. -/
def Lowers (index : Index) (step : Binding α) (Q : Index → α → Ids → List ScopeId → Prop) : Prop :=
  Bound (fun _ => True) index → ∃ ids blocks, Grows index (step.run index).2 ∧
    (step.run index).2.ids = index.ids ++ ids ∧ Fresh index (step.run index).2 blocks ∧
      ∀ later, Grows (step.run index).2 later → Q later (step.run index).1 ids blocks

/-- No block is made, and the positions are those in the answer. -/
def Views (idsOf : α → Ids) (P : Index → α → Prop) (later : Index) (answer : α) (ids : Ids)
    (blocks : List ScopeId) : Prop :=
  ids = idsOf answer ∧ blocks = [] ∧ P later answer

section

variable {first : Binding α} {Q : Index → α → Ids → List ScopeId → Prop}
  {R : Index → β → Ids → List ScopeId → Prop}

theorem Lowers.done {answer : α} (hq : ∀ later, Grows index later → Q later answer ∅ []) :
    Lowers index (pure answer) Q :=
  fun _ => ⟨∅, [], .refl index, index.ids.append_empty.symm, .nil, hq⟩

theorem Lowers.bind {next : α → Binding β} (h : Lowers index first Q)
    (hnext : ∀ index' answer ids blocks, Grows index index' →
      (∀ later, Grows index' later → Q later answer ids blocks) →
        Lowers index' (next answer) fun later answer' ids' blocks' =>
          R later answer' (ids ++ ids') (blocks ++ blocks')) :
    Lowers index (first >>= next) R := by
  intro hbound
  obtain ⟨ids, blocks, hgrows, hids, hfresh, hq⟩ := h hbound
  obtain ⟨ids', blocks', hgrows', hids', hfresh', hr⟩ :=
    hnext _ _ _ _ hgrows hq (hgrows.changes.bound hbound)
  refine ⟨ids ++ ids', blocks ++ blocks', hgrows.trans hgrows', ?_,
    hfresh.append hfresh' hgrows.changes.size hgrows'.changes.size, hr⟩
  rw [← Ids.append_assoc, ← hids]
  exact hids'

/-- After a step that makes no block. -/
theorem Lowers.view_bind {idsOf : α → Ids} {P : Index → α → Prop} {next : α → Binding β}
    (h : Lowers index first (Views idsOf P))
    (hnext : ∀ index' answer, Grows index index' → (∀ later, Grows index' later → P later answer) →
      Lowers index' (next answer) fun later answer' ids blocks =>
        R later answer' (idsOf answer ++ ids) blocks) :
    Lowers index (first >>= next) R := by
  refine h.bind fun index' answer ids blocks hgrows hq => ?_
  obtain ⟨rfl, rfl, -⟩ := hq index' (.refl index')
  exact hnext index' answer hgrows fun later hlater => (hq later hlater).2.2

theorem Lowers.imp (h : Lowers index first Q) {Q' : Index → α → Ids → List ScopeId → Prop}
    (himp : ∀ later answer ids blocks, Q later answer ids blocks → Q' later answer ids blocks) :
    Lowers index first Q' := by
  intro hbound
  obtain ⟨ids, blocks, hgrows, hids, hfresh, hq⟩ := h hbound
  exact ⟨ids, blocks, hgrows, hids, hfresh, fun later hlater => himp _ _ _ _ (hq later hlater)⟩

theorem Lowers.of_bound (h : Bound (fun _ => True) index → Lowers index first Q) :
    Lowers index first Q :=
  fun hbound => h hbound hbound

theorem Lowers.get_bind {next : Index → Binding β} (h : Lowers index (next index) R) :
    Lowers index (get >>= next) R := h

end

/-! ## Steps that keep no syntax -/

/-- A step that keeps no syntax and makes no namespace. -/
def Spares (index : Index) (x : ScopeId) (step : Binding Unit) : Prop :=
  Bound (fun _ => True) index → index.HasScope x → Changes (fun _ => True) index (step.run index).2 ∧
    (step.run index).2.ids = index.ids ∧
      ∀ z, ((step.run index).2.scope z).namespaces = (index.scope z).namespaces

theorem Spares.lowers {step : Binding Unit} (h : Spares index x step) (hx : index.HasScope x) :
    Lowers index step (Views (fun _ => ∅) fun _ _ => True) := by
  intro hbound
  obtain ⟨hchanges, hids, hnamespaces⟩ := h hbound hx
  exact ⟨∅, [], .of_namespaces hchanges hnamespaces, hids.trans index.ids.append_empty.symm, .nil,
    fun _ _ => ⟨rfl, rfl, trivial⟩⟩

theorem Spares.done : Spares index x (pure ()) := fun _ _ => ⟨.refl, rfl, fun _ => rfl⟩

theorem Spares.bind {first : Binding Unit} {next : Unit → Binding Unit} (h : Spares index x first)
    (hnext : ∀ index', Spares index' x (next ())) : Spares index x (first >>= next) := by
  intro hbound hx
  obtain ⟨hchanges, hids, hnamespaces⟩ := h hbound hx
  obtain ⟨hchanges', hids', hnamespaces'⟩ :=
    hnext _ (hchanges.bound hbound) (Nat.lt_of_lt_of_le hx hchanges.size)
  exact ⟨hchanges.trans hchanges', hids'.trans hids, fun z => (hnamespaces' z).trans (hnamespaces z)⟩

theorem Spares.forM {ι : Type} {step : ι → Binding Unit} (items : List ι)
    (h : ∀ item index', Spares index' x (step item)) : Spares index x (items.forM step) := by
  induction items generalizing index with
  | nil => exact .done
  | cons item rest ih => exact (h item index).bind fun _ => ih

theorem Spares.of_plays {step : Binding Unit} {log : List Addition} (h : Plays index x step log) :
    Spares index x step := by
  intro hbound hx
  obtain ⟨hchanges, hframe, -⟩ := h hbound hx
  refine ⟨hchanges, ?_, fun z => (hframe.namespaces z).symm⟩
  simp only [Index.ids, hframe.typeSites, hframe.functionSites, hframe.classSites]

theorem Spares.modifyScope {change : Scope → Scope}
    (hchange : index.HasScope x → Change (fun _ => True) index (index.modifyScope x change))
    (hnamespaces : ∀ data, (change data).namespaces = data.namespaces) :
    Spares index x (modifyScope x change) := by
  refine fun _ hx => ⟨.single (hchange hx), rfl, fun z => ?_⟩
  refine (congrArg Scope.namespaces (scope_modify index z change hx)).trans ?_
  split
  · rename_i hzx
    rw [hnamespaces, hzx]
  · rfl

theorem bindImport_spares (file : ModuleFile) (source : StringLiteral)
    (specifiers : List ImportSpecifier) : Spares index x (bindImport file x source specifiers) := by
  unfold bindImport
  split
  · exact .done
  · exact .forM specifiers fun _ _ => .modifyScope (fun hx => .addImport hx _ _ trivial) fun _ => rfl

theorem bindExportEntry_spares (source : Option ModuleId) (specifier : ExportSpecifier) :
    Spares index x (bindExportEntry x source specifier) := by
  cases specifier with
  | named original shown => exact .of_plays (addExport_plays _)
  | all shown =>
    cases source with
    | none => exact .done
    | some g => exact .of_plays (addExport_plays _)

theorem bindExportClause_spares (file : ModuleFile) (kind : ItemKind) :
    Spares index x (bindExportClause file x kind) := by
  unfold bindExportClause
  split
  · exact .forM _ fun entry _ => bindExportEntry_spares none entry
  · split
    · exact .forM _ fun entry _ => bindExportEntry_spares (some _) entry
    · exact .done
  · split
    · exact .modifyScope (fun hx => .addStarExport hx _ trivial) fun _ => rfl
    · exact .done
  · exact .done

/-! ## Scopes of namespaces -/

/-- A scope for a block is new, and is never that of a namespace. -/
theorem newScope_lowers (hx : index.HasScope x) :
    Lowers index (newScope (some name) (some x)) fun later inner ids blocks =>
      ids = ∅ ∧ blocks = [inner] ∧ later.HasScope inner ∧ (later.scope inner).name = some name ∧
        (later.scope inner).parent = some x ∧
          ∀ z other, (later.scope z).namespaces.lookup other ≠ some inner := by
  intro hbound
  have hmakes : Makes (fun _ => True) index (newScope (some name) (some x)) _ := newScope_makes hx
  obtain ⟨hchanges, hinner, hname, hparent⟩ := hmakes hbound.nested
  have hgrows : Grows index _ := .of_namespaces hchanges fun z => namespaces_pushScope index z _ _
  refine ⟨∅, [⟨index.scopes.size⟩], hgrows, index.ids.append_empty.symm,
    ⟨List.pairwise_singleton _ _, fun block hblock => ?_⟩, fun later hlater => ?_⟩
  · obtain rfl := List.mem_singleton.1 hblock
    exact ⟨Nat.le_refl _, hinner⟩
  · obtain ⟨hname', hparent'⟩ := hlater.changes.frame hinner
    refine ⟨rfl, rfl, hlater.hasScope hinner, hname'.trans hname, hparent'.trans hparent,
      fun z other hlook => ?_⟩
    rcases hlater.fresh hlook with hlook | hnew
    · have hold : (index.scope z).namespaces.lookup other = _ :=
        namespaces_pushScope index z (some name) (some x) ▸ hlook
      exact Nat.lt_irrefl _ (hbound.nested.namespaces (mem_of_lookup hold))
    · exact Nat.not_le_of_lt hinner hnew

/-- The scope of a namespace is found under its name in the scope around it. -/
theorem namespaceScope_lowers (hx : index.HasScope x) :
    Lowers index (namespaceScope x name exported) (Views (fun _ => ∅) fun later inner =>
      later.HasScope inner ∧ (later.scope x).namespaces.lookup name = some inner) := by
  refine ((Spares.of_plays exportIf_plays).lowers hx).view_bind fun index' _ hgrows _ =>
    .get_bind (.of_bound fun hbound => ?_)
  have hx' := hgrows.hasScope hx
  rcases hlook : (index'.scope x).namespaces.lookup name with _ | inner
  · intro _
    obtain ⟨hgrows, hinner, hfound⟩ := Grows.addNamespace hx' hlook
    exact ⟨∅, [], hgrows, index'.ids.append_empty.symm, .nil, fun later hlater =>
      ⟨rfl, rfl, hlater.hasScope hinner, hlater.namespaces hfound⟩⟩
  · have hinner := hbound.nested.namespaces (mem_of_lookup hlook)
    exact .done fun later hlater => ⟨rfl, rfl, hlater.hasScope hinner, hlater.namespaces hlook⟩

/-! ## Sites and views -/

theorem addTypeSite_lowers (hx : index.HasScope x) (type : TypeExpr) :
    Lowers index (addTypeSite x type) (Views (fun id => ⟨[id.index], [], []⟩) fun later id =>
      later.typeSites[id.index]? = some ⟨x, type⟩) :=
  fun _ => ⟨⟨[index.typeSites.size], [], []⟩, [], .of_namespaces (.single (.typeSite hx)) fun _ => rfl,
    index.ids_addTypeSite _, .nil, fun _ hlater =>
      ⟨rfl, rfl, (hlater.changes.keepsSites _).1 _ Array.getElem?_push_size⟩⟩

theorem addFunctionSite_lowers (hx : index.HasScope x) (body : Option Body) (wrapsResult : Bool) :
    Lowers index (addFunctionSite ⟨x, body, wrapsResult⟩)
      (Views (fun id => ⟨[], [id.index], []⟩) fun later id =>
        later.functionSites[id.index]? = some ⟨x, body, wrapsResult⟩) :=
  fun _ => ⟨⟨[], [index.functionSites.size], []⟩, [],
    .of_namespaces (.single (.functionSite hx)) fun _ => rfl,
    index.ids_addFunctionSite _, .nil, fun _ hlater =>
      ⟨rfl, rfl, (hlater.changes.keepsSites _).2.1 _ Array.getElem?_push_size⟩⟩

theorem addClassSite_lowers (site : ClassSite) :
    Lowers index (addClassSite site) (Views (fun id => ⟨[], [], [id.index]⟩) fun later id =>
      later.classSites[id.index]? = some site) :=
  fun _ => ⟨⟨[], [], [index.classSites.size]⟩, [],
    .of_namespaces (.single (.classSite site)) fun _ => rfl,
    index.ids_addClassSite _, .nil, fun _ hlater =>
      ⟨rfl, rfl, (hlater.changes.keepsSites _).2.2 _ Array.getElem?_push_size⟩⟩

mutual

/-- The site of an annotation comes first, and then those inside it. -/
theorem typeNode_lowers : ∀ (type : TypeExpr) {index : Index}, index.HasScope x →
    Lowers index (typeNode x type)
      (Views (·.parts.ids) fun later node => later.ShowsType x type node)
  | .reference name, _ => fun hx => by
    simp only [typeNode]
    refine (addTypeSite_lowers hx _).view_bind fun _ id _ hsite => .done fun later hlater => ?_
    exact ⟨rfl, rfl, .reference (hsite later hlater)⟩
  | .function parameters returnType, _ => fun hx => by
    simp only [typeNode]
    refine (addTypeSite_lowers hx _).view_bind fun _ id hgrows₁ hsite => ?_
    have hx₁ := hgrows₁.hasScope hx
    refine (addFunctionSite_lowers hx₁ none false).view_bind fun _ function hgrows₂ hfunction => ?_
    have hx₂ := hgrows₂.hasScope hx₁
    refine (typeParameters_lowers parameters 0 hx₂).view_bind fun _ views hgrows₃ hviews => ?_
    refine (typeNode_lowers returnType (hgrows₃.hasScope hx₂)).view_bind fun _ node hgrows₄ hnode => ?_
    refine .done fun later hlater => ⟨?_, rfl, ?_⟩
    · simp [TypeShape.parts, partsOfTyping]
    · have hlater₃ := hgrows₄.trans hlater
      have hlater₂ := hgrows₃.trans hlater₃
      exact .function (hsite later (hgrows₂.trans hlater₂)) (hfunction later hlater₂)
        (hviews later hlater₃) (hnode later hlater)
  | .keyword _, _ | .parenthesized _, _ | .literal _, _ | .union _, _ | .intersection _, _
  | .constructor, _ | .other, _ => fun hx => by
    simp only [typeNode]
    refine (addTypeSite_lowers hx _).view_bind fun _ id _ hsite => .done fun later hlater => ?_
    exact ⟨rfl, rfl, .other rfl (hsite later hlater)⟩

theorem typeParameters_lowers : ∀ (parameters : List TypeParameter) (position : Nat) {index : Index},
    index.HasScope x → Lowers index (typeParameters x position parameters)
      (Views (fun views => (partsOfParameters views).ids) fun later views =>
        later.ShowsTypeParameters x parameters views)
  | [], position, _ => fun hx => by
    simp only [typeParameters]
    exact .done fun _ _ => ⟨rfl, rfl, .nil⟩
  | ⟨name, none⟩ :: rest, position, _ => fun hx => by
    simp only [typeParameters]
    refine (typeParameters_lowers rest (position + 1) hx).view_bind fun _ views _ hviews =>
      .done fun later hlater => ⟨?_, rfl, .cons .none (hviews later hlater)⟩
    simp [partsOfParameters, partsOfTyping]
  | ⟨name, some type⟩ :: rest, position, _ => fun hx => by
    simp only [typeParameters]
    refine (typeNode_lowers type hx).view_bind fun _ node hgrows₁ hnode => ?_
    refine (typeParameters_lowers rest (position + 1) (hgrows₁.hasScope hx)).view_bind
      fun _ views hgrows₂ hviews => .done fun later hlater => ⟨?_, rfl, ?_⟩
    · simp [partsOfParameters, partsOfTyping]
    · exact .cons (.some (hnode later (hgrows₂.trans hlater))) (hviews later hlater)

end

theorem maybeTypeNode_lowers (hx : index.HasScope x) (type : Option TypeExpr) :
    Lowers index (maybeTypeNode x type) (Views (fun node => (partsOfTyping node).ids) fun later node =>
      later.ShowsTyping x type node) := by
  cases type with
  | none => exact .done fun _ _ => ⟨rfl, rfl, .none⟩
  | some type =>
    refine (typeNode_lowers type hx).view_bind fun _ node _ hnode => .done fun later hlater => ?_
    exact ⟨Ids.append_empty _, rfl, .some (hnode later hlater)⟩

theorem functionParameters_lowers (hx : index.HasScope x) (position : Nat)
    (parameters : List Syntax.Parameter) :
    Lowers index (functionParameters x position parameters)
      (Views (fun views => (partsOfParameters views).ids) fun later views =>
        List.Forall₂ (fun parameter view =>
          later.ShowsTyping x (parameter.written.map (·.type)) view.typeNode) parameters views) := by
  induction parameters generalizing index position with
  | nil => exact .done fun _ _ => ⟨rfl, rfl, .nil⟩
  | cons parameter rest ih =>
    refine (maybeTypeNode_lowers hx _).view_bind fun _ node hgrows₁ hnode => ?_
    refine (ih (hgrows₁.hasScope hx) (position + 1)).view_bind fun _ views hgrows₂ hviews =>
      .done fun later hlater => ⟨?_, rfl, ?_⟩
    · simp [partsOfParameters]
    · exact .cons (hnode later (hgrows₂.trans hlater)) (hviews later hlater)

theorem function_lowers (hx : index.HasScope x) (definition : Function) :
    Lowers index (function x definition) (Views (·.parts.ids) fun later signature =>
      later.ShowsFunction x definition signature) := by
  refine (addFunctionSite_lowers hx _ _).view_bind fun _ id hgrows₁ hsite => ?_
  have hx₁ := hgrows₁.hasScope hx
  refine (functionParameters_lowers hx₁ 0 _).view_bind fun _ parameters hgrows₂ hparameters => ?_
  refine (maybeTypeNode_lowers (hgrows₂.hasScope hx₁) _).view_bind fun _ returnType hgrows₃ hreturn =>
    .done fun later hlater => ⟨by simp, rfl, ?_⟩
  have hlater₂ := hgrows₃.trans hlater
  exact ⟨hsite later (hgrows₂.trans hlater₂), hparameters later hlater₂, hreturn later hlater⟩

theorem initializer_lowers (hx : index.HasScope x) (value : Expr) :
    Lowers index (initializer x value) (Views (fun view => (partsOfInitializer (some view)).ids)
      fun later view => later.ShowsInitializer x (some value) (some view)) := by
  unfold initializer
  rcases hvalue : value.function? with _ | definition
  · exact .done fun _ _ => ⟨rfl, rfl, .value hvalue⟩
  · refine (function_lowers hx definition).view_bind fun _ signature _ hsignature =>
      .done fun later hlater => ?_
    exact ⟨Ids.append_empty _, rfl, .function hvalue (hsignature later hlater)⟩

/-- A pattern has no view. -/
theorem variableDecl_lowers (hx : index.HasScope x) (aliases : List (String × String))
    (declarator : Declarator) :
    Lowers index (variableDecl x exported aliases declarator)
      (Views (fun view => (partsOfDeclarations view.toList).ids) fun later view =>
        later.ShowsVariables x [declarator] view.toList) := by
  obtain ⟨_ | name, type, value⟩ := declarator
  · exact .done fun _ _ => ⟨rfl, rfl, .pattern rfl .nil⟩
  · refine (maybeTypeNode_lowers hx type).view_bind fun index₁ node hgrows₁ hnode => ?_
    cases value with
    | none =>
      refine .done fun later hlater => ⟨?_, rfl, .cons rfl (hnode later hlater) .none .nil⟩
      simp [Declaration.parts, partsOfDeclarations, partsOfInitializer]
    | some value =>
      have hvalue : Lowers index₁ (some <$> initializer x value)
          (Views (fun view => (partsOfInitializer view).ids) fun later view =>
            later.ShowsInitializer x (some value) view) :=
        (initializer_lowers (hgrows₁.hasScope hx) value).view_bind fun _ _ _ hview =>
          .done fun later hlater => ⟨Ids.append_empty _, rfl, hview later hlater⟩
      refine hvalue.view_bind fun _ view hgrows₂ hview => .done fun later hlater => ⟨?_, rfl, ?_⟩
      · simp [Declaration.parts, partsOfDeclarations]
      · exact .cons rfl (hnode later (hgrows₂.trans hlater)) (hview later hlater) .nil

theorem classView_lowers (name : Option String) (members : List ClassMember) (leading : List Comment) :
    Lowers index (classView name members exported leading)
      (Views (fun view => (partsOfDeclarations [view]).ids) fun later view =>
        ∃ declaration, view = .classDecl declaration ∧
          later.ShowsClass name members leading declaration) := by
  refine (addClassSite_lowers _).view_bind fun _ id _ hsite => .done fun later hlater => ?_
  exact ⟨rfl, rfl, _, rfl, rfl, hsite later hlater⟩

/-! ## Items -/

/-- The positions are those in the views. -/
def Shown (P : Index → List Declaration → List ScopeId → Prop) (later : Index)
    (views : List Declaration) (ids : Ids) (blocks : List ScopeId) : Prop :=
  ids = (partsOfDeclarations views).ids ∧ P later views blocks

/-- A namespace shows what its body shows. -/
theorem Lowers.enclose {body : Binding (List Declaration)}
    {P P' : Index → List Declaration → List ScopeId → Prop} (h : Lowers index body (Shown P))
    (henclose : ∀ later views blocks, Grows index later → P later views blocks →
      P' later [.namespaceDecl name exported views] blocks) :
    Lowers index (body >>= fun views => pure [.namespaceDecl name exported views]) (Shown P') := by
  refine h.bind fun index' views ids blocks hgrows hviews => .done fun later hlater => ?_
  obtain ⟨rfl, hshows⟩ := hviews later hlater
  refine ⟨?_, ?_⟩
  · simp [Declaration.parts, partsOfDeclarations]
  · rw [List.append_nil]
    exact henclose later views blocks (hgrows.trans hlater) hshows

theorem enter_lowers (hx : index.HasScope x) (namespaceName : NamespaceName) :
    Lowers index (enter x exported namespaceName) fun later inner ids blocks =>
      ids = ∅ ∧ blocks = namespaceName.blocks inner ∧ later.HasScope inner ∧
        later.OpensIn x inner namespaceName := by
  cases namespaceName with
  | identifier name => exact (namespaceScope_lowers hx).imp fun _ _ _ _ h => h
  | string name => exact newScope_lowers hx
  | global =>
    exact .of_bound fun hbound => .done fun later hlater =>
      ⟨rfl, rfl, hlater.hasScope hbound.nested.global, rfl⟩

section

variable {file : ModuleFile}

/-- A step that keeps no syntax shows nothing. -/
theorem Spares.shown {step : Binding Unit} (h : Spares index x step) (hx : index.HasScope x) :
    Lowers index (step >>= fun _ => pure []) (Shown fun _ views blocks => views = [] ∧ blocks = []) :=
  (h.lowers hx).view_bind fun _ _ _ _ => .done fun _ _ => ⟨rfl, rfl, rfl⟩

theorem act_lowers (hx : index.HasScope x) (act : Act) : Lowers index (act.bind file x)
    (Shown fun later views blocks => later.ShowsAct x act views ∧ blocks = []) := by
  cases act with
  | function name exportAlias exported definition =>
    refine (function_lowers hx definition).view_bind fun _ signature _ hsignature =>
      .done fun later hlater => ⟨?_, ⟨_, rfl, rfl, hsignature later hlater⟩, rfl⟩
    simp [Declaration.parts, partsOfDeclarations]
  | declarator aliases _ written =>
    exact (variableDecl_lowers hx aliases written).view_bind fun _ _ _ hview =>
      .done fun later hlater => ⟨Ids.append_empty _, hview later hlater, rfl⟩
  | classView name members exported leading =>
    refine (classView_lowers name members leading).view_bind fun _ view _ hview =>
      .done fun later hlater => ?_
    obtain ⟨declaration, rfl, hshows⟩ := hview later hlater
    exact ⟨rfl, ⟨declaration, rfl, hshows⟩, rfl⟩
  | nominal _ exported => exact (Spares.of_plays (declareFirst_plays exported rfl)).shown hx
  | typeAlias _ _ exported => exact (Spares.of_plays (declareFirst_plays exported rfl)).shown hx
  | interface _ members => exact (Spares.of_plays (declareInterface_plays members)).shown hx
  | exportDefault => exact (Spares.of_plays (addExport_plays _)).shown hx
  | imports source specifiers => exact (bindImport_spares file source specifiers).shown hx
  | clause kind => exact (bindExportClause_spares file kind).shown hx

/-- What the views of a scope have to be like, and the scopes made for blocks, in every later index. -/
abbrev Showing := Index → ScopeId → List Declaration → List ScopeId → Prop

/-- What is bound in a scope that there is takes the positions that its views show. -/
def lowering : Judgement where
  Account := Showing
  Holds x _ step _ shows := ∀ {index}, index.HasScope x →
    Lowers index step (Shown fun later => shows later x)
  nothing _ _ views blocks := views = [] ∧ blocks = []
  both shows shows' later x views blocks := ∃ first others made made', views = first ++ others ∧
    blocks = made ++ made' ∧ shows later x first made ∧ shows' later x others made'
  within name exported shows later x views blocks := ∃ inner inside made,
    views = [.namespaceDecl name.shown exported inside] ∧ blocks = name.blocks inner ++ made ∧
      later.OpensIn x inner name ∧ shows later inner inside made
  holds_nothing _ := .done fun _ _ => ⟨rfl, rfl, rfl⟩
  holds_both h h' index hx := by
    refine (h hx).bind fun _ views ids blocks hgrows₁ hviews => ?_
    refine (h' (hgrows₁.hasScope hx)).bind fun _ others ids' blocks' hgrows₂ hothers =>
      .done fun later hlater => ?_
    obtain ⟨rfl, hshows⟩ := hviews later (hgrows₂.trans hlater)
    obtain ⟨rfl, hshows'⟩ := hothers later hlater
    refine ⟨by simp [partsOfDeclarations_append], views, others, blocks, blocks', rfl, ?_, hshows,
      hshows'⟩
    rw [List.append_nil]
  holds_within {_ _ name _ _ _ _} h index hx := by
    refine (enter_lowers hx name).bind fun index₁ inner ids made _ hinner => ?_
    obtain ⟨rfl, rfl, hx₁, -⟩ := hinner index₁ (.refl index₁)
    refine (h inner inner hx₁).enclose fun later views blocks hlater hshows => ?_
    exact ⟨inner, views, blocks, rfl, rfl, (hinner later hlater).2.2.2, hshows⟩

theorem showsActs_of_account {later : Index} {acts : List Act} {views : List Declaration}
    {blocks : List ScopeId} (h : lowering.ofActs
      (fun act later x views blocks => later.ShowsAct x act views ∧ blocks = []) acts later x views blocks) :
    later.ShowsActs x acts views ∧ blocks = [] := by
  induction acts generalizing views blocks with
  | nil =>
    obtain ⟨rfl, rfl⟩ := h
    exact ⟨.nil, rfl⟩
  | cons act rest ih =>
    obtain ⟨first, others, _, _, rfl, rfl, ⟨hfirst, rfl⟩, hrest⟩ := h
    obtain ⟨hothers, rfl⟩ := ih hrest
    exact ⟨.cons hfirst hothers, rfl⟩

theorem showsVariables_of_acts {later : Index} {aliases : List (String × String)}
    {declarators : List Declarator} {views : List Declaration}
    (h : later.ShowsActs x (declarators.map (.declarator aliases exported)) views) :
    later.ShowsVariables x declarators views := by
  induction declarators generalizing views with
  | nil =>
    cases h
    exact .nil
  | cons declarator rest ih =>
    cases h with
    | cons hfirst hrest => exact Index.ShowsVariables.append hfirst (ih hrest)

theorem showsDecl_of_acts {later : Index} {aliases : List (String × String)} {leading : List Comment}
    {decl : Decl} {acts : List Act} {views : List Declaration}
    (hacts : decl.acts? aliases exported leading = some acts) (h : later.ShowsActs x acts views) :
    later.ShowsDecl x leading decl views [] := by
  cases decl with
  | function =>
    cases hacts
    obtain _ | ⟨⟨view, rfl, hname, hfunction⟩, ⟨⟩⟩ := h
    exact .function hname hfunction
  | «variables» =>
    cases hacts
    exact .variables (showsVariables_of_acts h)
  | classDecl =>
    cases hacts
    obtain _ | ⟨rfl, _ | ⟨⟨view, rfl, hclass⟩, ⟨⟩⟩⟩ := h
    exact .classDecl hclass
  | interface | typeAlias | enum =>
    cases hacts
    obtain _ | ⟨rfl, ⟨⟩⟩ := h
    exact .hidden rfl
  | namespaceDecl => cases hacts
  | other =>
    cases hacts
    cases h
    exact .hidden rfl

theorem showsItem_of_acts {later : Index} {item : Item} {acts : List Act} {views : List Declaration}
    (hacts : item.acts? = some acts) (h : later.ShowsActs x acts views) :
    later.ShowsItem x item views [] := by
  obtain ⟨leading, kind⟩ := item
  cases kind with
  | declaration | exportDecl => cases hacts
  | exportDefaultFunction =>
    cases hacts
    obtain _ | ⟨⟨view, rfl, hname, hfunction⟩, ⟨⟩⟩ := h
    exact .exportDefaultFunction hname hfunction
  | exportDefaultClass name =>
    cases name with
    | none =>
      cases hacts
      obtain _ | ⟨⟨view, rfl, hclass⟩, ⟨⟩⟩ := h
      exact .exportDefaultClass hclass
    | some name =>
      cases hacts
      obtain _ | ⟨rfl, _ | ⟨rfl, _ | ⟨⟨view, rfl, hclass⟩, ⟨⟩⟩⟩⟩ := h
      exact .exportDefaultClass hclass
  | exportDefaultInterface =>
    cases hacts
    obtain _ | ⟨rfl, _ | ⟨rfl, ⟨⟩⟩⟩ := h
    exact .hidden rfl
  | exportDefaultExpr value =>
    cases value <;> cases hacts <;> first
      | (cases h; exact .hidden rfl)
      | (obtain _ | ⟨rfl, ⟨⟩⟩ := h; exact .hidden rfl)
  | imports =>
    cases hacts
    obtain _ | ⟨rfl, ⟨⟩⟩ := h
    exact .hidden rfl
  | _ =>
    cases hacts
    cases h
    exact .hidden rfl

/-- A clause shows nothing. -/
theorem views_of_clauses {later : Index} {items : List Item} {views : List Declaration}
    (h : later.ShowsActs x (clauseActs items) views) : views = [] := by
  induction items generalizing views with
  | nil =>
    cases h
    rfl
  | cons item rest ih =>
    obtain _ | ⟨rfl, hrest⟩ := h
    exact ih hrest

theorem lowering_implies {shows shows' : Showing}
    (h : ∀ later x views blocks, shows later x views blocks → shows' later x views blocks) :
    lowering.Implies shows shows' :=
  fun _ _ _ _ hlowers _ hx => (hlowers hx).imp fun _ _ _ _ hshown => ⟨hshown.1, h _ _ _ _ hshown.2⟩

def loweringLedger (file : ModuleFile) : lowering.Ledger file file where
  ofAct act later x views blocks := later.ShowsAct x act views ∧ blocks = []
  ofDecl _ _ leading decl later x views blocks := later.ShowsDecl x leading decl views blocks
  ofBody body later x views blocks := later.ShowsBody x body views blocks
  ofItems _ items later x views blocks := later.ShowsItems x items views blocks
  ofItem _ item later x views blocks := later.ShowsItem x item views blocks
  act act _ _ _ hx := act_lowers hx act
  decl_acts hacts := lowering_implies fun _ _ _ _ h => by
    obtain ⟨hshows, rfl⟩ := showsActs_of_account h
    exact showsDecl_of_acts hacts hshows
  decl_namespaceDecl {_ _ _ name _} := lowering_implies fun _ _ _ _ h => by
    obtain ⟨inner, inside, made, rfl, rfl, henters, hbody⟩ := h
    cases name with
    | identifier name => exact .identifier henters hbody
    | string name => exact .string henters.1 henters.2.1 henters.2.2 hbody
    | global =>
      cases henters
      exact .global hbody
  body_absent := lowering_implies fun _ _ _ _ h => by
    obtain ⟨rfl, rfl⟩ := h
    exact .absent
  body_nested := lowering_implies fun _ _ _ _ h => by
    obtain ⟨inner, inside, made, rfl, rfl, henters, hbody⟩ := h
    exact .nested henters hbody
  body_items := lowering_implies fun _ _ _ _ h => by
    obtain ⟨first, others, _, _, rfl, rfl, hclauses, hitems⟩ := h
    obtain ⟨hshows, rfl⟩ := showsActs_of_account hclauses
    obtain rfl := views_of_clauses hshows
    exact .items hitems
  items_nil := lowering_implies fun _ _ _ _ h => by
    obtain ⟨rfl, rfl⟩ := h
    exact .nil
  items_cons := lowering_implies fun _ _ _ _ h => by
    obtain ⟨first, others, _, _, rfl, rfl, hitem, hrest⟩ := h
    exact .cons hitem hrest
  item_acts hacts := lowering_implies fun _ _ _ _ h => by
    obtain ⟨hshows, rfl⟩ := showsActs_of_account h
    exact showsItem_of_acts hacts hshows
  item_declaration := lowering_implies fun _ _ _ _ => .declaration
  item_exportDecl := lowering_implies fun _ _ _ _ => .exportDecl

theorem bindBody_lowers (body : NamespaceBody) (hx : index.HasScope x) :
    Lowers index (bindBody file x body) (Shown fun later => later.ShowsBody x body) :=
  (loweringLedger file).bindBody body x x hx

end

/-- Files are bound one after the other, each in the scope of its module. -/
theorem mapM_bindEntry_lowers (entries : List (ModuleId × ModuleFile))
    (h : ∀ entry ∈ entries, index.HasModule entry.1) :
    Lowers index (entries.mapM bindEntry) fun later views ids blocks =>
      ids = (partsOfFiles views).ids ∧ later.ShowsFiles entries views blocks := by
  induction entries generalizing index with
  | nil => exact .done fun _ _ => ⟨rfl, .nil⟩
  | cons entry rest ih =>
    obtain ⟨hmodule, hrest⟩ := List.forall_mem_cons.1 h
    have hentry : Lowers index (bindEntry entry) fun later view ids blocks =>
        view.path = entry.2.path.text ∧ Shown (fun later => later.ShowsItems (later.moduleScope entry.1)
          entry.2.tree.items) later view.declarations ids blocks := by
      refine .get_bind (.of_bound fun hbound => ?_)
      have hx := hbound.nested.moduleScope_lt entry.1
      refine (bindBody_lowers (.items entry.2.tree.items) hx).bind fun _ views ids blocks hgrows hviews =>
        .done fun later hlater => ?_
      obtain ⟨rfl, hshows⟩ := hviews later hlater
      rw [← (hgrows.trans hlater).changes.moduleScope_eq hmodule] at hshows
      rw [Ids.append_empty, List.append_nil]
      cases hshows with
      | items hshows => exact ⟨rfl, rfl, hshows⟩
    rw [List.mapM_cons]
    refine hentry.bind fun index' view ids blocks hgrows₁ hview => ?_
    refine (ih fun other hother => Nat.lt_of_lt_of_le (hrest other hother) hgrows₁.changes.modulesSize).bind
      fun _ views ids' blocks' hgrows₂ hviews => .done fun later hlater => ?_
    obtain ⟨hpath, rfl, hshows⟩ := hview later (hgrows₂.trans hlater)
    obtain ⟨rfl, hshows'⟩ := hviews later hlater
    exact ⟨by simp [partsOfFiles], by simpa using .cons hpath hshows hshows'⟩

end Binding

/-! ## Programs -/

namespace Modules

variable {modules : Modules}

/-- The files are shown, and every position that is taken is the id of one part of the view. -/
theorem bind_lowers (modules : Modules) : (partsOfFiles modules.bind.1).ids = modules.bind.2.ids ∧
    ∃ blocks : List ScopeId, Fresh modules.unbound modules.bind.2 blocks ∧
      modules.bind.2.ShowsFiles modules.bound modules.bind.1 blocks := by
  have hbound : Bound (fun _ => True) modules.unbound := (unbound_changes modules).bound (.empty _)
  have hbare : modules.unbound.ids = ∅ := by
    have hbare := modules.unbound_bare
    simp only [Index.ids, hbare.typeSites, hbare.functionSites, hbare.classSites]
    rfl
  obtain ⟨ids, blocks, -, hids, hfresh, hshows⟩ :=
    Binding.mapM_bindEntry_lowers modules.bound (fun _ hentry => (moduleScope_bound hentry).1) hbound
  obtain ⟨rfl, hfiles⟩ := hshows _ (.refl _)
  refine ⟨?_, blocks, hfresh, hfiles⟩
  rw [hbare, Ids.empty_append] at hids
  exact hids.symm

/-- The scopes of files are there before any block is given one. -/
theorem scopes_disjoint {blocks : List ScopeId} (h : Fresh modules.unbound modules.bind.2 blocks) :
    (globalScope :: modules.bound.map fun entry => modules.bind.2.moduleScope entry.1).Disjoint
      blocks := by
  have hnested := modules.unbound_nested
  have hold : ∀ x : ScopeId, modules.unbound.HasScope x → x ∉ blocks :=
    fun x hx hblock => Nat.not_le_of_lt hx (h.within x hblock).1
  refine List.disjoint_cons_left.2 ⟨hold _ hnested.global, fun x hx => ?_⟩
  obtain ⟨entry, hentry, rfl⟩ := List.mem_map.1 hx
  rw [(moduleScope_bound hentry).2]
  exact hold _ (hnested.moduleScope_lt entry.1)

/-- The ids of the nodes in a view differ from each other, like those of the signatures and those of the
classes, and lead back to the syntax that is shown and to the scope in which it stands. Each
`declare module` block has a scope of its own. -/
theorem bind_shows (modules : Modules) :
    ((partsOfFiles modules.bind.1).nodes.map (·.id)).Nodup ∧
      ((partsOfFiles modules.bind.1).signatures.map (·.id)).Nodup ∧
        ((partsOfFiles modules.bind.1).classes.map (·.id)).Nodup ∧
          (partsOfFiles modules.bind.1).ids = modules.bind.2.ids ∧
            ∃ blocks : List ScopeId, blocks.Nodup ∧
              (globalScope :: modules.bound.map fun entry => modules.bind.2.moduleScope entry.1).Disjoint
                blocks ∧
                modules.bind.2.ShowsFiles modules.bound modules.bind.1 blocks := by
  obtain ⟨hids, blocks, hfresh, hfiles⟩ := modules.bind_lowers
  exact ⟨Ids.nodup_of_map_range _ NodeId.index (congrArg Ids.nodes hids),
    Ids.nodup_of_map_range _ FunctionId.index (congrArg Ids.functions hids),
    Ids.nodup_of_map_range _ ClassId.index (congrArg Ids.classes hids), hids, blocks, hfresh.nodup,
    scopes_disjoint hfresh, hfiles⟩

end Modules

end ComponentSchema
