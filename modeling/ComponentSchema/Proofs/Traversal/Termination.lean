import ComponentSchema.Proofs.Checker.ResolutionDepth
import ComponentSchema.Proofs.Checker.StableAnswers
import ComponentSchema.Proofs.Traversal.DocumentContents
import Mathlib.Data.Set.Function

/-!
# Documents are finished

A program makes types while it is documented, so nothing bounds in advance how many there are. What
bounds a document is where the types with alias names come from: each is the answer of an alias
declaration, and a declaration gets its answer once. So there are no more of them than alias
declarations, at any time, and an expansion path, on which every type but the outermost has an alias
name, is at most one longer (`Arena.Path.length_le`).

Expanding a type takes one step (`TypeFacts.expandStep`) and leaves the types that its members have to
further expansions. Take any attempts at expansion, each of which takes one step on every expansion
path and leaves the rest to the one before (`Program.Descends`): enough of them make the document,
whatever the first does, and whatever they do where there is no expansion path.

Results.
* `Arena.Accounts.exists_maker`: different types with alias names are answers of different aliases.
* `Program.Descends.agrees`: by induction on the attempts, along expansion paths.
* `Program.document_terminates`: documents, resolutions and the types made on the way.
-/
namespace ComponentSchema

open Syntax Relation Arena

/-! ## Types with alias names -/

namespace Arena

variable {index : Index} {a a' : Arena} {path : List TypeId} {t u : TypeId}

/-- Whether a type has an alias name. -/
def HasAlias (a : Arena) (t : TypeId) : Prop := (a.typeData t).aliasName.isSome = true

theorem Retains.hasAlias (h : Retains a a') (ht : a.HasType t) (halias : a.HasAlias t) :
    a'.HasAlias t := by
  rwa [HasAlias, h.typeData ht]

/-- Different types with alias names are the answers of different alias declarations. -/
theorem Accounts.exists_maker (h : Accounts index a) :
    ∃ maker : TypeId → DeclId, Set.InjOn maker {t | a.HasType t ∧ a.HasAlias t} ∧
      ∀ t name, a.HasType t → (a.typeData t).aliasName = some name →
        index.IsAliasNamed (maker t) name ∧
          a.declared.lookup (maker t) = some (.done (some t)) := by
  have hmade : ∀ t, ∃ d, ∀ name, a.HasType t → (a.typeData t).aliasName = some name →
      index.IsAliasNamed d name ∧ a.declared.lookup d = some (.done (some t)) := by
    intro t
    by_cases hnamed : a.HasType t ∧ a.HasAlias t
    · obtain ⟨name, hname⟩ := Option.isSome_iff_exists.1 hnamed.2
      obtain ⟨d, hd, hdone⟩ := h.named (getElem?_types hnamed.1) hname
      refine ⟨d, fun other _ hother => ?_⟩
      obtain rfl := Option.some.inj (hname.symm.trans hother)
      exact ⟨hd, hdone⟩
    · refine ⟨⟨0⟩, fun name ht hname => absurd ⟨ht, ?_⟩ hnamed⟩
      rw [HasAlias, hname]
      rfl
  choose maker hmaker using hmade
  refine ⟨maker, fun t ht u hu heq => ?_, hmaker⟩
  obtain ⟨name, hname⟩ := Option.isSome_iff_exists.1 ht.2
  obtain ⟨name', hname'⟩ := Option.isSome_iff_exists.1 hu.2
  have hdone := (hmaker t name ht.1 hname).2
  rw [heq, (hmaker u name' hu.1 hname').2] at hdone
  exact (Option.some.inj (DeclState.done.inj (Option.some.inj hdone))).symm

/-- There are no more types with alias names than alias declarations. -/
theorem Accounts.length_le (h : Accounts index a) {types : List TypeId} (hnodup : types.Nodup)
    (halias : ∀ t ∈ types, a.HasType t ∧ a.HasAlias t) :
    types.length ≤ index.decls.countP Program.isAlias := by
  obtain ⟨maker, hinj, hmaker⟩ := h.exists_maker
  have hplaces : (types.map fun t => (maker t).index).Nodup :=
    hnodup.map_on fun t ht u hu heq => hinj (halias t ht) (halias u hu) (congrArg DeclId.mk heq)
  rw [← List.length_map fun t => (maker t).index]
  refine length_le_countP hplaces fun i hi => ?_
  obtain ⟨t, ht, rfl⟩ := List.mem_map.1 hi
  obtain ⟨hhas, hnamed⟩ := halias t ht
  obtain ⟨name, hname⟩ := Option.isSome_iff_exists.1 hnamed
  obtain ⟨⟨scope, type, hdecl⟩, -⟩ := hmaker t name hhas hname
  rw [hdecl]
  rfl

/-! ## Expansion paths -/

/-- The types of an expansion path, innermost first: the outermost is any type; every other one has an
alias name, is the type of a member of the one around it, and does not come before. -/
inductive Path (a : Arena) : List TypeId → Prop
  | root {t : TypeId} : a.HasType t → Path a [t]
  | nested {t u : TypeId} {m : MemberId} {outer : List TypeId} : Path a (t :: outer) →
      m ∈ (a.typeData t).members → a.memberTypes.lookup m = some (some u) → a.HasAlias u →
      u ∉ t :: outer → Path a (u :: t :: outer)

theorem Path.nodup (h : a.Path path) : path.Nodup := by
  induction h with
  | root => exact List.nodup_singleton _
  | nested _ _ _ _ hnew ih => exact List.nodup_cons.2 ⟨hnew, ih⟩

theorem hasType_of_memberTypes (hs : Sound index (fun _ => True) a) {m : MemberId}
    (h : a.memberTypes.lookup m = some (some u)) : a.HasType u := by
  exact (hs.memberTypes _ (mem_of_lookup h)).2 u rfl

theorem Path.hasType (hs : Sound index (fun _ => True) a) (h : a.Path path) :
    ∀ t ∈ path, a.HasType t := by
  induction h with
  | root ht => simpa using ht
  | nested _ _ htype _ _ ih => exact List.forall_mem_cons.2 ⟨hasType_of_memberTypes hs htype, ih⟩

theorem Path.hasAlias (h : a.Path path) : ∀ t ∈ path.dropLast, a.HasAlias t := by
  induction h with
  | root => simp
  | nested _ _ _ halias _ ih =>
    rw [List.dropLast_cons_cons]
    exact List.forall_mem_cons.2 ⟨halias, ih⟩

/-- An expansion path has at most one more type than there are alias declarations. -/
theorem Path.length_le (ha : a.Reached index) (h : a.Path path) :
    path.length ≤ index.decls.countP Program.isAlias + 1 := by
  have hsub := List.dropLast_sublist path
  have hle := ha.accounts.length_le (h.nodup.sublist hsub) fun t ht =>
    ⟨h.hasType ha.sound t (hsub.subset ht), h.hasAlias t ht⟩
  rw [List.length_dropLast] at hle
  omega

/-- An expansion path stays one. -/
theorem Path.retains (hs : Sound index (fun _ => True) a) (hk : Retains a a') (h : a.Path path) :
    a'.Path path := by
  induction h with
  | root ht => exact .root (hk.hasType ht)
  | @nested t u m outer hpath hm htype halias hnew ih =>
    have ht : a.HasType t := hpath.hasType hs t (List.mem_cons_self ..)
    refine .nested ih ?_ (hk.memberTypes htype) ?_ hnew
    · rwa [hk.typeData ht]
    · exact hk.hasAlias (hasType_of_memberTypes hs htype) halias

/-- A list of members is no longer than there are members. -/
theorem Holds.length_le {members : List MemberId} (h : a.Holds members) :
    members.length ≤ a.members.size :=
  length_le_of_places (fun ⟨_⟩ ⟨_⟩ heq => congrArg MemberId.mk heq) h.names.of_map h.has

end Arena

/-! ## Steps of an expansion -/

namespace TypeFacts

variable {m : Type → Type} [Monad m] (facts : TypeFacts m) (mode : SchemaMode)

/-- One step of an expansion; `below` expands the types that the members have. -/
def expandStep (below : TypeId → Extractor → m (Extracted Unit)) (type : TypeId)
    (extractor : Extractor) : m (Extracted Unit) :=
  if type ∈ extractor.expanding || (extractor.emittedName? type).isSome then
    pure ⟨(), [], extractor⟩
  else do
    let found ← facts.schemaOf below type extractor
    pure ⟨(), found.added ++ [found.answer], found.extractor.record mode type found.answer.name⟩

/-- `extractInto`, with any way to expand types. -/
def extractIntoWith (expand : TypeId → Extractor → m (Extracted Unit)) (type : TypeId)
    (extractor : Extractor) : m (Extracted String) := do
  match extractor.emittedName? type with
  | some name => pure ⟨name, [], extractor⟩
  | none =>
    let found ← facts.schemaOf expand type extractor
    pure ⟨found.answer.name, found.added ++ [found.answer],
      found.extractor.record mode type found.answer.name⟩

/-- `visitCandidate`, with any way to expand types. -/
def visitCandidateWith (expand : TypeId → Extractor → m (Extracted Unit)) (declaration : Declaration)
    (traversal : Traversal) : m Traversal := do
  match ← facts.classify declaration with
  | none => pure traversal
  | some candidate =>
    let props ←
      match candidate.props with
      | none => pure none
      | some node => facts.typeOf node
    match props with
    | none => pure (traversal.addComponent ⟨candidate.name, none⟩ [] traversal.extractor)
    | some type =>
      let found ← facts.extractIntoWith mode expand type traversal.extractor
      pure (traversal.addComponent ⟨candidate.name, some found.answer⟩ found.added found.extractor)

/-- `visit`, with any way to expand types. -/
def visitWith (expand : TypeId → Extractor → m (Extracted Unit)) (path : String)
    (traversal : Traversal) : Declaration → m Traversal
  | .classDecl declaration => pure (traversal.addClass (facts.classEntry path declaration))
  | declaration => facts.visitCandidateWith mode expand declaration traversal

/-- `visitFile`, with any way to expand types. -/
def visitFileWith (expand : TypeId → Extractor → m (Extracted Unit)) (traversal : Traversal)
    (file : SourceFile) : m Traversal :=
  (file.declarations.flatMap Declaration.visited).foldlM (facts.visitWith mode expand file.path)
    traversal

/-- `document`, with any way to expand types. -/
def documentWith (expand : TypeId → Extractor → m (Extracted Unit)) : m Documentation := do
  let traversal ← facts.files.foldlM (facts.visitFileWith mode expand) Traversal.start
  pure traversal.document

theorem document_eq_documentWith :
    facts.document mode = facts.documentWith mode (facts.expand mode facts.aliasBound) := by
  have hvisit : ∀ path traversal declaration, facts.visit mode path traversal declaration =
      facts.visitWith mode (facts.expand mode facts.aliasBound) path traversal declaration := by
    intro path traversal declaration
    cases declaration <;> rfl
  have hfile : facts.visitFile mode =
      facts.visitFileWith mode (facts.expand mode facts.aliasBound) := by
    funext traversal file
    rw [visitFile, visitFileWith, funext₂ (hvisit file.path)]
  rw [document, documentWith, hfile]

end TypeFacts

/-! ## Two ways to expand types -/

section

variable {index : Index} {a a' : Arena} {path : List TypeId} {α β : Type}

/-- Two questions that go alike, by turns, with an answer for which `Q` holds. -/
structure Same (index : Index) (a : Arena) (first second : Resolve α) (Q : α → Arena → Prop) :
    Prop where
  run : first.run a = second.run a
  runs : Runs (Turns index fun _ => True) a second Q

theorem Same.of_runs {question : Resolve α} {Q : α → Arena → Prop}
    (h : Runs (Turns index fun _ => True) a question Q) : Same index a question question Q :=
  ⟨rfl, h⟩

theorem Same.done {answer : α} {Q : α → Arena → Prop} (hq : Q answer a) :
    Same index a (pure answer) (pure answer) Q :=
  .of_runs (.done hq)

theorem Same.bind {first second : Resolve α} {next next' : α → Resolve β} {Q : α → Arena → Prop}
    {Q' : β → Arena → Prop} (h : Same index a first second Q)
    (hnext : ∀ answer a', Turns index (fun _ => True) a a' → Q answer a' →
      Same index a' (next answer) (next' answer) Q') :
    Same index a (first >>= next) (second >>= next') Q' :=
  ⟨Resolve.run_bind_congr h.run (hnext _ _ h.runs.1 h.runs.2).run,
    h.runs.bind fun answer a' hturns hq => (hnext answer a' hturns hq).runs⟩

/-- Something is read off the arena first. -/
theorem Same.read {r : Arena → α} {next next' : α → Resolve β} {Q : β → Arena → Prop}
    (h : Same index a (next (r a)) (next' (r a)) Q) :
    Same index a ((return r (← get)) >>= next) ((return r (← get)) >>= next') Q :=
  ⟨h.run, h.runs⟩

theorem Arena.Reached.turns (h : a.Reached index) (hturns : Turns index (fun _ => True) a a') :
    a'.Reached index :=
  h.steps (hturns.moved index.scoped_true h.sound).steps

theorem Arena.Path.turns (ha : a.Reached index) (hturns : Turns index (fun _ => True) a a')
    (h : a.Path path) : a'.Path path :=
  h.retains ha.sound (hturns.moved index.scoped_true ha.sound).retains

end

namespace Program

variable {program : Program} {mode : SchemaMode} {a : Arena} {path : List TypeId}
variable {f g : TypeId → Extractor → Resolve (Extracted Unit)} {β : Type}

/-- On an expansion path, the two expand the types that members may have alike. -/
def AgreeOn (program : Program) (f g : TypeId → Extractor → Resolve (Extracted Unit))
    (path : List TypeId) : Prop :=
  ∀ {a : Arena} {u : TypeId} {extractor : Extractor}, a.Reached program.index → a.Path path →
    extractor.expanding = path → (u ∉ path → a.Path (u :: path)) →
    Same program.index a (f u extractor) (g u extractor)
      fun found _ => found.extractor.expanding = path

theorem memberType_runs (ha : a.Reached program.index) {member : MemberId} (hm : a.HasMember member) :
    Runs (Turns program.index fun _ => True) a (program.facts.memberType member)
      fun r a' => a'.memberTypes.lookup member = some r :=
  ⟨(Resolve.memberType_turns program.index.scoped_true ha.sound member).1,
    Resolve.memberType_kept hm⟩

theorem property_same {type : TypeId} {outer : List TypeId}
    (hagree : program.AgreeOn f g (type :: outer)) (ha : a.Reached program.index)
    (hpath : a.Path (type :: outer)) {member : MemberId} (hm : member ∈ (a.typeData type).members)
    {extractor : Extractor} (hex : extractor.expanding = type :: outer) :
    Same program.index a (program.facts.property f member extractor)
      (program.facts.property g member extractor)
      fun found _ => found.extractor.expanding = type :: outer := by
  have ht : a.HasType type := hpath.hasType ha.sound type (List.mem_cons_self ..)
  have hhas : a.HasMember member :=
    (ha.sound.types _ (Array.mem_of_getElem? (getElem?_types ht))).has member hm
  refine Same.read (Same.read ((Same.of_runs (memberType_runs ha hhas)).bind
    fun r a' hturns hkept => ?_))
  cases r with
  | none => exact .done hex
  | some u =>
    refine Same.read (Same.read ?_)
    have ha' := ha.turns hturns
    have hpath' := hpath.turns ha hturns
    rcases halias : (a'.typeData u).aliasName with _ | complexType
    · exact .done hex
    · have hretains := (hturns.moved program.index.scoped_true ha.sound).retains
      -- The answer has been kept, so `u` is the type of the member from now on.
      have hnested : u ∉ type :: outer → a'.Path (u :: type :: outer) := fun hnew =>
        .nested hpath' (by rwa [hretains.typeData ht]) hkept (by rw [HasAlias, halias]; rfl) hnew
      exact (hagree ha' hpath' hex hnested).bind fun found _ _ hleft => .done hleft

theorem properties_same {type : TypeId} {outer : List TypeId}
    (hagree : program.AgreeOn f g (type :: outer)) {members : List MemberId} {extractor : Extractor}
    (ha : a.Reached program.index) (hpath : a.Path (type :: outer))
    (hm : ∀ member ∈ members, member ∈ (a.typeData type).members)
    (hex : extractor.expanding = type :: outer) :
    Same program.index a (program.facts.properties f members extractor)
      (program.facts.properties g members extractor)
      fun found _ => found.extractor.expanding = type :: outer := by
  induction members generalizing a extractor with
  | nil => exact .done hex
  | cons member rest ih =>
    have ht : a.HasType type := hpath.hasType ha.sound type (List.mem_cons_self ..)
    obtain ⟨hfirst, hrest⟩ := List.forall_mem_cons.1 hm
    refine (property_same hagree ha hpath hfirst hex).bind fun found a' hturns hleft => ?_
    have hretains := (hturns.moved program.index.scoped_true ha.sound).retains
    rw [← hretains.typeData ht] at hrest
    exact (ih (ha.turns hturns) (hpath.turns ha hturns) hrest hleft).bind
      fun others _ _ hleft' => .done hleft'

theorem schemaName_runs (program : Program) (a : Arena) (type : TypeId) :
    Runs (Turns program.index fun _ => True) a (program.facts.schemaName type)
      fun _ _ => True := by
  unfold TypeFacts.schemaName
  have hname : Runs (Turns program.index fun _ => True) a (program.facts.aliasName type)
      fun _ _ => True := ⟨.refl, trivial⟩
  refine hname.bind fun name a' _ _ => ?_
  cases name with
  | some => exact .done trivial
  | none =>
    have hsymbol : Runs (Turns program.index fun _ => True) a' (program.facts.symbol type)
        fun _ _ => True := ⟨.refl, trivial⟩
    refine hsymbol.bind fun symbol a'' _ _ => ?_
    cases symbol <;> exact .done trivial

/-- A type that is expanded is on the path while its members are looked at, and not afterwards. -/
theorem schemaOf_same {type : TypeId} {extractor : Extractor}
    (hagree : program.AgreeOn f g (type :: extractor.expanding)) (ha : a.Reached program.index)
    (hpath : a.Path (type :: extractor.expanding)) :
    Same program.index a (program.facts.schemaOf f type extractor)
      (program.facts.schemaOf g type extractor)
      fun found _ => found.extractor.expanding = extractor.expanding := by
  refine (Same.of_runs (schemaName_runs program a type)).bind fun name a' hturns _ => Same.read ?_
  refine (properties_same hagree (ha.turns hturns) (hpath.turns ha hturns) (fun _ => id) rfl).bind
    fun found _ _ hleft => .done ?_
  rw [Extractor.leave, hleft]
  exact List.erase_cons_head ..

theorem schemaOf_recorded {type : TypeId} {extractor : Extractor} (mode : SchemaMode)
    (answer : String → β)
    (hagree : program.AgreeOn f g (type :: extractor.expanding)) (ha : a.Reached program.index)
    (hpath : a.Path (type :: extractor.expanding)) :
    Same program.index a
      (program.facts.schemaOf f type extractor >>= fun found =>
        pure (Extracted.mk (answer found.answer.name) (found.added ++ [found.answer])
          (found.extractor.record mode type found.answer.name)))
      (program.facts.schemaOf g type extractor >>= fun found =>
        pure (Extracted.mk (answer found.answer.name) (found.added ++ [found.answer])
          (found.extractor.record mode type found.answer.name)))
      fun found _ => found.extractor.expanding = extractor.expanding := by
  refine (schemaOf_same hagree ha hpath).bind fun found _ _ hleft => .done ?_
  cases mode <;> exact hleft

/-! ## Attempts at expansion -/

/-- Attempts at the expansion of types: each takes one step on the expansion paths of arenas that are
reached, and leaves the types of members to the one before. The first may be anything, and so may all
of them elsewhere. -/
def Descends (program : Program) (mode : SchemaMode)
    (attempt : Nat → TypeId → Extractor → Resolve (Extracted Unit)) : Prop :=
  ∀ n type extractor a, a.Reached program.index → a.Path extractor.expanding →
    (attempt (n + 1) type extractor).run a =
      (program.facts.expandStep mode (attempt n) type extractor).run a

/-- There are attempts that start from any way to expand types. -/
theorem descends_from (program : Program) (mode : SchemaMode)
    (first : TypeId → Extractor → Resolve (Extracted Unit)) :
    program.Descends mode (Nat.rec first fun _ below => program.facts.expandStep mode below) :=
  fun _ _ _ _ _ _ => rfl

/-- By induction on the attempts: with the types on the path there are more of them than types with
alias names can ever be. -/
theorem Descends.agrees {attempt : Nat → TypeId → Extractor → Resolve (Extracted Unit)}
    (h : program.Descends mode attempt) {n depth : Nat}
    (hn : program.facts.aliasBound + 1 < n + path.length)
    (hdepth : program.facts.aliasBound < depth + path.length) :
    program.AgreeOn (attempt n) (program.facts.expand mode depth) path := by
  induction n generalizing depth path with
  -- With no attempt left the path would be longer than any can be.
  | zero =>
    intro a u extractor ha hpath
    have hlength : path.length ≤ program.facts.aliasBound + 1 := hpath.length_le ha
    omega
  | succ n ih =>
    intro a u extractor ha hpath hex hnested
    have hattempt := h n u extractor a ha (hex ▸ hpath)
    by_cases hstop : (u ∈ extractor.expanding || (extractor.emittedName? u).isSome) = true
    · have hexpand : program.facts.expand mode depth u extractor = pure ⟨(), [], extractor⟩ := by
        cases depth with
        | zero => rfl
        | succ depth => rw [TypeFacts.expand, if_pos hstop]
      rw [TypeFacts.expandStep, if_pos hstop] at hattempt
      rw [hexpand]
      exact ⟨hattempt, .done hex⟩
    · have hnew : u ∉ path := fun hu => hstop (by simp [hex, hu])
      have hlength : (u :: path).length ≤ program.facts.aliasBound + 1 :=
        (hnested hnew).length_le ha
      rw [List.length_cons] at hlength
      obtain ⟨depth, rfl⟩ : ∃ k, depth = k + 1 := ⟨depth - 1, by omega⟩
      have hbelow : program.AgreeOn (attempt n) (program.facts.expand mode depth) (u :: path) := by
        refine ih ?_ ?_
        · rw [List.length_cons]
          omega
        · rw [List.length_cons]
          omega
      subst hex
      have hboth := schemaOf_recorded mode (fun _ => ()) hbelow ha (hnested hnew)
      rw [TypeFacts.expandStep, if_neg hstop] at hattempt
      rw [TypeFacts.expand, if_neg hstop]
      exact ⟨hattempt.trans hboth.run, hboth.runs⟩

/-! ## Documents -/

theorem returnsJsxElement_runs (ha : a.Reached program.index) (signature : FunctionLike) :
    Runs (Turns program.index fun _ => True) a (program.facts.returnsJsxElement signature)
      fun _ _ => True := by
  refine (returnType_turns program.index.scoped_true ha.sound signature).bind fun r a' _ _ => ?_
  cases r with
  | none => exact .done trivial
  | some type => exact ⟨.refl, trivial⟩

theorem classify_runs (ha : a.Reached program.index) (declaration : Declaration) :
    Runs (Turns program.index fun _ => True) a (program.facts.classify declaration)
      fun _ _ => True := by
  unfold TypeFacts.classify
  rcases declaration.signature? with _ | signature
  · exact .done trivial
  · have hcomponent : Runs (Turns program.index fun _ => True) a
        (program.facts.isComponent signature) fun _ _ => True :=
      (returnsJsxElement_runs ha signature).bind fun _ _ _ _ => .done trivial
    refine hcomponent.bind fun isComponent a' _ _ => ?_
    cases isComponent <;> exact .done trivial

theorem extractInto_same (hagree : ∀ type, program.AgreeOn f g [type]) (ha : a.Reached program.index)
    {type : TypeId} (ht : a.HasType type) {extractor : Extractor} (hex : extractor.expanding = []) :
    Same program.index a (program.facts.extractIntoWith mode f type extractor)
      (program.facts.extractIntoWith mode g type extractor)
      fun found _ => found.extractor.expanding = [] := by
  unfold TypeFacts.extractIntoWith
  rcases extractor.emittedName? type with _ | name
  · rw [← hex]
    exact schemaOf_recorded mode id (hex ▸ hagree type) ha (hex ▸ .root ht)
  · exact .done hex

/-- A component is added with the schema of its props, if it has any. -/
theorem addComponent_same (hagree : ∀ type, program.AgreeOn f g [type]) (ha : a.Reached program.index)
    (mode : SchemaMode) (name : String) {props : Option TypeId} (hprops : a.HasAnswer props)
    {traversal : Traversal} (hex : traversal.extractor.expanding = []) :
    let add expand : Resolve Traversal :=
      match props with
      | none => pure (traversal.addComponent ⟨name, none⟩ [] traversal.extractor)
      | some type => do
        let found ← program.facts.extractIntoWith mode expand type traversal.extractor
        pure (traversal.addComponent ⟨name, some found.answer⟩ found.added found.extractor)
    Same program.index a (add f) (add g) fun found _ => found.extractor.expanding = [] := by
  rcases props with _ | type
  · exact .done hex
  · exact (extractInto_same hagree ha (hprops type rfl) hex).bind fun found _ _ hleft => .done hleft

theorem visitCandidate_same (hagree : ∀ type, program.AgreeOn f g [type])
    (ha : a.Reached program.index) (declaration : Declaration) {traversal : Traversal}
    (hex : traversal.extractor.expanding = []) :
    Same program.index a (program.facts.visitCandidateWith mode f declaration traversal)
      (program.facts.visitCandidateWith mode g declaration traversal)
      fun found _ => found.extractor.expanding = [] := by
  refine (Same.of_runs (classify_runs ha declaration)).bind fun candidate a' hturns _ => ?_
  rcases candidate with _ | ⟨name, _ | node⟩
  · exact .done hex
  · exact addComponent_same hagree (ha.turns hturns) mode name .none hex
  · have ha' := ha.turns hturns
    have hprops := Resolve.typeOfNode_turns program.index.scoped_true ha'.sound node.id
    exact (Same.of_runs hprops).bind fun props b hturns' hr =>
      addComponent_same hagree (ha'.turns hturns') mode name hr hex

theorem visit_same (hagree : ∀ type, program.AgreeOn f g [type]) (ha : a.Reached program.index)
    (path : String) (declaration : Declaration) {traversal : Traversal}
    (hex : traversal.extractor.expanding = []) :
    Same program.index a (program.facts.visitWith mode f path traversal declaration)
      (program.facts.visitWith mode g path traversal declaration)
      fun found _ => found.extractor.expanding = [] := by
  cases declaration with
  | classDecl declaration => exact .done hex
  | funDecl | varDecl | namespaceDecl => exact visitCandidate_same hagree ha _ hex

/-- One visit after the other. -/
theorem foldlM_same {β : Type} {visit visit' : Traversal → β → Resolve Traversal}
    (hvisit : ∀ {a : Arena} {traversal : Traversal} (item : β), a.Reached program.index →
      traversal.extractor.expanding = [] →
      Same program.index a (visit traversal item) (visit' traversal item)
        fun found _ => found.extractor.expanding = []) (items : List β)
    (ha : a.Reached program.index) {traversal : Traversal}
    (hex : traversal.extractor.expanding = []) :
    Same program.index a (items.foldlM visit traversal) (items.foldlM visit' traversal)
      fun found _ => found.extractor.expanding = [] := by
  induction items generalizing a traversal with
  | nil => exact .done hex
  | cons item rest ih =>
    rw [List.foldlM_cons, List.foldlM_cons]
    exact (hvisit item ha hex).bind fun found a' hturns hleft => ih (ha.turns hturns) hleft

/-- Two ways to expand types make the same document if they agree below every type. -/
theorem document_same (hagree : ∀ type, program.AgreeOn f g [type]) (mode : SchemaMode) :
    Same program.index Arena.empty (program.facts.documentWith mode f)
      (program.facts.documentWith mode g) fun _ _ => True := by
  refine Same.bind (foldlM_same (fun file ha hex => ?_) program.facts.files (.empty _) rfl)
    fun traversal _ _ _ => .done trivial
  exact foldlM_same (fun declaration ha hex => visit_same hagree ha file.path declaration hex)
    (file.declarations.flatMap Declaration.visited) ha hex

theorem Descends.document {attempt : Nat → TypeId → Extractor → Resolve (Extracted Unit)}
    (h : program.Descends mode attempt) {n : Nat} (hn : program.facts.aliasBound < n) :
    Same program.index Arena.empty (program.facts.documentWith mode (attempt n))
      (program.facts.document mode) fun _ _ => True := by
  rw [TypeFacts.document_eq_documentWith]
  refine document_same (fun type => h.agrees ?_ ?_) mode
  · rw [List.length_singleton]
    omega
  · rw [List.length_singleton]
    omega

/-! ## The result -/

/-- For every program and both schema modes. Enough attempts at expansion make the document, enough
attempts at resolution give every declaration its type, whatever the first attempts do; and in every
arena that is reached, at the end of a document and everywhere on the way, types with alias names are
made by the one resolution of an alias declaration of that name, different ones by different
declarations, expansion paths are bounded by the number of alias declarations, and the members of a
type are finitely many different ones. -/
theorem document_terminates (program : Program) (mode : SchemaMode) :
    (∀ attempt, program.Descends mode attempt → ∀ n, program.facts.aliasBound < n →
      (program.facts.documentWith mode (attempt n)).run Arena.empty =
        (program.facts.document mode).run Arena.empty) ∧
    (∀ attempt, Resolve.Nests program.index attempt → ∀ n, program.index.decls.size < n →
      ∀ a d, a.Reached program.index →
        (attempt n d).run a = (Resolve.declared program.index d).run a) ∧
    ((program.facts.document mode).run Arena.empty).2.Reached program.index ∧
    ∀ a, a.Reached program.index →
      (∀ a', Step program.index (fun _ => True) a a' → ∀ t name, ¬ a.HasType t → a'.HasType t →
        (a'.typeData t).aliasName = some name → ∃ d, program.index.IsAliasNamed d name ∧
          a.declared.lookup d = some .resolving ∧ a'.declared.lookup d = some (.done (some t))) ∧
      (∃ maker : TypeId → DeclId, Set.InjOn maker {t | a.HasType t ∧ a.HasAlias t} ∧
        ∀ t name, a.HasType t → (a.typeData t).aliasName = some name →
          program.index.IsAliasNamed (maker t) name ∧
            a.declared.lookup (maker t) = some (.done (some t))) ∧
      (∀ path, a.Path path → path.length ≤ program.index.decls.countP isAlias + 1) ∧
      ∀ t, a.HasType t → a.Holds (a.typeData t).members ∧
        (a.typeData t).members.length ≤ a.members.size := by
  have hindex := program.index.scoped_true
  have hself : program.Descends mode _ := descends_from program mode fun _ _ => pure ⟨(), [], .fresh⟩
  have hdocument := (hself.document (Nat.lt_succ_self _)).runs.1
  refine ⟨fun attempt h n hn => (h.document hn).run, fun attempt h n hn a d ha => h.declared hn ha d,
    (Reached.empty program.index).turns hdocument, fun a ha => ⟨?_, ha.accounts.exists_maker,
      fun path hpath => hpath.length_le ha, fun t ht => ?_⟩⟩
  · intro a' hstep t name hnew ht hname
    exact hstep.makes_alias (Nat.le_of_not_lt hnew) (getElem?_types ht) hname
  · have hholds := ha.sound.types _ (Array.mem_of_getElem? (getElem?_types ht))
    exact ⟨hholds, hholds.length_le⟩

end Program

end ComponentSchema
