import ComponentSchema.Proofs.Checker.QueryHistories
import ComponentSchema.Proofs.ReturnInference.ReturnOutlines
import ComponentSchema.Proofs.Traversal.DocumentContents

/-!
# What a file contributes

The components and the schemas that a file contributes to a document, given by the index alone: there
is no arena, no extractor and no other file. In a straight arena this is what is added to a document
while the file is visited; of the schemas it is in `repeated` mode only, since in the other mode those
that have been appended before are left out.

Results.
* `expand_expands`: the expansion of a type, below any path.
* `extractInto_asks`: the schemas that are appended for props.
* `visitFile_finds`: what is added while a file is visited.
* `Program.traversal_succ`: the same for each file of a program.
-/
namespace ComponentSchema

open Syntax

/-! ## Schemas by the index -/

/-- The name of a schema. -/
def schemaNameOf (aliasName : Option String) (symbol : Option TypeSymbol) : String :=
  aliasName.getD ((symbol.map (·.name)).getD anonymousTypeName)

section

variable (index : Index)

/-- The type of a member. -/
def OutlineMember.type? (o : OutlineMember) : Option Outline := meaning index (.member o.owner o.data)

/-- The property that a member becomes. -/
def OutlineMember.property (o : OutlineMember) : Property where
  name := o.data.name
  intrinsicType := (o.type? index).bind fun v => v.intrinsic.map (·.text)
  complexType := (o.type? index).bind (·.aliasName)
  optional := o.data.optional

/-- The type of a member, if it has an alias name. -/
def OutlineMember.nested? (o : OutlineMember) : Option Outline :=
  (o.type? index).filter fun v => v.aliasName.isSome

namespace Outline

variable (v : Outline)

def schemaName : String := schemaNameOf v.aliasName v.symbol

/-- The schema of a type. -/
def schema : Schema := ⟨v.schemaName, v.members.map (·.property index)⟩

/-- The types with alias names that the members of a type have. -/
def nested : List Outline := v.members.filterMap (·.nested? index)

open Classical in
/-- The schemas found from a type on along every path on which nothing comes twice, inner ones first.
The first argument bounds the length of a path. -/
noncomputable def expansion : Nat → List TypeOrigin → Outline → List Schema
  | 0, _, _ => []
  | depth + 1, path, v =>
    if v.origin ∈ path then []
    else (v.nested index).flatMap (expansion depth (v.origin :: path)) ++ [v.schema index]

/-- The schemas found from a type on, its own included. -/
noncomputable def schemas : List Schema :=
  (v.nested index).flatMap (expansion index (index.decls.countP Program.isAlias) [v.origin]) ++
    [v.schema index]

end Outline

end

/-! ## The bound on a path -/

/-- There are no more different origins of types with alias names than aliases. -/
theorem length_le_aliases {index : Index} {origins : List TypeOrigin} (hnodup : origins.Nodup)
    (halias : ∀ o ∈ origins, o.FromAlias index) :
    origins.length ≤ index.decls.countP Program.isAlias := by
  let place : TypeOrigin → Nat
    | .declared d => d.index
    | _ => 0
  have hplaces : (origins.map place).Nodup := by
    refine hnodup.map_on fun o ho o' ho' heq => ?_
    obtain ⟨⟨i⟩, decl, rfl, -⟩ := halias o ho
    obtain ⟨⟨i'⟩, decl', rfl, -⟩ := halias o' ho'
    obtain rfl : i = i' := heq
    rfl
  rw [← List.length_map place]
  refine length_le_countP hplaces fun i hi => ?_
  obtain ⟨o, ho, rfl⟩ := List.mem_map.1 hi
  obtain ⟨d, decl, rfl, hdecl, hisAlias⟩ := halias o ho
  simpa [place, hdecl] using hisAlias

namespace Outline

variable {index : Index} {depth depth' : Nat} {path : List TypeOrigin} {v u : Outline}

open Classical in
/-- `depth` more aliases than come on `path` are all there can be. -/
structure Deep (index : Index) (depth : Nat) (path : List TypeOrigin) : Prop where
  nodup : path.Nodup
  enough : index.decls.countP Program.isAlias ≤
    depth + (path.filter fun o => o.FromAlias index).length

theorem Deep.root (h : index.decls.countP Program.isAlias ≤ depth) (o : TypeOrigin) :
    Deep index depth [o] :=
  ⟨List.nodup_singleton o, Nat.le_add_right_of_le h⟩

theorem Deep.step (h : Deep index (depth + 1) path) {o : TypeOrigin} (halias : o.FromAlias index)
    (ho : o ∉ path) : Deep index depth (o :: path) := by
  classical
  refine ⟨List.nodup_cons.2 ⟨ho, h.nodup⟩, ?_⟩
  have := h.enough
  rw [List.filter_cons_of_pos (by simpa using halias), List.length_cons]
  omega

/-- A bounded descent does not stop short of what is not on the path. -/
theorem Deep.pos (h : Deep index depth path) {o : TypeOrigin} (halias : o.FromAlias index)
    (ho : o ∉ path) : 0 < depth := by
  classical
  have hnodup : (o :: path.filter fun o => o.FromAlias index).Nodup :=
    List.nodup_cons.2 ⟨fun hmem => ho (List.mem_of_mem_filter hmem), h.nodup.filter _⟩
  have hle := length_le_aliases hnodup fun o' ho' => by
    rcases List.mem_cons.1 ho' with rfl | ho'
    · exact halias
    · simpa using (List.mem_filter.1 ho').2
  have := h.enough
  rw [List.length_cons] at hle
  omega

theorem fromAlias_of_mem_nested (h : u ∈ v.nested index) : u.origin.FromAlias index := by
  obtain ⟨o, -, hu⟩ := List.mem_filterMap.1 h
  obtain ⟨hmeaning, hname⟩ := Option.filter_eq_some_iff.1 hu
  exact (meaning_grounded _ u hmeaning).aliased (Option.isSome_iff_ne_none.1 hname)

theorem expansion_of_mem (h : v.origin ∈ path) : v.expansion index depth path = [] := by
  cases depth with
  | zero => rfl
  | succ depth => rw [expansion, if_pos h]

/-- Once it suffices, the bound on the length of a path makes no difference. -/
theorem expansion_depth (h : Deep index depth path) (h' : Deep index depth' path)
    (halias : v.origin.FromAlias index) :
    v.expansion index depth path = v.expansion index depth' path := by
  induction depth generalizing depth' path v with
  | zero =>
    have hmem : v.origin ∈ path := by
      by_contra hout
      exact Nat.lt_irrefl _ (h.pos halias hout)
    rw [expansion_of_mem hmem, expansion_of_mem hmem]
  | succ depth ih =>
    by_cases hmem : v.origin ∈ path
    · rw [expansion_of_mem hmem, expansion_of_mem hmem]
    · obtain ⟨depth', rfl⟩ := Nat.exists_eq_add_of_lt (h'.pos halias hmem)
      rw [Nat.zero_add] at h' ⊢
      rw [expansion, expansion, if_neg hmem, if_neg hmem]
      congr 1
      exact List.flatMap_congr fun u hu =>
        ih (h.step halias hmem) (h'.step halias hmem) (fromAlias_of_mem_nested hu)

theorem schemas_eq (h : index.decls.countP Program.isAlias ≤ depth) (v : Outline) :
    v.schemas index =
      (v.nested index).flatMap (expansion index depth [v.origin]) ++ [v.schema index] := by
  rw [schemas]
  congr 1
  exact List.flatMap_congr fun u hu =>
    expansion_depth (.root (Nat.le_refl _) _) (.root h _) (fromAlias_of_mem_nested hu)

end Outline

section

variable (index : Index)

/-! ## Components by the index -/

namespace Candidate

variable (candidate : Candidate)

/-- The type of the props. -/
def propsType? : Option Outline := candidate.props.bind fun node => meaning index (.site node.id)

def component : Component :=
  ⟨candidate.name, (candidate.propsType? index).map (·.schemaName)⟩

/-- The schemas that the props need. -/
noncomputable def schemas : List Schema := (candidate.propsType? index).toList.flatMap (·.schemas index)

end Candidate

/-- The components among some declarations. -/
noncomputable def candidatesIn (declarations : List Declaration) : List Candidate :=
  declarations.filterMap (·.candidate? index)

/-- The components of a file. -/
noncomputable def SourceFile.candidates (file : SourceFile) : List Candidate :=
  candidatesIn index (file.declarations.flatMap Declaration.visited)

end

section

variable {index : Index} {a a' a'' : Arena} {w w' w'' : Naming} {t : TypeId} {v : Outline}
  {mode : SchemaMode} {extractor : Extractor} {path : List TypeOrigin} {α : Type}

/-! ## Extractors -/

/-- What holds of an extractor while the types that come from `path` are being expanded. -/
structure Expanding (mode : SchemaMode) (a : Arena) (w : Naming) (extractor : Extractor)
    (path : List TypeOrigin) : Prop where
  path : List.Forall₂ (fun t o => w.type t = some o ∧ t.index < a.types.size) extractor.expanding path
  named : ∀ entry ∈ extractor.emitted, ∃ data, a.types[entry.1.index]? = some data ∧
    entry.2 = schemaNameOf data.aliasName data.symbol
  repeated : mode = .repeated → extractor.emitted = []

namespace Expanding

theorem extend (h : Expanding mode a w extractor path) (he : Extends a w a' w') :
    Expanding mode a' w' extractor path where
  path := h.path.imp fun t _ ⟨horigin, ht⟩ =>
    ⟨(he.typeNames t ht).trans horigin, Nat.lt_of_lt_of_le ht he.typesSize⟩
  named entry hentry := by
    obtain ⟨data, hdata, hname⟩ := h.named entry hentry
    exact ⟨data, (he.types _ (lt_size_of_getElem? hdata)).trans hdata, hname⟩
  repeated := h.repeated

theorem fresh (mode : SchemaMode) (a : Arena) (w : Naming) :
    Expanding mode a w Extractor.fresh [] :=
  ⟨.nil, (fun _ h => nomatch h), fun _ => rfl⟩

theorem enter (h : Expanding mode a w extractor path) (hf : Fits a w t v) :
    Expanding mode a w (extractor.enter t) (v.origin :: path) where
  path := by
    obtain ⟨members, htype, -⟩ := hf.shown
    exact .cons ⟨hf.origin, lt_size_of_getElem? htype⟩ h.path
  named := h.named
  repeated := h.repeated

/-- A type is being expanded if what it comes from is on the path. -/
theorem mem_iff (h : Expanding mode a w extractor path)
    (hunique : ∀ {t t' o}, w.type t = some o → w.type t' = some o → t = t') (hf : Fits a w t v) :
    t ∈ extractor.expanding ↔ v.origin ∈ path := by
  have hpath := h.path
  clear h
  generalize extractor.expanding = expanding at hpath ⊢
  induction hpath with
  | nil => simp
  | @cons t' o _ _ hhead _ ih =>
    have hiff : t = t' ↔ v.origin = o := by
      constructor
      · rintro rfl
        exact Option.some.inj (hf.origin.symm.trans hhead.1)
      · rintro rfl
        exact hunique hf.origin hhead.1
    exact List.mem_cons.trans ((or_congr hiff ih).trans List.mem_cons.symm)

theorem emittedName?_eq (h : Expanding mode a w extractor path) (hf : Fits a w t v) {name : String}
    (hname : extractor.emittedName? t = some name) : name = v.schemaName := by
  obtain ⟨data, hdata, hnamed⟩ := h.named _ (mem_of_lookup hname)
  obtain ⟨members, htype, -⟩ := hf.shown
  obtain rfl := Option.some.inj (hdata.symm.trans htype)
  exact hnamed

theorem emittedName?_repeated (h : Expanding .repeated a w extractor path) (t : TypeId) :
    extractor.emittedName? t = none := by
  rw [Extractor.emittedName?, h.repeated rfl, List.lookup_nil]

end Expanding

/-- What a step of an extraction leaves when it appends `schemas`. -/
structure Appends (mode : SchemaMode) (a : Arena) (w : Naming) (extractor : Extractor)
    (path : List TypeOrigin) (schemas : List Schema) (found : Extracted α) : Prop where
  same : found.extractor.expanding = extractor.expanding
  expanding : Expanding mode a w found.extractor path
  added : mode = .repeated → found.added = schemas

namespace Appends

variable {found : Extracted α} {schemas : List Schema}

theorem none {answer : α} (h : Expanding mode a w extractor path) :
    Appends mode a w extractor path [] ⟨answer, [], extractor⟩ :=
  ⟨rfl, h, fun _ => rfl⟩

theorem leave (h : Appends mode a w (extractor.enter t) (v.origin :: path) schemas found) :
    (found.extractor.leave t).expanding = extractor.expanding ∧
      Expanding mode a w (found.extractor.leave t) path := by
  have hleave : (found.extractor.leave t).expanding = extractor.expanding := by
    show found.extractor.expanding.erase t = _
    rw [h.same]
    exact List.erase_cons_head ..
  have hpath := h.expanding.path
  rw [h.same] at hpath
  refine ⟨hleave, ?_, h.expanding.named, h.expanding.repeated⟩
  rw [hleave]
  exact (List.forall₂_cons.1 hpath).2

/-- The schema of a type is appended after those of the types below it. -/
theorem record {schema : Schema} {found : Extracted Schema} {answer : α}
    (h : Appends mode a w extractor path schemas found) (hanswer : found.answer = schema)
    (hf : Fits a w t v) (hname : schema.name = v.schemaName) :
    Appends mode a w extractor path (schemas ++ [schema])
      ⟨answer, found.added ++ [found.answer],
        found.extractor.record mode t found.answer.name⟩ := by
  obtain rfl := hanswer
  obtain ⟨members, htype, -⟩ := hf.shown
  cases mode with
  | repeated => exact ⟨h.same, h.expanding, fun hmode => congrArg (· ++ _) (h.added hmode)⟩
  | dedupe =>
    refine ⟨h.same, ⟨h.expanding.path, fun entry hentry => ?_, nofun⟩, nofun⟩
    rcases List.mem_cons.1 hentry with rfl | hentry
    · exact ⟨_, htype, hname⟩
    · exact h.expanding.named entry hentry

end Appends

/-! ## The steps of an extraction -/

variable {program : Program} {below : List TypeOrigin → Outline → List Schema}
  {expand : TypeId → Extractor → Resolve (Extracted Unit)}

/-- `expand` appends `below` for a type. -/
def Expands (index : Index) (mode : SchemaMode) (below : List TypeOrigin → Outline → List Schema)
    (expand : TypeId → Extractor → Resolve (Extracted Unit)) : Prop :=
  ∀ {a w} t extractor, Tracked index a w → Asks index a w (expand t extractor) fun found a' w' =>
    ∀ v path, Fits a w t v → Expanding mode a w extractor path →
      Appends mode a' w' extractor path (below path v) found

/-- The property of a member is read off the member and its type. -/
theorem FitsMember.property {m : MemberId} {o : OutlineMember} {answer : Option TypeId}
    (hm : FitsMember a w m o) (hs : Stands a' w' answer (o.type? index)) :
    o.property index = ⟨(a.memberData m).name,
      answer.bind fun t => (a'.typeData t).intrinsic.map (·.text),
      answer.bind fun t => (a'.typeData t).aliasName, (a.memberData m).optional⟩ := by
  rw [OutlineMember.property, hm.memberData]
  rcases hv : o.type? index with _ | v
  · rw [hv] at hs
    cases hs
    rfl
  · rw [hv] at hs
    cases hs with
    | some hf =>
      obtain ⟨members, htype, -⟩ := hf.typeData
      simp only [Option.bind_some, htype]

/-- The type of a member is expanded if it has an alias name. -/
theorem Stands.nested? {o : OutlineMember} {answer : Option TypeId}
    (hs : Stands a w answer (o.type? index)) :
    ((answer.bind fun t => (a.typeData t).aliasName) = none → o.nested? index = none) ∧
      ∀ t, answer = some t → (a.typeData t).aliasName ≠ none →
        ∃ v, Fits a w t v ∧ o.nested? index = some v := by
  rw [OutlineMember.nested?]
  rcases hv : o.type? index with _ | v
  · rw [hv] at hs
    cases hs
    exact ⟨fun _ => rfl, nofun⟩
  · rw [hv] at hs
    cases hs with
    | some hf =>
      obtain ⟨members, htype, -⟩ := hf.typeData
      simp only [Option.bind_some, htype]
      refine ⟨fun hname => by simp [Option.filter, hname], ?_⟩
      rintro t ⟨⟩ hname
      rw [htype] at hname
      exact ⟨v, hf, by simp [Option.filter, Option.isSome_iff_ne_none.2 hname]⟩

theorem property_asks (hexpand : Expands program.index mode below expand)
    (h : Tracked program.index a w) (m : MemberId) (extractor : Extractor) :
    Asks program.index a w (program.facts.property expand m extractor) fun found a' w' =>
      ∀ o path, FitsMember a w m o → Expanding mode a w extractor path →
        found.answer = o.property program.index ∧ Appends mode a' w' extractor path
          ((o.nested? program.index).toList.flatMap (below path)) found := by
  refine Asks.get_bind (Asks.get_bind ?_)
  refine (Resolve.memberType_asks h m).bind fun answer a' w' he h' => ?_
  cases answer with
  | none =>
    refine .done h' fun hs o path hm hp => ?_
    have hs : Stands a' w' none (o.type? program.index) := hs o hm
    rw [hm.property hs, hs.nested?.1 rfl]
    exact ⟨rfl, .none (hp.extend he)⟩
  | some t =>
    refine Asks.get_bind (Asks.read fun complexType hname => ?_)
    cases complexType with
    | none =>
      refine .done h' fun hs o path hm hp => ?_
      have hs : Stands a' w' (some t) (o.type? program.index) := hs o hm
      rw [hm.property hs, hs.nested?.1 hname, Option.bind_some, Option.bind_some, hname]
      exact ⟨rfl, .none (hp.extend he)⟩
    | some name =>
      refine (hexpand t extractor h').bind fun nested a'' w'' _ h'' => .done h'' ?_
      intro hnested hs o path hm hp
      have hs : Stands a' w' (some t) (o.type? program.index) := hs o hm
      obtain ⟨v, hf, hv⟩ := hs.nested?.2 t rfl (by simp [hname])
      have happends := hnested v path hf (hp.extend he)
      rw [hm.property hs, hv, Option.bind_some, Option.bind_some, hname]
      refine ⟨rfl, happends.same, happends.expanding, ?_⟩
      simpa using happends.added

theorem flatMap_filterMap_cons {β γ δ : Type} (f : β → Option γ) (g : γ → List δ) (x : β)
    (rest : List β) : ((x :: rest).filterMap f).flatMap g =
      (f x).toList.flatMap g ++ (rest.filterMap f).flatMap g := by
  rw [List.filterMap_cons]
  cases f x <;> simp

theorem properties_asks (hexpand : Expands program.index mode below expand)
    (h : Tracked program.index a w) (members : List MemberId) (extractor : Extractor) :
    Asks program.index a w (program.facts.properties expand members extractor) fun found a' w' =>
      ∀ os path, List.Forall₂ (FitsMember a w) members os → Expanding mode a w extractor path →
        found.answer = os.map (·.property program.index) ∧ Appends mode a' w' extractor path
          ((os.filterMap (·.nested? program.index)).flatMap (below path)) found := by
  induction members generalizing a w extractor with
  | nil =>
    refine .done h fun os path hos hp => ?_
    cases hos
    exact ⟨rfl, .none hp⟩
  | cons member rest ih =>
    refine (property_asks hexpand h member extractor).bind fun first a' w' he h' => ?_
    refine (ih h' first.extractor).bind fun others a'' w'' he' h'' => .done h'' ?_
    intro hothers hfirst os path hos hp
    rcases hos with _ | ⟨hm, hrest⟩
    obtain ⟨hproperty, happends⟩ := hfirst _ path hm hp
    obtain ⟨hproperties, happends'⟩ :=
      hothers _ path (hrest.imp fun _ _ hf => hf.extend he) happends.expanding
    refine ⟨congrArg₂ List.cons hproperty hproperties, happends'.same.trans happends.same,
      happends'.expanding, fun hmode => ?_⟩
    rw [flatMap_filterMap_cons]
    exact congrArg₂ (· ++ ·) (happends.added hmode) (happends'.added hmode)

theorem Fits.typeData_aliasName (h : Fits a w t v) : (a.typeData t).aliasName = v.aliasName := by
  obtain ⟨members, htype, -⟩ := h.typeData
  rw [htype]

theorem schemaName_asks (h : Tracked program.index a w) (t : TypeId) :
    Asks program.index a w (program.facts.schemaName t) fun name _ _ =>
      ∀ v, Fits a w t v → name = v.schemaName := by
  refine Asks.read fun aliasName hname => ?_
  cases aliasName with
  | some name =>
    refine .done h fun v hf => ?_
    rw [hf.typeData_aliasName] at hname
    rw [Outline.schemaName, schemaNameOf, hname, Option.getD_some]
  | none =>
    refine Asks.read fun symbol hsymbol => ?_
    cases symbol
    all_goals
      refine .done h fun v hf => ?_
      rw [hf.typeData_aliasName] at hname
      rw [hf.hasSymbol.typeData] at hsymbol
      rw [Outline.schemaName, schemaNameOf, hname, hsymbol]
      rfl

theorem schemaOf_asks (hexpand : Expands program.index mode below expand)
    (h : Tracked program.index a w) (t : TypeId) (extractor : Extractor) :
    Asks program.index a w (program.facts.schemaOf expand t extractor) fun found a' w' =>
      ∀ v path, Fits a w t v → Expanding mode a w extractor path →
        found.answer = v.schema program.index ∧ Appends mode a' w' extractor path
          ((v.nested program.index).flatMap (below (v.origin :: path))) found := by
  refine (schemaName_asks h t).bind fun name a' w' he h' => Asks.get_bind ?_
  refine (properties_asks hexpand h' _ (extractor.enter t)).bind fun found a'' w'' _ h'' =>
    .done h'' ?_
  intro hfound hname v path hf hp
  obtain ⟨members, htype, hmembers⟩ := (hf.extend he).typeData
  obtain ⟨hproperties, happends⟩ :=
    hfound v.members (v.origin :: path) (by show List.Forall₂ _ (a'.typeData t).members _; rwa [htype])
      ((hp.extend he).enter (hf.extend he))
  obtain ⟨hleave, hexpanding⟩ := happends.leave
  exact ⟨congrArg₂ Schema.mk (hname v hf) hproperties, hleave, hexpanding, happends.added⟩

/-- The expansion of a type, below any path. -/
theorem expand_expands (mode : SchemaMode) (depth : Nat) :
    Expands program.index mode (fun path v => v.expansion program.index depth path)
      (program.facts.expand mode depth) := by
  induction depth with
  | zero =>
    intro a w t extractor h
    exact .done h fun v path hf hp => .none hp
  | succ depth ih =>
    intro a w t extractor h
    unfold TypeFacts.expand
    split
    · rename_i hskip
      refine .done h fun v path hf hp => ⟨rfl, hp, fun hmode => ?_⟩
      subst hmode
      have hmem : t ∈ extractor.expanding := by
        simpa [hp.emittedName?_repeated] using hskip
      beta_reduce
      rw [Outline.expansion, if_pos ((hp.mem_iff h.ready.faithful.typeUnique hf).1 hmem)]
    · rename_i hdue
      refine (schemaOf_asks ih h t extractor).bind fun found a' w' he h' => .done h' ?_
      intro hfound v path hf hp
      obtain ⟨hschema, happends⟩ := hfound v path hf hp
      have hout : v.origin ∉ path := fun hmem => hdue <| by
        simp [(hp.mem_iff h.ready.faithful.typeUnique hf).2 hmem]
      beta_reduce
      rw [Outline.expansion, if_neg hout]
      exact happends.record hschema (hf.extend he) rfl

/-- The schemas that are appended for props. -/
theorem extractInto_asks (h : Tracked program.index a w) (mode : SchemaMode) (t : TypeId)
    (extractor : Extractor) :
    Asks program.index a w (program.facts.extractInto mode t extractor) fun found a' w' =>
      ∀ v, Fits a w t v → Expanding mode a w extractor [] →
        found.answer = v.schemaName ∧
          Appends mode a' w' extractor [] (v.schemas program.index) found := by
  unfold TypeFacts.extractInto
  split
  · rename_i name hname
    refine .done h fun v hf hp => ⟨hp.emittedName?_eq hf hname, rfl, hp, fun hmode => ?_⟩
    subst hmode
    rw [hp.emittedName?_repeated] at hname
    cases hname
  · refine (schemaOf_asks (expand_expands mode _) h t extractor).bind fun found a' w' he h' =>
      .done h' ?_
    intro hfound v hf hp
    obtain ⟨hschema, happends⟩ := hfound v [] hf hp
    exact ⟨congrArg Schema.name hschema, happends.record hschema (hf.extend he) rfl⟩

/-! ## Traversals -/

/-- What a traversal has found since another one, in candidates for components. -/
structure Found (index : Index) (mode : SchemaMode) (candidates : List Candidate)
    (before after : Traversal) : Prop where
  components : after.document.components =
    before.document.components ++ candidates.map (·.component index)
  types : mode = .repeated → after.document.types =
    before.document.types ++ candidates.flatMap (·.schemas index)

theorem Found.nil (index : Index) (mode : SchemaMode) (traversal : Traversal) :
    Found index mode [] traversal traversal :=
  ⟨by simp, fun _ => by simp⟩

theorem Found.append {candidates candidates' : List Candidate} {before between after : Traversal}
    (h : Found index mode candidates before between) (h' : Found index mode candidates' between after) :
    Found index mode (candidates ++ candidates') before after := by
  refine ⟨?_, fun hmode => ?_⟩
  · rw [h'.components, h.components, List.map_append, List.append_assoc]
  · rw [h'.types hmode, h.types hmode, List.flatMap_append, List.append_assoc]

/-- A component is found, and the schemas are appended that its props need. -/
theorem Found.component {traversal : Traversal} {candidate : Candidate} {name : Option String}
    {added : List Schema} {extractor : Extractor}
    (hname : (candidate.propsType? index).map (·.schemaName) = name)
    (hadded : mode = .repeated → added = candidate.schemas index) :
    Found index mode [candidate] traversal
      (traversal.addComponent ⟨candidate.name, name⟩ added extractor) := by
  refine ⟨?_, fun hmode => ?_⟩
  · simp [Traversal.addComponent, Candidate.component, hname]
  · simp [Traversal.addComponent, hadded hmode]

/-- The candidates that are found by a visit, if the extraction may go on. -/
def Finds (index : Index) (mode : SchemaMode) (a : Arena) (w : Naming) (candidates : List Candidate)
    (traversal : Traversal) (visit : Resolve Traversal) : Prop :=
  Asks index a w visit fun traversal' a' w' => Expanding mode a w traversal.extractor [] →
    Expanding mode a' w' traversal'.extractor [] ∧ Found index mode candidates traversal traversal'

/-- What is found after a question, if its answer tells which candidates these are. -/
theorem Finds.after {ask : Resolve α} {Q : α → Arena → Naming → Prop} {candidates : List Candidate}
    {traversal : Traversal} {next : α → Resolve Traversal} (found : α → List Candidate)
    (hask : Asks index a w ask Q)
    (hfound : ∀ {answer a' w'}, Q answer a' w' → found answer = candidates)
    (hnext : ∀ {a' w'} answer, Tracked index a' w' →
      Finds index mode a' w' (found answer) traversal (next answer)) :
    Finds index mode a w candidates traversal (ask >>= next) := by
  refine hask.bind fun answer a' w' he h' => Asks.imp (hnext answer h') ?_
  intro traversal' a'' w'' _ hvisit hanswer hp
  rw [← hfound hanswer]
  exact hvisit (hp.extend he)

/-- A component is added with the schema of its props, if they have a type. -/
theorem addComponent_asks (h : Tracked program.index a w) (mode : SchemaMode) (candidate : Candidate)
    (traversal : Traversal) (props : Option TypeId) :
    Asks program.index a w (match props with
      | none => pure (traversal.addComponent ⟨candidate.name, none⟩ [] traversal.extractor)
      | some type => do
        let found ← program.facts.extractInto mode type traversal.extractor
        pure (traversal.addComponent ⟨candidate.name, some found.answer⟩ found.added
          found.extractor)) fun traversal' a' w' =>
            Stands a w props (candidate.propsType? program.index) →
              Expanding mode a w traversal.extractor [] →
                Expanding mode a' w' traversal'.extractor [] ∧
                  Found program.index mode [candidate] traversal traversal' := by
  rcases hv : candidate.propsType? program.index with _ | v
  · cases props with
    | none =>
      refine .done h fun _ hp => ⟨hp, .component (by rw [hv]; rfl) fun _ => ?_⟩
      rw [Candidate.schemas, hv]
      rfl
    | some t =>
      exact (extractInto_asks h mode t traversal.extractor).bind fun _ _ _ _ h' =>
        .done h' fun _ hs => nomatch hs
  · cases props with
    | none => exact .done h fun hs => nomatch hs
    | some t =>
      refine (extractInto_asks h mode t traversal.extractor).bind fun found a' w' he h' =>
        .done h' fun hfound hs hp => ?_
      obtain ⟨hname, happends⟩ := hfound v (Option.rel_some_some.1 hs) hp
      refine ⟨happends.expanding, .component (by rw [hv, hname]; rfl) fun hmode => ?_⟩
      rw [Candidate.schemas, hv, happends.added hmode]
      simp

/-- A candidate is found when the type of its props has been asked for. -/
theorem addCandidate_finds (mode : SchemaMode) (candidate : Candidate) (traversal : Traversal)
    {question : Resolve (Option TypeId)}
    (hquestion : Asks program.index a w question fun props a' w' =>
      Stands a' w' props (candidate.propsType? program.index)) :
    Finds program.index mode a w [candidate] traversal (question >>= fun props =>
      match props with
      | none => pure (traversal.addComponent ⟨candidate.name, none⟩ [] traversal.extractor)
      | some type => do
        let found ← program.facts.extractInto mode type traversal.extractor
        pure (traversal.addComponent ⟨candidate.name, some found.answer⟩ found.added
          found.extractor)) := by
  refine hquestion.bind fun props a' w' he h' =>
    (addComponent_asks h' mode candidate traversal props).imp ?_
  intro traversal' a'' w'' _ hadd hs hp
  exact hadd hs (hp.extend he)

theorem visitCandidate_finds (h : Tracked program.index a w) (mode : SchemaMode)
    (declaration : Declaration) (traversal : Traversal) :
    Finds program.index mode a w (declaration.candidate? program.index).toList traversal
      (program.facts.visitCandidate mode declaration traversal) := by
  refine Finds.after Option.toList (classify_asks h declaration) (fun hanswer => by rw [hanswer])
    fun answer h' => ?_
  rcases answer with _ | ⟨name, _ | node⟩
  · exact .done h' fun hp => ⟨hp, .nil ..⟩
  · exact addCandidate_finds mode ⟨name, none⟩ traversal (.done h' .none)
  · exact addCandidate_finds mode ⟨name, some node⟩ traversal (Resolve.typeOfNode_asks h' node.id)

theorem visit_finds (h : Tracked program.index a w) (mode : SchemaMode) (path : String)
    (traversal : Traversal) (declaration : Declaration) :
    Finds program.index mode a w (declaration.candidate? program.index).toList traversal
      (program.facts.visit mode path traversal declaration) := by
  cases declaration with
  | classDecl declaration =>
    refine .done h fun hp => ⟨hp, ?_, fun _ => ?_⟩
    · exact (List.append_nil _).symm
    · exact (List.append_nil _).symm
  | funDecl declaration => exact visitCandidate_finds h mode _ traversal
  | varDecl declaration => exact visitCandidate_finds h mode _ traversal
  | namespaceDecl name exported body => exact visitCandidate_finds h mode _ traversal

/-- Visits one after the other add up. -/
theorem foldlM_finds {β : Type} {visit : Traversal → β → Resolve Traversal}
    {candidates : β → List Candidate}
    (hvisit : ∀ {a w}, Tracked index a w → ∀ traversal x,
      Finds index mode a w (candidates x) traversal (visit traversal x))
    (h : Tracked index a w) (items : List β) (traversal : Traversal) :
    Finds index mode a w (items.flatMap candidates) traversal (items.foldlM visit traversal) := by
  induction items generalizing a w traversal with
  | nil => exact .done h fun hp => ⟨hp, .nil ..⟩
  | cons item rest ih =>
    rw [List.foldlM_cons]
    refine (hvisit h traversal item).bind fun between a' w' _ h' => Asks.imp (ih h' between) ?_
    intro after a'' w'' _ hrest hfirst hp
    obtain ⟨hp', hfound⟩ := hfirst hp
    obtain ⟨hp'', hfound'⟩ := hrest hp'
    exact ⟨hp'', hfound.append hfound'⟩

/-- What is added to a document while a file is visited. -/
theorem visitFile_finds (h : Tracked program.index a w) (mode : SchemaMode) (traversal : Traversal)
    (file : SourceFile) :
    Finds program.index mode a w (file.candidates program.index) traversal
      (program.facts.visitFile mode traversal file) := by
  have hvisits := foldlM_finds
    (fun {a w} h traversal declaration => visit_finds h mode file.path traversal declaration) h
      (file.declarations.flatMap Declaration.visited) traversal
  have hcandidates : file.candidates program.index = (file.declarations.flatMap
      Declaration.visited).flatMap fun declaration =>
        (declaration.candidate? program.index).toList := by
    rw [SourceFile.candidates, candidatesIn, List.filterMap_eq_flatMap_toList]
  rw [hcandidates]
  exact hvisits

theorem visitFiles_finds (h : Tracked program.index a w) (mode : SchemaMode) (traversal : Traversal)
    (files : List SourceFile) :
    Finds program.index mode a w (files.flatMap (·.candidates program.index)) traversal
      (files.foldlM (program.facts.visitFile mode) traversal) :=
  foldlM_finds (fun h traversal file => visitFile_finds h mode traversal file) h files traversal

theorem tracked_empty (index : Index) : Tracked index Arena.empty ⟨fun _ => none, fun _ => none⟩ where
  ready := ready_empty index
  followed := {
    decls := fun _ _ h => nomatch h
    nodes := fun h => nomatch h
    known := fun h => nomatch h
    members := fun h => nomatch h }

end

/-! ## Files of a program -/

namespace Program

variable (program : Program) (mode : SchemaMode)

/-- Visits the first `k` files of a program. -/
def visitFirst (k : Nat) : Resolve Traversal :=
  (program.files.take k).foldlM (program.facts.visitFile mode) Traversal.start

/-- The traversal of a program whose first `k` files have been visited. -/
def traversal (k : Nat) : Traversal := ((program.visitFirst mode k).run Arena.empty).1

/-- What is known of types when a program has been documented. -/
def documented : Arena := ((program.facts.document mode).run Arena.empty).2

theorem document_eq : program.facts.document mode =
    Traversal.document <$> program.visitFirst mode program.files.length := by
  rw [visitFirst, List.take_length]
  rfl

variable {program mode}

/-- What a file adds to a document is what it contributes by the index alone. -/
theorem traversal_succ (hmet : program.index.NoneMet (program.documented mode)) {k : Nat}
    {file : SourceFile} (hfile : program.files[k]? = some file) :
    Found program.index mode (file.candidates program.index) (program.traversal mode k)
      (program.traversal mode (k + 1)) := by
  have hsucc : program.visitFirst mode (k + 1) =
      program.visitFirst mode k >>= fun traversal => program.facts.visitFile mode traversal file := by
    rw [visitFirst, visitFirst, List.take_add_one, hfile, Option.toList_some, List.foldlM_append]
    simp only [List.foldlM_cons, List.foldlM_nil, bind_pure]
  have hall : program.visitFirst mode program.files.length =
      program.visitFirst mode (k + 1) >>= fun traversal =>
        (program.files.drop (k + 1)).foldlM (program.facts.visitFile mode) traversal := by
    rw [visitFirst, visitFirst, List.take_length, ← List.foldlM_append, List.take_append_drop]
  have hnext : (program.visitFirst mode (k + 1)).run Arena.empty =
      (program.facts.visitFile mode (program.traversal mode k) file).run
        ((program.visitFirst mode k).run Arena.empty).2 := by
    rw [hsucc]
    rfl
  have hfinal : program.documented mode = (((program.files.drop (k + 1)).foldlM
      (program.facts.visitFile mode) (program.traversal mode (k + 1))).run
        ((program.visitFirst mode (k + 1)).run Arena.empty).2).2 := by
    rw [documented, document_eq, hall]
    rfl
  obtain ⟨w, -, h, -, hbefore⟩ : Asks program.index Arena.empty _ (program.visitFirst mode k) _ :=
    visitFiles_finds (tracked_empty program.index) mode Traversal.start (program.files.take k)
  obtain ⟨w', -, h', hgrows, hvisit⟩ := visitFile_finds h mode (program.traversal mode k) file
  rw [← hnext] at h' hgrows hvisit
  obtain ⟨w'', -, h'', hgrows', -⟩ := visitFiles_finds h' mode (program.traversal mode (k + 1))
    (program.files.drop (k + 1))
  rw [hfinal] at hmet
  have hstraight := (hmet.straight h''.ready.idle).of_grows hgrows'
  obtain ⟨hready, -⟩ := hbefore (hstraight.of_grows hgrows) (.fresh mode _ _)
  exact (hvisit hstraight hready).2

end Program

end ComponentSchema
