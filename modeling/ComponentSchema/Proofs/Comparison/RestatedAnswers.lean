import ComponentSchema.Program
import ComponentSchema.Proofs.Checker.MadeTypes
import ComponentSchema.Proofs.Checker.TypeParentheses
import ComponentSchema.Proofs.Comparison.Counterparts

/-!
# Restated programs answer the same

A program restates another one if names lead to counterparts from counterparts, and counterparts read the
same but for parentheses in types. Asked the same questions in the same order, two such programs make the
same types under the same ids.

`Alongside` relates two runs of a state monad, from states for which a relation holds to states for
which it holds again.

Results.
* `Restates.resolveWith_alongside`: by induction on how the one type differs from the other.
* `Restates.resolveDecl_alongside`: by induction on how deep declarations nest.
* `Restates.inferExpr_alongside`: by induction on how the expressions differ.
* `Restates.typeOfNode_alongside`, `Restates.memberType_alongside`, `Restates.returnTypeOf_alongside`: the
  questions to a program.
-/
namespace ComponentSchema

open Syntax

/-! ## Two runs -/

section

variable {σ τ α β γ δ : Type} {R : σ → τ → Prop} {Q : α → β → Prop} {s : σ} {t : τ}
  {first : StateM σ α} {second : StateM τ β}

/-- Two runs that end in states for which `R` holds, with answers for which `Q` holds. -/
def Alongside (R : σ → τ → Prop) (Q : α → β → Prop) (s : σ) (t : τ) (first : StateM σ α)
    (second : StateM τ β) : Prop :=
  R (first.run s).2 (second.run t).2 ∧ Q (first.run s).1 (second.run t).1

namespace Alongside

theorem done {answer : α} {answer' : β} (h : R s t) (hq : Q answer answer') :
    Alongside R Q s t (pure answer) (pure answer') := ⟨h, hq⟩

theorem bind {Q' : γ → δ → Prop} {next : α → StateM σ γ} {next' : β → StateM τ δ}
    (h : Alongside R Q s t first second)
    (hnext : ∀ s' t' answer answer', R s' t' → Q answer answer' →
      Alongside R Q' s' t' (next answer) (next' answer')) :
    Alongside R Q' s t (first >>= next) (second >>= next') := hnext _ _ _ _ h.1 h.2

theorem map {Q' : γ → δ → Prop} {f : α → γ} {g : β → δ} (h : Alongside R Q s t first second)
    (himp : ∀ answer answer', Q answer answer' → Q' (f answer) (g answer')) :
    Alongside R Q' s t (f <$> first) (g <$> second) := ⟨h.1, himp _ _ h.2⟩

theorem map_eq {first : StateM σ α} {second : StateM τ α} (f : α → γ)
    (h : Alongside R Eq s t first second) : Alongside R Eq s t (f <$> first) (f <$> second) :=
  h.map fun _ _ => congrArg f

theorem get_bind {next : σ → StateM σ α} {next' : τ → StateM τ β}
    (h : Alongside R Q s t (next s) (next' t)) :
    Alongside R Q s t (get >>= next) (get >>= next') := h

theorem mapM {ι κ : Type} {P : ι → κ → Prop} {step : ι → StateM σ α} {step' : κ → StateM τ β}
    {items : List ι} {items' : List κ} (h : R s t) (hitems : List.Forall₂ P items items')
    (hstep : ∀ s' t' item item', R s' t' → P item item' →
      Alongside R Q s' t' (step item) (step' item')) :
    Alongside R (List.Forall₂ Q) s t (items.mapM step) (items'.mapM step') := by
  induction hitems generalizing s t with
  | nil => exact .done h .nil
  | cons hitem _ ih =>
    rw [List.mapM_cons, List.mapM_cons]
    refine (hstep s t _ _ h hitem).bind fun _ _ _ _ h' hq => ?_
    exact (ih h').bind fun _ _ _ _ h'' hqs => .done h'' (.cons hq hqs)

theorem foldlM {ι κ : Type} {P : ι → κ → Prop} {step : α → ι → StateM σ α}
    {step' : β → κ → StateM τ β} {items : List ι} {items' : List κ} {start : α} {start' : β}
    (h : R s t) (hq : Q start start') (hitems : List.Forall₂ P items items')
    (hstep : ∀ s' t' found found' item item', R s' t' → Q found found' → P item item' →
      Alongside R Q s' t' (step found item) (step' found' item')) :
    Alongside R Q s t (items.foldlM step start) (items'.foldlM step' start') := by
  induction hitems generalizing s t start start' with
  | nil => exact .done h hq
  | cons hitem _ ih =>
    rw [List.foldlM_cons, List.foldlM_cons]
    exact (hstep s t _ _ _ _ h hq hitem).bind fun _ _ _ _ h' hq' => ih h' hq'

end Alongside

end

/-! ## Restated programs -/

namespace Counterparts

variable (c : Counterparts)

/-- Two declarations that read the same. -/
structure LikeDecl (first second : TypeDecl) : Prop where
  name : first.name = second.name
  scope : c.scope first.scope second.scope
  kind : first.kind.Regrouped second.kind

/-- Two annotations that read the same. -/
structure LikeSite (first second : TypeSite) : Prop where
  scope : c.scope first.scope second.scope
  type : first.type.Regrouped second.type

/-- Two functions that return the same where they stand. -/
structure LikeFunction (first second : FunctionSite) : Prop where
  scope : c.scope first.scope second.scope
  body : Option.Rel Body.Regrouped first.body second.body
  wrapsResult : first.wrapsResult = second.wrapsResult

/-- Two members that read the same. -/
structure LikeData (first second : MemberData) : Prop where
  name : first.name = second.name
  optional : first.optional = second.optional
  scope : c.scope first.scope second.scope
  type : first.type.Regrouped second.type

section

variable {c} {c' : Counterparts}

theorem LikeDecl.mono (hc : c.Within c') {first second : TypeDecl} (h : c.LikeDecl first second) :
    c'.LikeDecl first second := ⟨h.name, hc.scope h.scope, h.kind⟩

theorem LikeSite.mono (hc : c.Within c') {first second : TypeSite} (h : c.LikeSite first second) :
    c'.LikeSite first second := ⟨hc.scope h.scope, h.type⟩

theorem LikeFunction.mono (hc : c.Within c') {first second : FunctionSite}
    (h : c.LikeFunction first second) : c'.LikeFunction first second :=
  ⟨hc.scope h.scope, h.body, h.wrapsResult⟩

end

/-- Counterparts read the same, and names lead to counterparts from counterparts. -/
structure Restates (index₁ index₂ : Index) : Prop where
  name : ∀ {x y : ScopeId}, c.scope x y → (index₁.scope x).name = (index₂.scope y).name
  lookup : ∀ {x y : ScopeId}, c.scope x y → ∀ segments,
    Option.Rel c.decl (index₁.lookup x segments) (index₂.lookup y segments)
  decls : ∀ {d e : DeclId}, c.decl d e →
    Option.Rel c.LikeDecl index₁.decls[d.index]? index₂.decls[e.index]?
  declUnique : ∀ {d e d' e' : DeclId}, c.decl d e → c.decl d' e' → (d = d' ↔ e = e')
  declsSize : index₁.decls.size = index₂.decls.size
  aliases : index₁.decls.countP Program.isAlias = index₂.decls.countP Program.isAlias
  nodes : ∀ {i j : NodeId}, c.node i j →
    Option.Rel c.LikeSite index₁.typeSites[i.index]? index₂.typeSites[j.index]?
  nodeUnique : ∀ {i j i' j' : NodeId}, c.node i j → c.node i' j' → (i = i' ↔ j = j')
  functions : ∀ {f g : FunctionId}, c.function f g →
    Option.Rel c.LikeFunction index₁.functionSites[f.index]? index₂.functionSites[g.index]?
  classes : ∀ {a b : ClassId}, c.classSite a b →
    index₁.classSites[a.index]? = index₂.classSites[b.index]?

/-! ## Arenas -/

/-- Two arenas that hold the same types; declarations and annotations that correspond have the same
answer. -/
structure LikeArena (first second : Arena) : Prop where
  types : first.types = second.types
  membersSize : first.members.size = second.members.size
  members : ∀ i : Nat, Option.Rel c.LikeData first.members[i]? second.members[i]?
  memberTypes : first.memberTypes = second.memberTypes
  intrinsics : first.intrinsics = second.intrinsics
  declared : ∀ {d e : DeclId}, c.decl d e → first.declared.lookup d = second.declared.lookup e
  nodes : ∀ {i j : NodeId}, c.node i j → first.nodes.lookup i = second.nodes.lookup j
  jsxElement : first.jsxElement = second.jsxElement

/-- Two questions with the same answer. -/
abbrev Answers {α : Type} (arena arena' : Arena) (first second : Resolve α) : Prop :=
  Alongside c.LikeArena Eq arena arena' first second

variable {c} {arena arena' : Arena} {index₁ index₂ : Index} {x y : ScopeId} {α β : Type}

theorem Answers.bind {first second : Resolve α} {next next' : α → Resolve β}
    (h : c.Answers arena arena' first second)
    (hnext : ∀ arena arena' answer, c.LikeArena arena arena' →
      c.Answers arena arena' (next answer) (next' answer)) :
    c.Answers arena arena' (first >>= next) (second >>= next') :=
  Alongside.bind h fun _ _ _ _ h' hanswer => hanswer ▸ hnext _ _ _ h'

/-- Entries under counterparts are found under counterparts. -/
theorem lookup_cons_alike {ι κ : Type} [BEq ι] [LawfulBEq ι] {R : ι → ι → Prop} {entries entries' : List (ι × κ)}
    {i j : ι} (hunique : ∀ {i' j'}, R i' j' → (i' = i ↔ j' = j))
    (h : ∀ {i j}, R i j → entries.lookup i = entries'.lookup j) (value : κ) {i' j' : ι} (hr : R i' j') :
    ((i, value) :: entries).lookup i' = ((j, value) :: entries').lookup j' := by
  rw [List.lookup_cons, List.lookup_cons, h hr]
  by_cases heq : i' = i
  · rw [beq_iff_eq.2 heq, beq_iff_eq.2 ((hunique hr).1 heq)]
  · rw [beq_eq_false_iff_ne.2 heq, beq_eq_false_iff_ne.2 (mt (hunique hr).2 heq)]

namespace LikeArena

theorem empty (c : Counterparts) : c.LikeArena Arena.empty Arena.empty :=
  ⟨rfl, rfl, fun _ => .none, rfl, rfl, fun _ => rfl, fun _ => rfl, rfl⟩

theorem typeData (h : c.LikeArena arena arena') (type : TypeId) :
    arena.typeData type = arena'.typeData type := by
  rw [Arena.typeData, Arena.typeData, h.types]

theorem memberData (h : c.LikeArena arena arena') (member : MemberId) :
    (arena.memberData member).name = (arena'.memberData member).name ∧
      (arena.memberData member).optional = (arena'.memberData member).optional := by
  unfold Arena.memberData
  rcases rel_cases (h.members member.index) with ⟨hx, hy⟩ | ⟨first, second, hx, hy, hsame⟩
  · rw [hx, hy]
    exact ⟨rfl, rfl⟩
  · rw [hx, hy]
    exact ⟨hsame.name, hsame.optional⟩

theorem declare (h : c.LikeArena arena arena') (hindex : c.Restates index₁ index₂) {d e : DeclId}
    (hde : c.decl d e) (state : DeclState) :
    c.LikeArena { arena with declared := (d, state) :: arena.declared }
      { arena' with declared := (e, state) :: arena'.declared } :=
  { h with
    declared := lookup_cons_alike (fun hde' => hindex.declUnique hde' hde) h.declared state }

end LikeArena

/-! ## Types and members -/

section

variable (harena : c.LikeArena arena arena')
include harena

theorem push_alongside (data : TypeData) :
    c.Answers arena arena' (Resolve.push data) (Resolve.push data) :=
  ⟨{ harena with types := congrArg (Array.push · data) harena.types },
    congrArg (fun types => TypeId.mk types.size) harena.types⟩

theorem pushMember_alongside {data data' : MemberData} (hdata : c.LikeData data data') :
    c.Answers arena arena' (Resolve.pushMember data) (Resolve.pushMember data') := by
  refine ⟨{ harena with membersSize := ?_, members := fun i => ?_ },
    congrArg MemberId.mk harena.membersSize⟩
  · show (arena.members.push data).size = (arena'.members.push data').size
    rw [Array.size_push, Array.size_push, harena.membersSize]
  · show Option.Rel _ (arena.members.push data)[i]? (arena'.members.push data')[i]?
    rw [Array.getElem?_push, Array.getElem?_push, ← harena.membersSize]
    split
    · exact .some hdata
    · exact harena.members i

theorem intrinsic_alongside (keyword : KeywordType) :
    c.Answers arena arena' (Resolve.intrinsic keyword) (Resolve.intrinsic keyword) := by
  refine Alongside.get_bind ?_
  rw [harena.intrinsics]
  split
  · exact .done harena rfl
  · refine (push_alongside harena _).bind fun _ _ type harena' => ?_
    exact ⟨{ harena' with intrinsics := congrArg ((keyword, type) :: ·) harena'.intrinsics }, rfl⟩

theorem anonymous_alongside (aliasName : Option String) :
    c.Answers arena arena' (Resolve.anonymous aliasName) (Resolve.anonymous aliasName) :=
  push_alongside harena _

theorem builtinJsxElement_alongside :
    c.Answers arena arena' Resolve.builtinJsxElement Resolve.builtinJsxElement := by
  refine Alongside.get_bind ?_
  rw [harena.jsxElement]
  split
  · exact .done harena rfl
  · refine (push_alongside harena _).bind fun _ _ type harena' => ?_
    exact ⟨{ harena' with jsxElement := rfl }, rfl⟩

theorem joinMembers_alongside (types : List TypeId) :
    c.Answers arena arena' (Resolve.joinMembers types) (Resolve.joinMembers types) := by
  refine Alongside.get_bind ?_
  have htypes : ∀ type, arena.typeData type = arena'.typeData type := harena.typeData
  have hnames : ∀ member, (arena.memberData member).name = (arena'.memberData member).name :=
    fun member => (harena.memberData member).1
  simp only [htypes, hnames]
  exact .done harena rfl

end

/-- A signature declares members that read the same, or none. -/
theorem data?_like (hxy : c.scope x y) {member member' : TypeMember} (h : member.Regrouped member') :
    Option.Rel c.LikeData (member.data? x) (member'.data? y) := by
  have hname : ∀ (name : Option String) (make make' : String → MemberData),
      (∀ name, c.LikeData (make name) (make' name)) →
        Option.Rel c.LikeData (name.map make) (name.map make') := by
    intro name make make' hmake
    cases name with
    | none => exact .none
    | some name => exact .some (hmake name)
  cases h with
  | property key optional htype =>
    exact hname _ _ _ fun _ => ⟨rfl, rfl, hxy, MemberType.regrouped_ofWritten htype⟩
  | method key optional => exact hname _ _ _ fun _ => ⟨rfl, rfl, hxy, .method⟩
  | getter key htype =>
    exact hname _ _ _ fun _ => ⟨rfl, rfl, hxy, MemberType.regrouped_ofWritten htype⟩
  | other => exact .none

theorem declaredMembers_like (hxy : c.scope x y) {members members' : List TypeMember}
    (h : RegroupedMembers members members') :
    List.Forall₂ c.LikeData (declaredMembers x members) (declaredMembers y members') := by
  refine forall₂_firstOfEachName (fun _ _ h => h.name) ?_ []
  refine List.rel_filterMap (fun _ _ hmember => data?_like hxy hmember) ?_
  induction members generalizing members' with
  | nil =>
    cases h
    exact .nil
  | cons member rest ih =>
    cases h with
    | cons hmember hrest => exact .cons hmember (ih hrest)

theorem objectType_alongside (harena : c.LikeArena arena arena') (hxy : c.scope x y)
    (symbol : TypeSymbol) (aliasName : Option String) {members members' : List TypeMember}
    (hmembers : RegroupedMembers members members') :
    c.Answers arena arena' (Resolve.objectType symbol aliasName x members)
      (Resolve.objectType symbol aliasName y members') := by
  refine Alongside.bind (Q := List.Forall₂ Eq) ?_ fun _ _ ids ids' harena' hids => ?_
  · exact .mapM harena (declaredMembers_like hxy hmembers) fun _ _ _ _ h hdata =>
      pushMember_alongside h hdata
  · rw [List.forall₂_eq_eq_eq] at hids
    rw [hids]
    exact push_alongside harena' _

end Counterparts

namespace Counterparts.Restates

variable {c : Counterparts} {arena arena' : Arena} {index₁ index₂ : Index} {x y : ScopeId}

/-! ## Type expressions -/

section

set_option linter.unusedSectionVars false

variable {declared declared' : DeclId → Resolve (Option TypeId)} (h : c.Restates index₁ index₂)
  (hxy : c.scope x y) (hdeclared : ∀ {d e} {arena arena'}, c.decl d e → c.LikeArena arena arena' →
    c.Answers arena arena' (declared d) (declared' e))
include h hxy hdeclared

theorem resolveName_alongside (harena : c.LikeArena arena arena') (segments : List String) :
    c.Answers arena arena' (Resolve.resolveName index₁ declared x segments)
      (Resolve.resolveName index₂ declared' y segments) := by
  unfold Resolve.resolveName
  rcases rel_cases (h.lookup hxy segments) with ⟨hx, hy⟩ | ⟨d, e, hx, hy, hde⟩
  · simp only [hx, hy]
    split
    · exact (builtinJsxElement_alongside harena).map_eq some
    · exact .done harena rfl
  · simp only [hx, hy]
    exact hdeclared hde harena

omit h hxy hdeclared in
theorem resolveParts_alongside {parts parts' : List TypeExpr} (hparts : List.Forall₂ (fun part part' =>
      ∀ {arena arena' : Arena}, c.LikeArena arena arena' →
        c.Answers arena arena' (Resolve.resolveWith index₁ declared x none part)
          (Resolve.resolveWith index₂ declared' y none part')) parts parts')
    (harena : c.LikeArena arena arena') :
    c.Answers arena arena' (Resolve.resolveParts index₁ declared x parts)
      (Resolve.resolveParts index₂ declared' y parts') := by
  induction hparts generalizing arena arena' with
  | nil =>
    rw [Resolve.resolveParts, Resolve.resolveParts]
    exact .done harena rfl
  | cons hpart _ ih =>
    rw [Resolve.resolveParts_cons, Resolve.resolveParts_cons]
    exact (hpart harena).bind fun _ _ type harena₁ => (ih harena₁).bind
      fun _ _ types harena₂ => .done harena₂ rfl

theorem resolveWith_alongside {type type' : TypeExpr} (htype : type.Regrouped type')
    (aliasName : Option String) (harena : c.LikeArena arena arena') :
    c.Answers arena arena' (Resolve.resolveWith index₁ declared x aliasName type)
      (Resolve.resolveWith index₂ declared' y aliasName type') := by
  suffices hresolved : ∀ (arena arena' : Arena) (aliasName : Option String), c.LikeArena arena arena' →
      c.Answers arena arena' (Resolve.resolveWith index₁ declared x aliasName type)
        (Resolve.resolveWith index₂ declared' y aliasName type') from
    hresolved arena arena' aliasName harena
  refine htype.resolutionRec ?wrapped ?wrapping ?keyword ?reference ?literal ?single ?several
    ?intersection ?function ?constructor ?other
  case wrapped =>
    intro _ _ ih arena arena' aliasName harena
    rw [Resolve.resolveWith]
    exact ih arena arena' aliasName harena
  case wrapping =>
    intro _ type' ih arena arena' aliasName harena
    have hinner : Resolve.resolveWith index₂ declared' y aliasName (.parenthesized type') =
        Resolve.resolveWith index₂ declared' y aliasName type' := by rw [Resolve.resolveWith]
    rw [hinner]
    exact ih arena arena' aliasName harena
  case keyword =>
    intro keyword arena arena' _ harena
    rw [Resolve.resolveWith, Resolve.resolveWith]
    exact (intrinsic_alongside harena keyword).map_eq some
  case reference =>
    intro name arena arena' _ harena
    rw [Resolve.resolveWith, Resolve.resolveWith]
    exact resolveName_alongside h hxy hdeclared harena name.segments
  case literal =>
    intro _ _ hmembers arena arena' aliasName harena
    rw [Resolve.resolveWith, Resolve.resolveWith]
    exact (objectType_alongside harena hxy _ aliasName hmembers).map_eq some
  case single =>
    intro parts parts' part part' hpart hpart' ih arena arena' _ harena
    rw [Resolve.resolveWith_single hpart, Resolve.resolveWith_single hpart']
    exact ih arena arena' none harena
  case several =>
    intro parts parts' hseveral hseveral' arena arena' aliasName harena
    rw [Resolve.resolveWith_several hseveral, Resolve.resolveWith_several hseveral']
    exact (push_alongside harena _).map_eq some
  case intersection =>
    intro parts parts' hparts arena arena' aliasName harena
    rw [Resolve.resolveWith, Resolve.resolveWith]
    refine (resolveParts_alongside (hparts.imp fun _ _ ih _ _ => ih _ _ none) harena).bind
      fun _ _ types harena₁ => ?_
    refine (joinMembers_alongside harena₁ types).bind fun _ _ members harena₂ => ?_
    exact (push_alongside harena₂ _).map_eq some
  case function =>
    intro _ _ _ _ arena arena' aliasName harena
    rw [Resolve.resolveWith, Resolve.resolveWith]
    exact (anonymous_alongside harena aliasName).map_eq some
  case constructor =>
    intro arena arena' aliasName harena
    rw [Resolve.resolveWith, Resolve.resolveWith]
    exact (anonymous_alongside harena aliasName).map_eq some
  case other =>
    intro arena arena' _ harena
    rw [Resolve.resolveWith, Resolve.resolveWith]
    exact (push_alongside harena _).map_eq some

end

/-! ## Declarations -/

section

variable (h : c.Restates index₁ index₂)
include h

theorem declaredType_alongside {declared declared' : DeclId → Resolve (Option TypeId)}
    (hdeclared : ∀ {d e} {arena arena'}, c.decl d e → c.LikeArena arena arena' →
      c.Answers arena arena' (declared d) (declared' e))
    (harena : c.LikeArena arena arena') {decl decl' : TypeDecl} (hdecl : c.LikeDecl decl decl') :
    c.Answers arena arena' (Resolve.declaredType index₁ declared decl)
      (Resolve.declaredType index₂ declared' decl') := by
  obtain ⟨name, scope, kind⟩ := decl
  obtain ⟨name', scope', kind'⟩ := decl'
  obtain ⟨rfl, hscope, hkind⟩ := hdecl
  have hname : (index₁.scope scope).name = (index₂.scope scope').name := h.name hscope
  simp only [Resolve.declaredType, hname]
  cases hkind with
  | interface hmembers => exact (objectType_alongside harena hscope _ none hmembers).map_eq some
  | typeAlias htype => exact resolveWith_alongside h hscope hdeclared htype _ harena
  | nominal => exact (push_alongside harena _).map_eq some

theorem resolveDecl_alongside (depth : Nat) {d e : DeclId} (hde : c.decl d e)
    (harena : c.LikeArena arena arena') :
    c.Answers arena arena' (Resolve.resolveDecl index₁ depth d)
      (Resolve.resolveDecl index₂ depth e) := by
  induction depth generalizing d e arena arena' with
  | zero => exact .done harena rfl
  | succ depth ih =>
    simp only [Resolve.resolveDecl]
    refine Alongside.get_bind ?_
    rw [harena.declared hde]
    split
    · exact .done harena rfl
    · exact .done harena rfl
    · rcases rel_cases (h.decls hde) with ⟨hx, hy⟩ | ⟨decl, decl', hx, hy, hdecl⟩
      · rw [hx, hy]
        exact .done harena rfl
      · rw [hx, hy]
        refine Alongside.bind (Q := Eq) ⟨harena.declare h hde .resolving, rfl⟩
          fun _ _ _ _ harena₁ _ => ?_
        refine (declaredType_alongside h ?_ harena₁ hdecl).bind fun _ _ type harena₂ => ?_
        · exact fun hde' harena => ih hde' harena
        · exact ⟨harena₂.declare h hde (.done type), rfl⟩

theorem declared_alongside {d e : DeclId} (hde : c.decl d e) (harena : c.LikeArena arena arena') :
    c.Answers arena arena' (Resolve.declared index₁ d) (Resolve.declared index₂ e) := by
  unfold Resolve.declared
  rw [h.declsSize]
  exact resolveDecl_alongside h _ hde harena

/-- A type expression denotes the same type in both programs. -/
theorem resolve_alongside (hxy : c.scope x y) {type type' : TypeExpr} (htype : type.Regrouped type')
    (harena : c.LikeArena arena arena') :
    c.Answers arena arena' (Resolve.resolve index₁ x type) (Resolve.resolve index₂ y type') :=
  resolveWith_alongside h hxy (fun hde harena => declared_alongside h hde harena) htype none harena

theorem jsxElement_alongside (hxy : c.scope x y) (harena : c.LikeArena arena arena') :
    c.Answers arena arena' (Resolve.jsxElement index₁ x) (Resolve.jsxElement index₂ y) :=
  resolveName_alongside h hxy (fun hde harena => declared_alongside h hde harena) harena
    jsxElementSegments

/-! ## Inferred types -/

theorem inferCast_alongside (hxy : c.scope x y) {type type' : TypeExpr} (htype : type.Regrouped type')
    (harena : c.LikeArena arena arena') :
    c.Answers arena arena' (Resolve.inferCast index₁ x type) (Resolve.inferCast index₂ y type') := by
  refine (resolve_alongside h hxy htype harena).bind fun _ _ type harena₁ => ?_
  cases type <;> exact .done harena₁ rfl

omit h in
theorem inferIntrinsic_alongside (keyword : KeywordType) (harena : c.LikeArena arena arena') :
    c.Answers arena arena' (Inferred.type <$> Resolve.intrinsic keyword)
      (Inferred.type <$> Resolve.intrinsic keyword) :=
  (intrinsic_alongside harena keyword).map_eq _

/-- The same is known about an expression in both programs. -/
theorem inferExpr_alongside (hxy : c.scope x y) {value value' : Expr} (hvalue : value.Regrouped value')
    (harena : c.LikeArena arena arena') :
    c.Answers arena arena' (Resolve.inferExpr index₁ x value) (Resolve.inferExpr index₂ y value') := by
  induction hvalue generalizing arena arena' with
  | parenthesized _ ih | satisfies _ ih | nonNull _ ih | constCast _ ih | logicalAnd _ ih =>
    simp only [Resolve.inferExpr]
    exact ih harena
  | conditional _ _ ih ih' | alternative _ _ ih ih' =>
    simp only [Resolve.inferExpr]
    refine (ih harena).bind fun _ _ first harena₁ => ?_
    exact (ih' harena₁).bind fun _ _ second harena₂ => .done harena₂ rfl
  | cast htype =>
    simp only [Resolve.inferExpr]
    exact inferCast_alongside h hxy htype harena
  | string | template | number | boolean =>
    simp only [Resolve.inferExpr]
    exact inferIntrinsic_alongside _ harena
  | jsx | null | identifier | void | arrow | function | classExpr | access | collection | other =>
    simp only [Resolve.inferExpr]
    exact .done harena rfl

theorem inferReturned_alongside (hxy : c.scope x y) {value value' : Option Expr}
    (hvalue : Option.Rel Expr.Regrouped value value') (harena : c.LikeArena arena arena') :
    c.Answers arena arena' (Resolve.inferReturned index₁ x value)
      (Resolve.inferReturned index₂ y value') := by
  cases hvalue with
  | none => exact .done harena rfl
  | some hvalue => exact inferExpr_alongside h hxy hvalue harena

theorem inferAny_alongside (hxy : c.scope x y) {values values' : List (Option Expr)}
    (hvalues : List.Forall₂ (Option.Rel Expr.Regrouped) values values')
    (harena : c.LikeArena arena arena') :
    c.Answers arena arena' (Resolve.inferAny index₁ x values) (Resolve.inferAny index₂ y values') := by
  refine Alongside.foldlM harena rfl hvalues ?_
  rintro _ _ known _ value _ harena₁ rfl hvalue
  exact (inferReturned_alongside h hxy hvalue harena₁).bind fun _ _ _ harena₂ => .done harena₂ rfl

theorem inferredType_alongside (hxy : c.scope x y) (known : Inferred)
    (harena : c.LikeArena arena arena') :
    c.Answers arena arena' (Resolve.inferredType index₁ x known)
      (Resolve.inferredType index₂ y known) := by
  cases known with
  | jsx => exact jsxElement_alongside h hxy harena
  | type | nullish | unknown => exact .done harena rfl

omit h in
/-- What a body returns decides what is inferred. -/
theorem inferReturn_returned (index : Index) (scope : ScopeId) (body : Body) :
    Resolve.inferReturn index scope body =
      match body.returned with
      | [] => some <$> Resolve.intrinsic .void
      | values => Resolve.inferAny index scope values >>= Resolve.inferredType index scope := by
  cases body with
  | block statements => rfl
  | expression value =>
    have hany : Resolve.inferAny index scope [some value] = Resolve.inferExpr index scope value := by
      simp [Resolve.inferAny, Resolve.inferReturned, Inferred.combine]
    simp only [Body.returned, hany]
    rfl

theorem inferReturn_alongside (hxy : c.scope x y) {body body' : Body} (hbody : body.Regrouped body')
    (harena : c.LikeArena arena arena') :
    c.Answers arena arena' (Resolve.inferReturn index₁ x body)
      (Resolve.inferReturn index₂ y body') := by
  rw [inferReturn_returned, inferReturn_returned]
  unfold Body.Regrouped at hbody
  generalize body.returned = values at hbody
  generalize body'.returned = values' at hbody
  cases hbody with
  | nil => exact (intrinsic_alongside harena .void).map_eq some
  | cons hvalue hrest =>
    exact (inferAny_alongside h hxy (.cons hvalue hrest) harena).bind fun _ _ known harena₁ =>
      inferredType_alongside h hxy known harena₁

/-- Functions that correspond return the same by their bodies. -/
theorem returnTypeOf_alongside {f g : FunctionId} (hfg : c.function f g)
    (harena : c.LikeArena arena arena') :
    c.Answers arena arena' (Resolve.returnTypeOf index₁ f) (Resolve.returnTypeOf index₂ g) := by
  unfold Resolve.returnTypeOf
  rcases rel_cases (h.functions hfg) with ⟨hf, hg⟩ | ⟨site, site', hf, hg, hscope, hbody, hwraps⟩
  · rw [hf, hg]
    exact .done harena rfl
  · simp only [hf, hg, hwraps]
    split
    · exact .done harena rfl
    · rcases rel_cases hbody with ⟨hx, hy⟩ | ⟨first, second, hx, hy, hsame⟩
      · rw [hx, hy]
        exact .done harena rfl
      · rw [hx, hy]
        exact inferReturn_alongside h hscope hsame harena

/-! ## Questions -/

/-- Annotations that correspond denote the same type. -/
theorem typeOfNode_alongside {i j : NodeId} (hij : c.node i j) (harena : c.LikeArena arena arena') :
    c.Answers arena arena' (Resolve.typeOfNode index₁ i) (Resolve.typeOfNode index₂ j) := by
  refine Alongside.get_bind ?_
  rw [harena.nodes hij]
  split
  · exact .done harena rfl
  · rcases rel_cases (h.nodes hij) with ⟨hi, hj⟩ | ⟨site, site', hi, hj, hscope, htype⟩
    · rw [hi, hj]
      exact .done harena rfl
    · rw [hi, hj]
      refine (resolve_alongside h hscope htype harena).bind fun arena arena' answer harena₁ => ?_
      refine ⟨{ harena₁ with nodes := ?_ }, rfl⟩
      exact lookup_cons_alike (fun hij' => h.nodeUnique hij' hij) harena₁.nodes answer

theorem typeOfMember_alongside {data data' : MemberData} (hdata : c.LikeData data data')
    (harena : c.LikeArena arena arena') :
    c.Answers arena arena' (Resolve.typeOfMember index₁ data)
      (Resolve.typeOfMember index₂ data') := by
  obtain ⟨name, isOptional, scope, type⟩ := data
  obtain ⟨name', isOptional', scope', type'⟩ := data'
  obtain ⟨-, -, hscope, htype⟩ := hdata
  cases htype with
  | written htype => exact resolve_alongside h hscope htype harena
  | implicitAny => exact (intrinsic_alongside harena .any).map_eq some
  | method => exact (anonymous_alongside harena none).map_eq some

/-- The same member has the same type in both programs. -/
theorem memberType_alongside (member : MemberId) (harena : c.LikeArena arena arena') :
    c.Answers arena arena' (Resolve.memberType index₁ member) (Resolve.memberType index₂ member) := by
  refine Alongside.get_bind ?_
  rw [harena.memberTypes]
  split
  · exact .done harena rfl
  · refine Alongside.get_bind ?_
    rcases rel_cases (harena.members member.index) with ⟨hx, hy⟩ | ⟨data, data', hx, hy, hdata⟩
    · rw [hx, hy]
      exact .done harena rfl
    · rw [hx, hy]
      refine (typeOfMember_alongside h hdata harena).bind fun _ _ answer harena₁ => ?_
      exact ⟨{ harena₁ with
        memberTypes := congrArg ((member, answer) :: ·) harena₁.memberTypes }, rfl⟩

end

end Counterparts.Restates

end ComponentSchema
