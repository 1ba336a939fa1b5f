import ComponentSchema.Proofs.Rewriting.ItemInterchange

/-!
# Declarations that are moved

Interfaces, aliases and enums may be declared anywhere in a list of items: before what refers to them or
after it. Binding one of them makes additions to its scope and no view (`Binding.bindItem_plays`), and two
steps change places where the one does not disturb what the other adds.

Of two exports of one name the first counts. So a declaration is not moved past an item that exports
something else under the same name, as a second default export does. The export clauses of a list come
before its items wherever they are written.

Results.
* `interchangeable_moved`: a declaration and another item change places.
* `Reordered.interchangeable`: by induction on the new order, the first item of which goes to the front.
* `documentFiles_hoisted`: programs that declare their types at other positions have the same document.
-/
namespace ComponentSchema

open Syntax Relation Index Binding

/-! ## Positions -/

/-- Some items of a list, all of them interfaces, aliases and enums, are moved to other positions, and the
names that they declare are declared by nothing else there. -/
structure Reordered (spot : Spot) (moved : Item → Bool) (items items' : List Item) : Prop where
  types : ∀ item ∈ items, moved item → item.additions?.isSome
  perm : items.Perm items'
  rest : items.filter (!moved ·) = items'.filter (!moved ·)
  distinct : items.Pairwise fun item other => moved item ∨ moved other →
    ∀ name, (spot, .declares name) ∈ item.notes spot → (spot, .declares name) ∉ other.notes spot

/-- The names under which they are exported are not exported as anything else there. -/
def SameExports (spot : Spot) (moved : Item → Bool) (items : List Item) : Prop :=
  items.Pairwise fun item other => moved item ∨ moved other → ∀ name localName localName',
    (spot, .exports name localName) ∈ item.notes spot →
      (spot, .exports name localName') ∈ other.notes spot →
        localName.isSome ∧ localName = localName'

/-- Declarations of types are moved within a part of a list. -/
inductive Hoisted (spot : Spot) : List Item → List Item → Prop
  | within (moved : Item → Bool) (before after : List Item) {items items' : List Item}
    (h : Reordered spot moved items items') (hexports : SameExports spot moved items) :
    Hoisted spot (before ++ (items ++ after)) (before ++ (items' ++ after))

/-! ## Exchanges -/

theorem AlikeViews.symm {views views' : List Declaration} (h : AlikeViews views views') :
    AlikeViews views' views := ⟨h.visited.symm, h.visitedIn.symm⟩

theorem Index.Ahead.symm {spot : Spot} {y : ScopeId} {index₁ index₂ : Index}
    (h : Ahead spot y [] index₁ index₂) : Ahead spot y [] index₂ index₁ :=
  ⟨h.bound₂, h.bound₁, h.frame.symm, h.contents.symm, h.frame.at h.stands⟩

theorem Interchangeable.symm {spot : Spot} {items items' : List Item}
    (h : Interchangeable spot items items') : Interchangeable spot items' items where
  clauses := h.clauses.symm
  sources := h.sources.symm
  isScript := h.isScript.symm
  binding hfile aliases _ _ _ hat := by
    intro hahead
    obtain ⟨-, hcontinues, -⟩ := bindItems_resembles (fun _ => rfl) aliases items' hat
      (.refl hahead.bound₁ hat)
    obtain ⟨hahead', -, hviews⟩ := h.binding (fun source => (hfile source).symm) aliases
      (hahead.frame.at hat) hahead.symm
    exact ⟨hahead'.symm, hcontinues, hviews.symm⟩

theorem Note.Apart.symm {note note' : Note} (h : note.Apart note') : note'.Apart note := by
  cases note with
  | declares =>
    cases note' with
    | declares => exact Ne.symm h
    | exports => trivial
  | exports =>
    cases note' with
    | declares => trivial
    | exports =>
      intro heq
      obtain ⟨hsome, hsame⟩ := h heq.symm
      exact ⟨hsame ▸ hsome, hsame.symm⟩

/-- Two items whose notes are apart at a spot. -/
def Syntax.Item.Apart (spot : Spot) (item other : Item) : Prop :=
  ∀ note note', (spot, note) ∈ item.notes spot → (spot, note') ∈ other.notes spot → note.Apart note'

theorem Syntax.Item.Apart.symm {spot : Spot} {item other : Item} (h : item.Apart spot other) :
    other.Apart spot item := fun note note' hnote hnote' => (h note' note hnote' hnote).symm

section

variable {spot : Spot} {item other : Item} {log : List Addition}

theorem Syntax.Item.Apart.undisturbed (hlog : item.additions? = some log) (h : item.Apart spot other) :
    Undisturbed spot log (other.notes spot) := by
  rintro ⟨_, note⟩ hnote rfl entry hentry
  refine h _ note ?_ hnote
  rw [notes_of_additions hlog]
  exact List.mem_map_of_mem (List.mem_map_of_mem hentry)

theorem isClause_of_additions (h : item.additions? = some log) : item.isClause = false := by
  obtain ⟨leading, kind⟩ := item
  cases kind with
  | exportNamed | exportAll => cases h
  | _ => rfl

theorem source?_of_additions (h : item.additions? = some log) : item.kind.source? = none := by
  obtain ⟨leading, kind⟩ := item
  cases kind with
  | declaration | exportDecl | exportDefaultInterface => rfl
  | _ => cases h

/-- A declaration and an item before it change places. -/
theorem interchangeable_moved (hlog : item.additions? = some log) (h : item.Apart spot other) :
    Interchangeable spot [other, item] [item, other] where
  clauses := by
    simp [List.filter_cons, isClause_of_additions hlog]
  sources := by simp [List.filterMap_cons, source?_of_additions hlog]
  isScript := by simp [Bool.and_comm]
  binding {file file'} hfile aliases index₁ index₂ y hat := by
    obtain ⟨step, hstep, hplays⟩ := bindItem_plays file aliases y hlog
    obtain ⟨step', hstep', hplays'⟩ := bindItem_plays file' aliases y hlog
    simp only [bindItems, hstep, hstep', bind_assoc, pure_bind, List.append_nil, List.nil_append,
      bind_pure]
    intro hahead
    have hy := hat.hasScope
    -- The declaration puts the one index ahead, and then the other one comes up to it.
    obtain ⟨hchanges', hframe', hcontents'⟩ := hplays' index₂ hahead.bound₂ (hahead.frame.hasScope hy)
    have hbehind : Ahead spot y log index₁ (step'.run index₂).2 :=
      ⟨hahead.bound₁, hchanges'.bound hahead.bound₂, hahead.frame.trans hframe', by
        rw [hcontents', hahead.contents, Contents.addAll_nil], hat⟩
    obtain ⟨hcarried, hcontinues, heq⟩ :=
      bindItem_carries hfile other aliases hat (h.undisturbed hlog) hbehind
    obtain ⟨hchanges, hframe, hcontents⟩ := hplays _ hcarried.bound₁ hcarried.stands.hasScope
    refine ⟨⟨hchanges.bound hcarried.bound₁, hcarried.bound₂, hframe.symm.trans hcarried.frame, ?_,
      hchanges.at hcarried.stands⟩, hcontinues.trans (.of_sameFrame hchanges hframe), heq ▸ .refl _⟩
    rw [Contents.addAll_nil]
    exact hcarried.contents.trans hcontents.symm

end

/-! ## Orders -/

section

variable {spot : Spot} {moved : Item → Bool} {items items' before : List Item} {item : Item}

/-- Two items that change places. -/
def Syntax.Item.Swaps (spot : Spot) (item other : Item) : Prop :=
  Interchangeable spot [item, other] [other, item]

/-- An item goes to the front. -/
theorem interchangeable_front (h : ∀ other ∈ before, other.Swaps spot item) :
    Interchangeable spot (before ++ [item]) (item :: before) := by
  induction before with
  | nil => exact .refl spot _
  | cons first rest ih =>
    obtain ⟨hfirst, hrest⟩ := List.forall_mem_cons.1 h
    exact ((Interchangeable.refl spot [first]).append (ih hrest)).trans
      (Interchangeable.append hfirst (.refl spot rest))

theorem Reordered.apart (h : Reordered spot moved items items') (hexports : SameExports spot moved items) :
    items.Pairwise fun item other => moved item ∨ moved other → item.Apart spot other := by
  refine (h.distinct.and hexports).imp ?_
  rintro item other ⟨hdistinct, hsame⟩ hmoved note note' hnote hnote'
  cases note with
  | declares name =>
    cases note' with
    | declares other =>
      rintro rfl
      exact hdistinct hmoved name hnote hnote'
    | exports => trivial
  | exports name localName =>
    cases note' with
    | declares => trivial
    | exports other localName' =>
      rintro rfl
      exact hsame hmoved name localName localName' hnote hnote'

/-- Of two items that are apart, and one of which is moved, either may come first. -/
theorem swaps_of_apart (htypes : ∀ item ∈ items, moved item → item.additions?.isSome)
    (hapart : items.Pairwise fun item other => moved item ∨ moved other → item.Apart spot other) :
    items.Pairwise fun item other => moved item ∨ moved other → item.Swaps spot other := by
  refine hapart.imp_of_mem ?_
  rintro item other hitem hother h hmoved
  rcases hmoved with hmoved' | hmoved'
  · obtain ⟨log, hlog⟩ := Option.isSome_iff_exists.1 (htypes item hitem hmoved')
    exact (interchangeable_moved hlog (h (.inl hmoved'))).symm
  · obtain ⟨log, hlog⟩ := Option.isSome_iff_exists.1 (htypes other hother hmoved')
    exact interchangeable_moved hlog (h (.inr hmoved')).symm

/-- The first item of the new order, as it stands in the old one: it is moved past the items before it, or
all of them are moved. -/
theorem mem_of_reordered {rest : List Item} (hperm : items.Perm (item :: rest))
    (hrest : items.filter (!moved ·) = (item :: rest).filter (!moved ·)) :
    ∃ before after, items = before ++ item :: after ∧
      (moved item ∨ ∀ other ∈ before, moved other) ∧
        (before ++ after).filter (!moved ·) = rest.filter (!moved ·) := by
  cases hmoved : moved item with
  | true =>
    obtain ⟨before, after, rfl⟩ := List.append_of_mem (hperm.mem_iff.2 (.head rest))
    refine ⟨before, after, rfl, .inl rfl, ?_⟩
    rw [List.filter_append, List.filter_cons_of_neg (by simp [hmoved]), ← List.filter_append,
      List.filter_cons_of_neg (by simp [hmoved])] at hrest
    exact hrest
  | false =>
    rw [List.filter_cons_of_pos (by simp [hmoved])] at hrest
    obtain ⟨before, after, rfl, hbefore, -, hafter⟩ := List.filter_eq_cons_iff.1 hrest
    have hnone : before.filter (!moved ·) = [] := List.filter_eq_nil_iff.2 hbefore
    refine ⟨before, after, rfl, .inr fun other hother => by simpa using hbefore other hother, ?_⟩
    rw [List.filter_append, hnone, List.nil_append, hafter]

/-- Items that swap may be brought into another order. -/
theorem interchangeable_perm (hperm : items.Perm items')
    (hrest : items.filter (!moved ·) = items'.filter (!moved ·))
    (hswaps : items.Pairwise fun item other => moved item ∨ moved other → item.Swaps spot other) :
    Interchangeable spot items items' := by
  induction items' generalizing items with
  | nil =>
    obtain rfl := hperm.eq_nil
    exact .refl spot _
  | cons item rest ih =>
    obtain ⟨before, after, rfl, hmoved, hafter⟩ := mem_of_reordered hperm hrest
    have hfront : Interchangeable spot (before ++ [item]) (item :: before) := by
      refine interchangeable_front fun other hother => ?_
      refine (List.pairwise_append.1 hswaps).2.2 other hother item (.head _) ?_
      exact hmoved.elim .inr fun hbefore => .inl (hbefore other hother)
    have htail : Interchangeable spot (before ++ after) rest :=
      ih (List.perm_middle.symm.trans hperm).cons_inv hafter
        (hswaps.sublist (List.Sublist.append_left (List.sublist_cons_self item after) before))
    have hwhole := hfront.append (.refl spot after)
    rw [List.append_assoc] at hwhole
    exact hwhole.trans ((Interchangeable.refl spot [item]).append htail)

/-- Items may be bound in another order where only declarations of types are moved. -/
theorem Reordered.interchangeable (h : Reordered spot moved items items')
    (hexports : SameExports spot moved items) : Interchangeable spot items items' :=
  interchangeable_perm h.perm h.rest (swaps_of_apart h.types (h.apart hexports))

end

theorem hoisted_exchanges : Exchanges Hoisted := by
  rintro spot _ _ ⟨moved, before, after, h, hexports⟩
  exact (h.interchangeable hexports).within before after

/-! ## Programs -/

/-- It does not matter at which positions of its files and namespaces a program declares its interfaces,
aliases and enums. -/
theorem documentFiles_hoisted {tree tree' : FileTree} (hrooted : tree.IsRooted)
    (h : tree.Rewritten (SourceTree.Exchanged Hoisted) tree') (roots : List Path) (mode : SchemaMode) :
    documentFiles tree roots mode = documentFiles tree' roots mode :=
  documentFiles_exchanged hoisted_exchanges hrooted h roots mode

/-- Whether an item declares an interface, an alias or an enum. -/
def Syntax.Item.isType (item : Item) : Bool := item.additions?.isSome

/-- Declarations after what refers to them. -/
def trailingTree : FileTree where
  entries := [(["a.tsx"], .file ("export function A(p: P) \x7b return <a />; \x7d " ++
    "interface P \x7b d: D; k: K \x7d " ++
    "export enum K \x7b x \x7d " ++
    "export type D = \x7b e: string \x7d;"))]
  current := []

/-- The same declarations before it. -/
def leadingTree : FileTree where
  entries := [(["a.tsx"], .file ("export type D = \x7b e: string \x7d; " ++
    "interface P \x7b d: D; k: K \x7d " ++
    "export enum K \x7b x \x7d " ++
    "export function A(p: P) \x7b return <a />; \x7d"))]
  current := []

/-- What refers to the declarations. -/
def referringItem : Item :=
  ⟨[], .exportDecl (.function "A" ⟨[⟨some "p", some ⟨.reference (.ident "P"), "P"⟩, none⟩], none,
    some (.block [.returns (some (.jsx []))]), false, false⟩)⟩

/-- The first declarations after it. -/
def hoistedItems : List Item :=
  [⟨[], .declaration (.interface "P"
      [.property (.identifier "d") false (some (.reference (.ident "D"))),
        .property (.identifier "k") false (some (.reference (.ident "K")))])⟩,
    ⟨[], .exportDecl (.enum "K")⟩]

/-- The last one. -/
def hoistedAlias : Item :=
  ⟨[], .exportDecl (.typeAlias "D" (.literal [.property (.identifier "e") false (some (.keyword .string))]))⟩

theorem hoisted_leading (spot : Spot) : Hoisted spot (referringItem :: (hoistedItems ++ [hoistedAlias]))
    (hoistedAlias :: (hoistedItems ++ [referringItem])) := by
  have hperm : (referringItem :: (hoistedItems ++ [hoistedAlias])).Perm
      (hoistedAlias :: (hoistedItems ++ [referringItem])) :=
    (show ((referringItem :: hoistedItems) ++ [hoistedAlias]).Perm
      ([hoistedAlias] ++ (referringItem :: hoistedItems)) from List.perm_append_comm).trans
      (.cons _ (show ([referringItem] ++ hoistedItems).Perm _ from List.perm_append_comm))
  refine .within Item.isType [] [] ⟨fun _ _ h => h, hperm, rfl, ?_⟩ ?_
  · simp [hoistedItems, hoistedAlias, referringItem, Item.notes, Decl.notes, Spot.noting, exportNotes]
  · simp +contextual [SameExports, hoistedItems, hoistedAlias, referringItem, Item.notes, Decl.notes,
      Spot.noting, exportNotes]

set_option maxRecDepth 100000 in
theorem parse_trailing :
    SourceTree.parse (Variant.ofPath "a.tsx")
      ("export function A(p: P) \x7b return <a />; \x7d " ++ "interface P \x7b d: D; k: K \x7d " ++
        "export enum K \x7b x \x7d " ++ "export type D = \x7b e: string \x7d;") =
      .ok ⟨referringItem :: (hoistedItems ++ [hoistedAlias])⟩ := by
  rfl

set_option maxRecDepth 100000 in
theorem trailingTree_rewritten : trailingTree.Rewritten (SourceTree.Exchanged Hoisted) leadingTree where
  current := rfl
  entries := by
    have hleading : SourceTree.parse (Variant.ofPath "a.tsx")
        ("export type D = \x7b e: string \x7d; " ++ "interface P \x7b d: D; k: K \x7d " ++
          "export enum K \x7b x \x7d " ++ "export function A(p: P) \x7b return <a />; \x7d") =
        .ok ⟨hoistedAlias :: (hoistedItems ++ [referringItem])⟩ := by
      rfl
    exact .cons ⟨rfl, .source rfl parse_trailing hleading fun _ _ => .here (hoisted_leading _)⟩ .nil

theorem documentFiles_leadingTree :
    trailingTree.IsRooted ∧ trailingTree.Rewritten (SourceTree.Exchanged Hoisted) leadingTree ∧
      (documentFiles trailingTree [⟨"a.tsx"⟩] .repeated).toOption.map
          (fun document => document.types.map (·.name)) = some ["D", "P"] ∧
        documentFiles trailingTree [⟨"a.tsx"⟩] .repeated =
          documentFiles leadingTree [⟨"a.tsx"⟩] .repeated := by
  have hrooted : trailingTree.IsRooted := by decide
  refine ⟨hrooted, trailingTree_rewritten, ?_, ?_⟩
  · rw [documentFiles_alone rfl parse_trailing rfl]
    decide +kernel
  · exact documentFiles_hoisted hrooted trailingTree_rewritten _ _

/-! ## Default exports -/

/-- A second default export, after the one that counts. -/
def defaultTree : FileTree where
  entries := [
    (["a.tsx"], .file "import X from './m'; export function A(p: X) \x7b return <a />; \x7d"),
    (["m.ts"], .file ("interface B \x7b b: string \x7d export default B; " ++
      "export default interface C \x7b c: string \x7d"))]
  current := []

/-- The second default export comes first. -/
def movedTree : FileTree where
  entries := [
    (["a.tsx"], .file "import X from './m'; export function A(p: X) \x7b return <a />; \x7d"),
    (["m.ts"], .file ("interface B \x7b b: string \x7d " ++
      "export default interface C \x7b c: string \x7d export default B;"))]
  current := []

/-- An item that is declared. -/
def declaredItem : Item :=
  ⟨[], .declaration (.interface "B" [.property (.identifier "b") false (some (.keyword .string))])⟩

/-- Its default export. -/
def defaultItem : Item := ⟨[], .exportDefaultExpr (.identifier "B")⟩

/-- An interface that is a default export, too. -/
def defaultInterface : Item :=
  ⟨[], .exportDefaultInterface "C" [.property (.identifier "c") false (some (.keyword .string))]⟩

theorem reordered_default (spot : Spot) : Reordered spot Item.isType
    [declaredItem, defaultItem, defaultInterface] [declaredItem, defaultInterface, defaultItem] where
  types _ _ h := h
  perm := .cons _ (.swap _ _ _)
  rest := rfl
  distinct := by
    simp [declaredItem, defaultItem, defaultInterface, Item.notes, Decl.notes, Spot.noting, exportNotes]

set_option maxRecDepth 100000 in
/-- Of two default exports the first counts, so the one may not be moved past the other. -/
theorem documentFiles_movedDefault :
    defaultTree.IsRooted ∧ defaultTree.Rewritten (SourceTree.Exchanged fun spot items items' =>
        ∃ moved, Reordered spot moved items items') movedTree ∧
      documentFiles defaultTree [⟨"a.tsx"⟩] .repeated ≠ documentFiles movedTree [⟨"a.tsx"⟩] .repeated := by
  have hfirst : SourceTree.parse (Variant.ofPath "m.ts")
      ("interface B \x7b b: string \x7d export default B; " ++
        "export default interface C \x7b c: string \x7d") =
      .ok ⟨[declaredItem, defaultItem, defaultInterface]⟩ := by
    rfl
  have hsecond : SourceTree.parse (Variant.ofPath "m.ts")
      ("interface B \x7b b: string \x7d " ++
        "export default interface C \x7b c: string \x7d export default B;") =
      .ok ⟨[declaredItem, defaultInterface, defaultItem]⟩ := by
    rfl
  refine ⟨by decide, ⟨rfl, .cons ⟨rfl, .same _⟩ (.cons ⟨rfl, .source rfl hfirst hsecond fun _ _ =>
    .here ⟨_, reordered_default _⟩⟩ .nil)⟩, fun h => ?_⟩
  have hnames := congrArg (fun document =>
    document.toOption.map fun document => document.types.map (·.name)) h
  revert hnames
  decide +kernel

end ComponentSchema
