import ComponentSchema.Proofs.Loader.FileSpellings
import Mathlib.Data.List.Forall2
import Mathlib.Logic.Relation

/-!
# Spellings of a specifier

A relative specifier may be spelled with separators that lead nowhere: `./lib//b` and `././lib/b` name
what `./lib/b` names. Its pieces between the separators are the same but for those that are empty or
a dot, and these change neither where a path leads nor which extension it ends with. So the file that
an import leads to is the same for all spellings, if there is one, and it stands where the other
pieces lead from the directory of the importing file.

Excepted is a separator right after the `./` at the start. That `./` is left out of the path, and what
remains starts with `/`: an import of `.//b` is looked for at the root, whatever the importing file.

* `Widened.exists_pieces`: what a separator more does to the pieces of a specifier.
* `foldlM_step_filter`: pieces that are no component lead nowhere.
* `resolveImport_respelled`: an import leads to the same file from every spelling of its specifier.
* `importTarget_doubled`: where a specifier that starts with `.//` is looked for.
-/
namespace ComponentSchema

open Relation

/-! ## Spellings -/

/-- A `/` or a `./` more after a separator of a relative specifier. -/
def Widened (specifier specifier' : String) : Prop :=
  ∃ before extra after : List Char, (extra = ['/'] ∨ extra = ['.', '/']) ∧
    (['.', '/'] <+: before ++ ['/'] ∨ ['.', '.', '/'] <+: before ++ ['/']) ∧
    specifier.toList = before ++ '/' :: after ∧ specifier'.toList = before ++ '/' :: (extra ++ after)

/-- Any number of separators more. -/
def Respelled : String → String → Prop := ReflTransGen Widened

/-- Whether a second separator follows the `./` at the start of a specifier. -/
def DoublesFirst (specifier : String) : Prop := ['.', '/', '/'] <+: specifier.toList

instance (specifier : String) : Decidable (DoublesFirst specifier) :=
  inferInstanceAs (Decidable (_ <+: _))

/-! ## Pieces -/

/-- The pieces of a specifier, as it is seen from the directory of the importing file. -/
def relativePieces (specifier : String) : List (List Char) :=
  Text.splitOn '/' (importRelative specifier).text.toList

/-- The pieces that lead anywhere, and the last piece, whatever it is. -/
def plainPieces (specifier : String) : List (List Char) :=
  (relativePieces specifier).dropLast.filter (fun piece => !Path.isIdle piece) ++
    (relativePieces specifier).getLast?.toList

/-- The path that a specifier spells, without separators that lead nowhere. -/
def plainPath (specifier : String) : Path := ⟨String.ofList (['/'].intercalate (plainPieces specifier))⟩

theorem importRelative_text {specifier : String} {rest : List Char}
    (h : specifier.toList = '.' :: '/' :: rest) : (importRelative specifier).text.toList = rest := by
  simp [importRelative, h]

theorem importRelative_of_ne {specifier : String} (h : ∀ rest, specifier.toList ≠ '.' :: '/' :: rest) :
    importRelative specifier = ⟨specifier⟩ := by
  unfold importRelative
  split
  · rename_i rest hrest
    exact absurd hrest (h rest)
  · rfl

/-- A separator more is a piece more, before the last one, that is no component. -/
theorem Widened.exists_pieces {specifier specifier' : String} (h : Widened specifier specifier') :
    ∃ first idle rest, rest ≠ [] ∧ Path.isIdle idle ∧
      relativePieces specifier = first ++ rest ∧ relativePieces specifier' = first ++ idle :: rest := by
  obtain ⟨before, extra, after, hextra, hlead, hspecifier, hspecifier'⟩ := h
  obtain ⟨idle, hidle, hsplit⟩ : ∃ idle, Path.isIdle idle ∧
      Text.splitOn '/' (extra ++ after) = idle :: Text.splitOn '/' after := by
    rcases hextra with rfl | rfl
    · exact ⟨[], rfl, Text.splitOn_append_separator [] after⟩
    · exact ⟨['.'], rfl, Text.splitOn_append_separator ['.'] after⟩
  have hne := Text.splitOn_ne_nil '/' after
  rcases hlead with hlead | hlead
  · -- The `./` is left out; what follows it is split.
    obtain ⟨remainder, hremainder⟩ := hlead
    rcases before with _ | ⟨c, _ | ⟨d, before⟩⟩
    · simp at hremainder
    · obtain ⟨rfl, -⟩ := List.cons.inj hremainder
      refine ⟨[], idle, Text.splitOn '/' after, hne, hidle, ?_, ?_⟩
      · rw [relativePieces, importRelative_text hspecifier, List.nil_append]
      · rw [relativePieces, importRelative_text hspecifier', hsplit, List.nil_append]
    · obtain ⟨rfl, hslash⟩ := List.cons.inj hremainder
      obtain ⟨rfl, -⟩ := List.cons.inj hslash
      refine ⟨Text.splitOn '/' before, idle, Text.splitOn '/' after, hne, hidle, ?_, ?_⟩
      · rw [relativePieces, importRelative_text hspecifier]
        exact Text.splitOn_append_separator _ _
      · rw [relativePieces, importRelative_text hspecifier', ← hsplit]
        exact Text.splitOn_append_separator _ _
  · obtain ⟨remainder, hremainder⟩ := hlead
    obtain ⟨others, hbefore⟩ : ∃ others, before = '.' :: '.' :: others := by
      rcases before with _ | ⟨c, _ | ⟨d, others⟩⟩
      · simp at hremainder
      · simp at hremainder
      · obtain ⟨rfl, hdot⟩ := List.cons.inj hremainder
        obtain ⟨rfl, -⟩ := List.cons.inj hdot
        exact ⟨others, rfl⟩
    refine ⟨Text.splitOn '/' before, idle, Text.splitOn '/' after, hne, hidle, ?_, ?_⟩
    · rw [relativePieces, importRelative_of_ne (by simp [hspecifier, hbefore]), hspecifier,
        Text.splitOn_append_separator]
    · rw [relativePieces, importRelative_of_ne (by simp [hspecifier', hbefore]), hspecifier',
        Text.splitOn_append_separator, hsplit]

theorem Widened.plainPieces_eq {specifier specifier' : String} (h : Widened specifier specifier') :
    plainPieces specifier' = plainPieces specifier := by
  obtain ⟨first, idle, rest, hne, hidle, hpieces, hpieces'⟩ := h.exists_pieces
  have hlast : (first ++ idle :: rest).getLast? = rest.getLast? := by
    rw [List.append_cons, List.getLast?_append_of_ne_nil _ hne]
  have hinit : (first ++ idle :: rest).dropLast = first ++ idle :: rest.dropLast := by
    rw [List.append_cons, List.dropLast_append_of_ne_nil hne]
    simp
  rw [plainPieces, plainPieces, hpieces, hpieces', hlast, hinit, List.getLast?_append_of_ne_nil _ hne,
    List.dropLast_append_of_ne_nil hne]
  simp [hidle]

/-- The pieces that lead anywhere are the same in every spelling. -/
theorem Respelled.plainPieces_eq {specifier specifier' : String} (h : Respelled specifier specifier') :
    plainPieces specifier' = plainPieces specifier := by
  induction h with
  | refl => rfl
  | tail _ hlast ih => exact hlast.plainPieces_eq.trans ih

theorem Widened.head? {specifier specifier' : String} (h : Widened specifier specifier') :
    specifier'.toList.head? = specifier.toList.head? := by
  obtain ⟨before, extra, after, -, -, hspecifier, hspecifier'⟩ := h
  rw [hspecifier, hspecifier']
  cases before <;> rfl

theorem Respelled.head? {specifier specifier' : String} (h : Respelled specifier specifier') :
    specifier'.toList.head? = specifier.toList.head? := by
  induction h with
  | refl => rfl
  | tail _ hlast ih => exact hlast.head?.trans ih

/-- Unless a second separator follows the `./` at its start, a specifier is looked for from the
directory of the importing file. -/
theorem isAbsolute_importRelative {specifier : String} (hdot : specifier.toList.head? = some '.')
    (h : ¬ DoublesFirst specifier) : (importRelative specifier).isAbsolute = false := by
  by_cases hlead : ∃ rest, specifier.toList = '.' :: '/' :: rest
  · obtain ⟨rest, hrest⟩ := hlead
    rw [Bool.eq_false_iff]
    intro habsolute
    obtain ⟨others, hothers⟩ := Path.isAbsolute_iff.1 habsolute
    rw [importRelative_text hrest] at hothers
    exact h ⟨others, by simp [hrest, hothers]⟩
  · rw [importRelative_of_ne (not_exists.1 hlead), Path.isAbsolute, hdot]
    rfl

/-- A specifier with a second separator after the `./` at its start is looked for at the root,
whatever the importing file. -/
theorem importTarget_doubled {specifier : String} {rest : List Char}
    (h : specifier.toList = '.' :: '/' :: '/' :: rest) (importer : Path) :
    importTarget importer specifier = ⟨String.ofList ('/' :: rest)⟩ := by
  have htext := importRelative_text h
  rw [importTarget_of_isAbsolute (Path.isAbsolute_iff.2 ⟨rest, htext⟩)]
  exact Path.ext_toList (htext.trans String.toList_ofList.symm)

/-! ## Where paths lead -/

namespace FileTree

variable {tree : FileTree}

/-- Where a piece that is no component leads, the next piece starts. -/
theorem foldlM_step_idle_cons {idle : List Char} {rest : List (List Char)} (hidle : Path.isIdle idle)
    (hne : rest ≠ []) (location : Location) :
    (idle :: rest).foldlM tree.step location = rest.foldlM tree.step location := by
  obtain ⟨piece, others, rfl⟩ := List.exists_cons_of_ne_nil hne
  rw [List.foldlM_cons]
  rcases hentry : tree.entry? location with _ | entry
  · simp [step, hentry, bind, Except.bind]
  · cases entry with
    | directory =>
      rw [step_directory hentry, if_pos hidle]
      rfl
    | file text => simp [step, hentry, bind, Except.bind]

/-- Pieces that are no component lead nowhere. -/
theorem foldlM_step_filter (pieces : List (List Char)) {rest : List (List Char)} (hne : rest ≠ [])
    (location : Location) : (pieces ++ rest).foldlM tree.step location =
      (pieces.filter (fun piece => !Path.isIdle piece) ++ rest).foldlM tree.step location := by
  induction pieces generalizing location with
  | nil => rfl
  | cons piece others ih =>
    by_cases hidle : Path.isIdle piece
    · rw [List.cons_append, foldlM_step_idle_cons hidle (by simp [hne]), ih]
      simp [hidle]
    · have hkept : (piece :: others).filter (fun piece => !Path.isIdle piece) =
          piece :: others.filter fun piece => !Path.isIdle piece := by simp [hidle]
      rw [hkept, List.cons_append, List.cons_append, List.foldlM_cons, List.foldlM_cons]
      exact bind_congr fun next => ih next

/-- Where a path leads that is seen from a directory. -/
theorem locate_join (tree : FileTree) (base : Path) : ∃ first start, ∀ {right : Path},
    right.isAbsolute = false → right.text ≠ "" → tree.locate (base.join right) =
      (first ++ Text.splitOn '/' right.text.toList).foldlM tree.step start := by
  obtain ⟨first, absolute, hpieces⟩ := base.pieces_join
  refine ⟨first, if absolute then [] else tree.current, fun {right} h hne => ?_⟩
  have hempty : (base.join right).text ≠ "" := by
    intro hempty
    have htext := base.text_join h
    rw [hempty] at htext
    exact hne (String.toList_eq_nil_iff.1 (List.append_eq_nil_iff.1 htext.symm).2)
  rw [locate_eq_foldlM hempty, (hpieces h).1, start, (hpieces h).2]

end FileTree

namespace Path

/-- The path that pieces spell, with a separator after each of them. -/
def spreadOut (pieces : List (List Char)) : Path := ⟨String.ofList (spread pieces)⟩

theorem lead_spreadOut (pieces : List (List Char)) : (spreadOut pieces).lead = spread pieces := by
  have htext : (spreadOut pieces).text.toList = spread pieces := String.toList_ofList
  rcases List.eq_nil_or_concat pieces with rfl | ⟨init, last, rfl⟩
  · exact lead_of_nil htext
  · have hlast : (spread (init ++ [last])).getLast? = some '/' := by
      have hspread : spread (init ++ [last]) = (spread init ++ last) ++ ['/'] := by simp [spread]
      rw [hspread, List.getLast?_concat]
    rw [List.concat_eq_append] at htext ⊢
    rw [lead_of_slash (htext ▸ hlast), htext]

theorem text_spreadOut_join (pieces : List (List Char)) {right : Path} (h : right.isAbsolute = false) :
    ((spreadOut pieces).join right).text.toList = spread pieces ++ right.text.toList := by
  rw [text_join _ h, lead_spreadOut]

theorem isAbsolute_ofList {piece : List Char} (h : '/' ∉ piece) :
    (Path.mk (String.ofList piece)).isAbsolute = false := by
  rw [isAbsolute, String.toList_ofList]
  rcases piece with _ | ⟨c, rest⟩
  · rfl
  · have hne : c ≠ '/' := fun hc => h (hc ▸ List.mem_cons_self ..)
    simpa using hne

/-- Pieces that lead anywhere do not spell a path from the root. -/
theorem isAbsolute_spreadOut_filter {pieces : List (List Char)} (h : ∀ piece ∈ pieces, '/' ∉ piece) :
    (spreadOut (pieces.filter fun piece => !isIdle piece)).isAbsolute = false := by
  rw [isAbsolute, show (spreadOut _).text.toList = spread _ from String.toList_ofList]
  rcases hkept : pieces.filter fun piece => !isIdle piece with _ | ⟨piece, others⟩
  · rfl
  · have hmem : piece ∈ pieces.filter fun piece => !isIdle piece := hkept ▸ List.mem_cons_self ..
    obtain ⟨hpiece, hidle⟩ := List.mem_filter.1 hmem
    rcases piece with _ | ⟨c, rest⟩
    · cases hidle
    · have hne : c ≠ '/' := fun hc => h _ hpiece (hc ▸ List.mem_cons_self ..)
      simpa [spread] using hne

/-- Where pieces and a path behind them lead from a directory, without the pieces that are no
component. -/
theorem locate_join_spreadOut (tree : FileTree) (base : Path) : ∃ first start,
    ∀ {pieces : List (List Char)} {right : Path}, (spreadOut pieces).isAbsolute = false →
      (∀ piece ∈ pieces, '/' ∉ piece) → right.isAbsolute = false → right.text ≠ "" →
      tree.locate (base.join ((spreadOut pieces).join right)) =
        (first ++ (pieces.filter (fun piece => !isIdle piece) ++
          Text.splitOn '/' right.text.toList)).foldlM tree.step start := by
  obtain ⟨first, start, hlocate⟩ := tree.locate_join base
  refine ⟨first, start, fun {pieces right} hpieces hslash hright hne => ?_⟩
  have htext := text_spreadOut_join pieces hright
  have hne' : ((spreadOut pieces).join right).text ≠ "" := by
    intro hempty
    rw [hempty] at htext
    exact hne (String.toList_eq_nil_iff.1 (List.append_eq_nil_iff.1 htext.symm).2)
  rw [hlocate (isAbsolute_join hpieces hright) hne', htext, splitOn_spread_append hslash,
    List.foldlM_append, List.foldlM_append]
  exact bind_congr fun location =>
    FileTree.foldlM_step_filter pieces (Text.splitOn_ne_nil '/' right.text.toList) location

/-! ## Names and extensions -/

/-- The name that a component is. -/
def Component.name? : Component → Option String
  | .normal name => some name
  | _ => none

theorem components_eq (path : Path) : ∃ before : List Component,
    (∀ component ∈ before, component = .root ∨ component = .current) ∧
      path.components = before ++ path.pieces.filterMap laterComponent? := by
  unfold components
  split
  · exact ⟨[.root], by simp, rfl⟩
  · split
    · exact ⟨[.current], by simp, by rename_i hpieces; simp [hpieces, laterComponent?]⟩
    · exact ⟨[], by simp, rfl⟩

/-- The pieces that are a component decide the extension. -/
theorem extension?_congr {a b : Path}
    (h : a.pieces.filterMap laterComponent? = b.pieces.filterMap laterComponent?) :
    a.extension? = b.extension? := by
  have hname : ∀ path : Path, path.fileName? =
      (path.pieces.filterMap laterComponent?).getLast?.bind Component.name? := by
    intro path
    obtain ⟨before, hbefore, hcomponents⟩ := path.components_eq
    rw [fileName?, hcomponents]
    by_cases hnil : path.pieces.filterMap laterComponent? = []
    · rw [hnil, List.append_nil]
      rcases hlast : before.getLast? with _ | component
      · rfl
      · rcases hbefore component (List.mem_of_getLast? hlast) with rfl | rfl <;> rfl
    · rw [List.getLast?_append_of_ne_nil _ hnil]
      rcases (path.pieces.filterMap laterComponent?).getLast? with _ | component
      · rfl
      · cases component <;> rfl
  rw [extension?, extension?, hname, hname, h]

theorem filterMap_laterComponent? (pieces : List (List Char)) :
    (pieces.filter fun piece => !isIdle piece).filterMap laterComponent? =
      pieces.filterMap laterComponent? := by
  rw [List.filterMap_filter]
  refine List.filterMap_congr fun piece _ => ?_
  by_cases hidle : isIdle piece
  · have hlater : laterComponent? piece = none := if_pos hidle
    simp [hidle, hlater]
  · simp [hidle]

end Path

/-! ## Candidates of a spelling -/

variable {tree : FileTree} {importer : Path} {specifier specifier' : String}

/-- A relative specifier, taken apart before its last piece. -/
theorem exists_relative (h : (importRelative specifier).isAbsolute = false) : ∃ init last,
    plainPieces specifier = init.filter (fun piece => !Path.isIdle piece) ++ [last] ∧
      importRelative specifier = (Path.spreadOut init).join ⟨String.ofList last⟩ ∧
      (Path.spreadOut init).isAbsolute = false ∧ (∀ piece ∈ init, '/' ∉ piece) ∧ '/' ∉ last := by
  rcases List.eq_nil_or_concat (relativePieces specifier) with hnil | ⟨init, last, hpieces⟩
  · exact absurd hnil (Text.splitOn_ne_nil '/' _)
  · rw [List.concat_eq_append] at hpieces
    have htext := spread_append_of_splitOn hpieces
    have hslash : ∀ piece ∈ init ++ [last], '/' ∉ piece := fun piece hp =>
      Text.notMem_of_mem_splitOn (hpieces.symm ▸ hp)
    have hlast : '/' ∉ last := hslash last (by simp)
    refine ⟨init, last, ?_, Path.ext_toList ?_, Path.isAbsolute_of_prefix h htext,
      fun piece hp => hslash piece (List.mem_append_left _ hp), hlast⟩
    · rw [plainPieces, hpieces]
      simp
    · rw [Path.text_spreadOut_join init (Path.isAbsolute_ofList hlast), String.toList_ofList, htext]

/-- The path that a specifier spells is relative, and has the same last piece. -/
theorem plainPath_eq {init : List (List Char)} {last : List Char}
    (h : plainPieces specifier = init ++ [last]) (hlast : '/' ∉ last) :
    plainPath specifier = (Path.spreadOut init).join ⟨String.ofList last⟩ := by
  refine Path.ext_toList ?_
  rw [Path.text_spreadOut_join init (Path.isAbsolute_ofList hlast), plainPath, h, String.toList_ofList,
    Text.intercalate_concat, String.toList_ofList]
  rfl

theorem isAbsolute_plainPath (h : (importRelative specifier).isAbsolute = false) :
    (plainPath specifier).isAbsolute = false := by
  obtain ⟨init, last, hplain, -, -, hslash, hlast⟩ := exists_relative h
  rw [plainPath_eq hplain hlast]
  exact Path.isAbsolute_join (Path.isAbsolute_spreadOut_filter hslash) (Path.isAbsolute_ofList hlast)

/-- The candidates for a spelling lead where those for the plain path lead. -/
theorem forall₂_locate_candidates (tree : FileTree) (base : Path)
    (h : (importRelative specifier).isAbsolute = false) :
    List.Forall₂ (fun candidate plain => tree.locate candidate = tree.locate plain)
      (importCandidates (base.join (importRelative specifier)))
      ((importCandidates (plainPath specifier)).map base.join) := by
  obtain ⟨init, last, hplain, hrelative, hinit, hslash, hlast⟩ := exists_relative h
  obtain ⟨first, start, hlocate⟩ := Path.locate_join_spreadOut tree base
  have hlast' := Path.isAbsolute_ofList hlast
  have hslash' : ∀ piece ∈ init.filter (fun piece => !Path.isIdle piece), '/' ∉ piece :=
    fun piece hp => hslash piece (List.mem_filter.1 hp).1
  rw [importCandidates_join h, hrelative, plainPath_eq hplain hlast, importCandidates_join hlast',
    importCandidates_join hlast', List.map_map, List.map_map, List.forall₂_map_left_iff,
    List.forall₂_map_right_iff, List.forall₂_same]
  intro candidate hcandidate
  obtain ⟨hright, hne⟩ := importCandidates_relative hlast' hcandidate
  refine (hlocate hinit hslash hright hne).trans
    (.trans ?_ (hlocate (Path.isAbsolute_spreadOut_filter hslash) hslash' hright hne).symm)
  simp only [List.filter_filter, Bool.and_self]

/-- A spelling ends with the extension that the plain path ends with. -/
theorem extension?_join_plainPath (base : Path) (h : (importRelative specifier).isAbsolute = false) :
    (base.join (importRelative specifier)).extension? = (base.join (plainPath specifier)).extension? := by
  obtain ⟨init, last, hplain, hrelative, hinit, hslash, hlast⟩ := exists_relative h
  obtain ⟨first, _, hpieces⟩ := base.pieces_join
  have hsplit : ∀ {pieces : List (List Char)}, (∀ piece ∈ pieces, '/' ∉ piece) →
      Text.splitOn '/' ((Path.spreadOut pieces).join ⟨String.ofList last⟩).text.toList =
        pieces ++ [last] := by
    intro pieces hpieces
    rw [Path.text_spreadOut_join pieces (Path.isAbsolute_ofList hlast), String.toList_ofList,
      splitOn_spread_append hpieces, Text.splitOn_eq_singleton hlast]
  have hslash' : ∀ piece ∈ init.filter (fun piece => !Path.isIdle piece), '/' ∉ piece :=
    fun piece hp => hslash piece (List.mem_filter.1 hp).1
  refine Path.extension?_congr ?_
  rw [(hpieces h).1, (hpieces (isAbsolute_plainPath h)).1, hrelative, plainPath_eq hplain hlast,
    hsplit hslash, hsplit hslash', List.filterMap_append, List.filterMap_append, List.filterMap_append,
    List.filterMap_append, Path.filterMap_laterComponent?]

/-! ## Imports -/

/-- Whether a path names a file that no script is made from. -/
def Path.namesAsset (path : Path) : Bool :=
  path.extension?.any fun ending => !scriptExtensions.contains ending

/-- A relative import leads to the first candidate that is a file; where there is none, it may still
name an asset. -/
theorem resolveImport_of_dot (hdot : specifier.toList.head? = some '.') :
    resolveImport tree importer specifier =
      ((importCandidates (importTarget importer specifier)).find? tree.isFile).elim
        (if (importTarget importer specifier).namesAsset then .ok none
          else .error (.unresolved specifier importer)) (fun found => .ok (some found)) := by
  unfold resolveImport Path.namesAsset
  simp only [hdot, bne_self_eq_false, Bool.false_eq_true, if_false]
  rcases (importCandidates (importTarget importer specifier)).find? tree.isFile with _ | found
  · rcases (importTarget importer specifier).extension? with _ | ending
    · rfl
    · by_cases hscript : ending ∈ scriptExtensions <;> simp [hscript]
  · rfl

theorem find?_forall₂ {α β : Type} {R : α → β → Prop} {p : α → Bool} {q : β → Bool} {items : List α}
    {items' : List β} (h : List.Forall₂ R items items') (hsame : ∀ {a b}, R a b → p a = q b) :
    (items.find? p = none ∧ items'.find? q = none) ∨
      ∃ a, ∃ b ∈ items', items.find? p = some a ∧ items'.find? q = some b ∧ R a b := by
  induction h with
  | nil => exact .inl ⟨rfl, rfl⟩
  | @cons a b _ _ hfirst _ ih =>
    rw [List.find?_cons, List.find?_cons, hsame hfirst]
    cases q b with
    | true => exact .inr ⟨a, b, List.mem_cons_self .., rfl, rfl, hfirst⟩
    | false =>
      rcases ih with hnone | ⟨a', b', hmem, hfound⟩
      · exact .inl hnone
      · exact .inr ⟨a', b', List.mem_cons_of_mem _ hmem, hfound⟩

/-- What an import leads to, seen from the plain path of its specifier. -/
theorem resolveImport_plain (tree : FileTree) (importer : Path)
    (hdot : specifier.toList.head? = some '.') (h : ¬ DoublesFirst specifier) :
    (∃ found, ∃ candidate ∈ importCandidates (plainPath specifier),
      resolveImport tree importer specifier = .ok (some found) ∧
      ((importCandidates (plainPath specifier)).map importer.directory.join).find? tree.isFile =
        some (importer.directory.join candidate) ∧
      tree.locate found = tree.locate (importer.directory.join candidate)) ∨
    (((importCandidates (plainPath specifier)).map importer.directory.join).find? tree.isFile = none ∧
      resolveImport tree importer specifier =
        if (importer.directory.join (plainPath specifier)).namesAsset then .ok none
        else .error (.unresolved specifier importer)) := by
  have hrelative := isAbsolute_importRelative hdot h
  have hcandidates := forall₂_locate_candidates tree importer.directory hrelative
  have hextension := extension?_join_plainPath importer.directory hrelative
  rw [resolveImport_of_dot hdot, importTarget_eq, Path.namesAsset, Path.namesAsset, hextension]
  have hisFile : ∀ {a b : Path}, tree.locate a = tree.locate b → tree.isFile a = tree.isFile b :=
    fun hlocate => by simp only [FileTree.isFile, FileTree.find?, hlocate]
  rcases find?_forall₂ hcandidates hisFile with
    ⟨hnone, hplain⟩ | ⟨found, joined, hmem, hfound, hplain, hlocate⟩
  · rw [hnone, Option.elim_none]
    exact .inr ⟨hplain, rfl⟩
  · obtain ⟨candidate, hcandidate, rfl⟩ := List.mem_map.1 hmem
    rw [hfound, Option.elim_some]
    exact .inl ⟨found, candidate, hcandidate, rfl, hplain, hlocate⟩

/-- Two imports lead to the same file, or neither leads to one for the same reason. -/
inductive SameAnswer (tree : FileTree) :
    Except LoadError (Option Path) → Except LoadError (Option Path) → Prop where
  | found {found found' : Path} {location : Location} (h : tree.FileAt found location)
    (h' : tree.FileAt found' location) : SameAnswer tree (.ok (some found)) (.ok (some found'))
  | nothing : SameAnswer tree (.ok none) (.ok none)
  | unresolved (specifier specifier' : String) (importer : Path) :
    SameAnswer tree (.error (.unresolved specifier importer)) (.error (.unresolved specifier' importer))

/-- From every spelling of a specifier an import leads to the same file, and this stands where the
plain path leads from the directory of the importing file. -/
theorem resolveImport_respelled (tree : FileTree) (importer : Path) (h : Respelled specifier specifier')
    (hfirst : ¬ DoublesFirst specifier) (hfirst' : ¬ DoublesFirst specifier') :
    SameAnswer tree (resolveImport tree importer specifier) (resolveImport tree importer specifier') ∧
      ∀ found, resolveImport tree importer specifier' = .ok (some found) →
        ∃ candidate ∈ importCandidates (plainPath specifier),
          tree.locate found = tree.locate (importer.directory.join candidate) := by
  have hplain : plainPath specifier' = plainPath specifier := by
    rw [plainPath, plainPath, h.plainPieces_eq]
  by_cases hdot : specifier.toList.head? = some '.'
  · have hdot' := h.head?.trans hdot
    have hanswer' := resolveImport_plain tree importer hdot' hfirst'
    rw [hplain] at hanswer'
    rcases resolveImport_plain tree importer hdot hfirst with
      ⟨found, candidate, hcandidate, hfound, hfind, hlocate⟩ | ⟨hnone, hanswer⟩
    · rcases hanswer' with ⟨found', candidate', -, hfound', hfind', hlocate'⟩ | ⟨hnone, -⟩
      · rw [hfind, Option.some.injEq] at hfind'
        have hfile := resolveImport_isFile hfound
        obtain ⟨location, hlocation⟩ := FileTree.isFile_iff.1 hfile
        rw [← hfind'] at hlocate'
        have hsame := hlocate'.trans hlocate.symm
        rw [hfound, hfound']
        refine ⟨.found hlocation (hlocation.of_locate_eq hsame), fun joined hjoined => ?_⟩
        obtain rfl : found' = joined := Option.some.inj (Except.ok.inj hjoined)
        exact ⟨candidate, hcandidate, hlocate'⟩
      · rw [hnone] at hfind
        cases hfind
    · rcases hanswer' with ⟨_, _, _, _, hfind', _⟩ | ⟨_, hanswer'⟩
      · rw [hnone] at hfind'
        cases hfind'
      · rw [hanswer, hanswer']
        split
        · exact ⟨.nothing, fun found hfound => by cases hfound⟩
        · exact ⟨.unresolved .., fun found hfound => by cases hfound⟩
  · have hnothing : ∀ other : String, other.toList.head? = specifier.toList.head? →
        resolveImport tree importer other = .ok none := by
      intro other hother
      simp [resolveImport, hother, hdot]
    rw [hnothing specifier rfl, hnothing specifier' h.head?]
    exact ⟨.nothing, fun found hfound => by cases hfound⟩

/-- A directory with two files and, in a directory below it, one more. -/
def libTree : FileTree where
  entries := [(["project"], .directory), (["project", "a.ts"], .file (some "")),
    (["project", "b.ts"], .file (some "")), (["project", "lib"], .directory),
    (["project", "lib", "b.ts"], .file (some ""))]
  current := ["project"]

theorem respelled_lib : Respelled "./lib/b" "././lib//./b" := by
  have hfirst : Widened "./lib/b" "././lib/b" :=
    ⟨".".toList, _, "lib/b".toList, .inr rfl, .inl (by decide), by decide, by decide⟩
  have hsecond : Widened "././lib/b" "././lib//b" :=
    ⟨"././lib".toList, _, "b".toList, .inl rfl, .inl (by decide), by decide, by decide⟩
  have hthird : Widened "././lib//b" "././lib//./b" :=
    ⟨"././lib/".toList, _, "b".toList, .inr rfl, .inl (by decide), by decide, by decide⟩
  exact ((ReflTransGen.single hfirst).tail hsecond).tail hthird

theorem resolveImport_respelled_libTree :
    (Respelled "./lib/b" "././lib//./b" ∧ ¬ DoublesFirst "./lib/b" ∧ ¬ DoublesFirst "././lib//./b") ∧
      resolveImport libTree ⟨"a.ts"⟩ "././lib//./b" = .ok (some ⟨"./lib//./b.ts"⟩) ∧
      SameAnswer libTree (resolveImport libTree ⟨"a.ts"⟩ "./lib/b")
        (resolveImport libTree ⟨"a.ts"⟩ "././lib//./b") := by
  have hfirst : ¬ DoublesFirst "./lib/b" := by decide
  have hfirst' : ¬ DoublesFirst "././lib//./b" := by decide
  exact ⟨⟨respelled_lib, hfirst, hfirst'⟩, by decide,
    (resolveImport_respelled libTree ⟨"a.ts"⟩ respelled_lib hfirst hfirst').1⟩

/-- A second separator after the `./` at the start leads away from the file. -/
theorem not_resolveImport_respelled : ¬ ∀ (tree : FileTree) (importer : Path) (specifier specifier' : String),
    Respelled specifier specifier' →
      SameAnswer tree (resolveImport tree importer specifier) (resolveImport tree importer specifier') := by
  intro h
  have hwidened : Widened "./b" ".//b" :=
    ⟨".".toList, _, "b".toList, .inl rfl, .inl (by decide), by decide, by decide⟩
  have hsame := h libTree ⟨"a.ts"⟩ "./b" ".//b" (.single hwidened)
  have hfound : resolveImport libTree ⟨"a.ts"⟩ "./b" = .ok (some ⟨"b.ts"⟩) := by decide
  have hunresolved : resolveImport libTree ⟨"a.ts"⟩ ".//b" = .error (.unresolved ".//b" ⟨"a.ts"⟩) := by
    decide
  rw [hfound, hunresolved] at hsame
  cases hsame

end ComponentSchema
