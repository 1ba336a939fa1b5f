import ComponentSchema.Program.Modules
import ComponentSchema.Proofs.Text.Separators
import Mathlib.Data.List.Find
import Mathlib.Data.List.Infix
import Mathlib.Data.List.TakeWhile

/-!
# Spellings of a file

Many paths may lead to one file: `a.ts`, `./a.ts` and `lib/../a.ts`. They differ in the directory
that an import is looked for in only by how it is spelled. So the file that an import leads to is the
same for all spellings of the importing file, and so is the text that is read and the way in which it
is parsed.

Hypothesis. `FileTree.IsRooted`: every entry stands in a directory.

Results.
* `importCandidates_join`: the candidates for an import, seen from a directory.
* `locate_beside`: where a path leads that is seen from the directory of a file.
* `resolveImport_spelling`: an import leads to the same file from every spelling.
* `parseFile_spelling`: a file has the same tree under every spelling.
-/
namespace ComponentSchema

/-! ## Pieces of a text -/

/-- Pieces with a `/` after each of them. -/
def spread (pieces : List (List Char)) : List Char := pieces.flatMap (· ++ ['/'])

theorem splitOn_spread_append {pieces : List (List Char)} (h : ∀ piece ∈ pieces, '/' ∉ piece)
    (text : List Char) :
    Text.splitOn '/' (spread pieces ++ text) = pieces ++ Text.splitOn '/' text :=
  Text.splitOn_flatMap_append h text

@[simp] theorem spread_append (a b : List (List Char)) : spread (a ++ b) = spread a ++ spread b :=
  List.flatMap_append

/-- The pieces of a text, put together again. -/
theorem spread_append_of_splitOn {text : List Char} {init : List (List Char)} {last : List Char}
    (h : Text.splitOn '/' text = init ++ [last]) : spread init ++ last = text := by
  induction text generalizing init last with
  | nil =>
    rw [Text.splitOn] at h
    rcases init with _ | ⟨first, init⟩ <;> simp_all [spread]
  | cons c rest ih =>
    by_cases hc : c = '/'
    · rw [Text.splitOn, if_pos (by simpa using hc)] at h
      rcases init with _ | ⟨first, init⟩
      · exact absurd (List.cons.inj h).2 (Text.splitOn_ne_nil '/' rest)
      · obtain ⟨rfl, hrest⟩ := List.cons.inj h
        simp [spread, ← ih hrest, hc]
    · rcases hrest : Text.splitOn '/' rest with _ | ⟨first, others⟩
      · exact absurd hrest (Text.splitOn_ne_nil '/' rest)
      · rw [Text.splitOn_cons_of_ne hc hrest] at h
        rcases init with _ | ⟨start, init⟩
        · obtain ⟨rfl, rfl⟩ := List.cons.inj h
          simpa [spread] using @ih [] first hrest
        · obtain ⟨rfl, rfl⟩ := List.cons.inj h
          simpa [spread] using @ih (first :: init) last hrest

/-! ## Joined paths -/

namespace Path

/-- What stands before a path that is seen from a directory. -/
def lead (base : Path) : List Char :=
  if base.text.toList = [] then []
  else if base.text.toList.getLast? = some '/' then base.text.toList
  else base.text.toList ++ ['/']

theorem lead_of_nil {base : Path} (h : base.text.toList = []) : base.lead = [] := if_pos h

theorem lead_of_slash {base : Path} (h : base.text.toList.getLast? = some '/') :
    base.lead = base.text.toList := by
  have hne : base.text.toList ≠ [] := by
    intro hnil
    simp [hnil] at h
  rw [lead, if_neg hne, if_pos h]

theorem lead_of_ne {base : Path} (hne : base.text.toList ≠ [])
    (h : base.text.toList.getLast? ≠ some '/') : base.lead = base.text.toList ++ ['/'] := by
  rw [lead, if_neg hne, if_neg h]

theorem lead_eq_nil_or (base : Path) : base.lead = [] ∨ base.lead.getLast? = some '/' := by
  unfold lead
  split
  · exact .inl rfl
  · split
    · rename_i h
      exact .inr h
    · exact .inr (by simp)

theorem text_join (base : Path) {right : Path} (h : right.isAbsolute = false) :
    (base.join right).text.toList = base.lead ++ right.text.toList := by
  have hempty : base.text.isEmpty = decide (base.text.toList = []) := by
    rw [Bool.eq_iff_iff, String.isEmpty_iff, decide_eq_true_iff, String.toList_eq_nil_iff]
  unfold join lead
  rw [h, Bool.false_or, hempty]
  by_cases hnil : base.text.toList = []
  · simp [hnil]
  · by_cases hlast : base.text.toList.getLast? = some '/'
    · simp [hnil, hlast, String.toList_append]
    · simp [hnil, hlast, String.toList_append]

theorem ext_toList {a b : Path} (h : a.text.toList = b.text.toList) : a = b :=
  congrArg Path.mk (String.toList_inj.1 h)

theorem isAbsolute_iff {path : Path} : path.isAbsolute = true ↔ ∃ rest, path.text.toList = '/' :: rest := by
  unfold isAbsolute
  rcases path.text.toList with _ | ⟨c, rest⟩ <;> simp

/-- A suffix without `/` does not reach into a text before it that ends with `/`. -/
theorem suffix_append_iff {before suffix text : List Char}
    (hbefore : before = [] ∨ before.getLast? = some '/') (hsuffix : '/' ∉ suffix) :
    suffix <:+ before ++ text ↔ suffix <:+ text := by
  constructor
  · intro h
    by_cases hlength : suffix.length ≤ text.length
    · exact List.suffix_of_suffix_length_le h (List.suffix_append _ _) hlength
    · exfalso
      have htext : text <:+ suffix :=
        List.suffix_of_suffix_length_le (List.suffix_append _ _) h (by omega)
      obtain ⟨middle, rfl⟩ := htext
      have hmiddle : middle ≠ [] := by
        rintro rfl
        simp at hlength
      obtain ⟨outer, houter⟩ := h
      rw [← List.append_assoc, List.append_cancel_right_eq] at houter
      rcases hbefore with rfl | hlast
      · exact hmiddle (List.append_eq_nil_iff.1 houter).2
      · rw [← houter, List.getLast?_append_of_ne_nil _ hmiddle] at hlast
        exact hsuffix (List.mem_append_left _ (List.mem_of_getLast? hlast))
  · exact fun h => h.trans (List.suffix_append _ _)

theorem endsWith_join {base right : Path} (h : right.isAbsolute = false) {suffix : String}
    (hsuffix : '/' ∉ suffix.toList) : (base.join right).endsWith suffix = right.endsWith suffix := by
  rw [Bool.eq_iff_iff, endsWith, endsWith, List.isSuffixOf_iff_suffix, List.isSuffixOf_iff_suffix,
    text_join _ h]
  exact suffix_append_iff base.lead_eq_nil_or hsuffix

theorem append_join {base right : Path} (h : right.isAbsolute = false) {suffix : String}
    (h' : (right.append suffix).isAbsolute = false) :
    (base.join right).append suffix = base.join (right.append suffix) := by
  refine ext_toList ?_
  rw [text_join _ h', append, append, String.toList_append, String.toList_append, text_join _ h,
    List.append_assoc]

theorem stripSuffix?_join {base right : Path} (h : right.isAbsolute = false) {suffix : String}
    (hsuffix : '/' ∉ suffix.toList) : (base.join right).stripSuffix? suffix =
      (right.stripSuffix? suffix).map fun stem => String.ofList (base.lead ++ stem.toList) := by
  unfold stripSuffix?
  rw [endsWith_join h hsuffix]
  split
  · rename_i hends
    obtain ⟨stem, hstem⟩ := List.isSuffixOf_iff_suffix.1 hends
    have hlength : right.text.length = stem.length + suffix.length := by
      rw [← String.length_toList, ← hstem, List.length_append, String.length_toList]
    have hlength' : (base.join right).text.length - suffix.length =
        base.lead.length + stem.length := by
      rw [← String.length_toList, text_join _ h, List.length_append, String.length_toList, hlength]
      omega
    rw [hlength', text_join _ h, ← hstem, hlength, Nat.add_sub_cancel, ← List.append_assoc,
      List.take_left' List.length_append, List.take_left' rfl, Option.map_some,
      String.toList_ofList]
  · rfl

theorem join_assoc {base middle right : Path} (hmiddle : middle.isAbsolute = false)
    (hright : right.isAbsolute = false) (h : (middle.join right).isAbsolute = false) :
    (base.join middle).join right = base.join (middle.join right) := by
  refine ext_toList ?_
  rw [text_join _ hright, text_join _ h, text_join _ hright, ← List.append_assoc]
  congr 1
  have htext := text_join base hmiddle
  by_cases hnil : middle.text.toList = []
  · rw [hnil, List.append_nil] at htext
    rw [lead_of_nil hnil, List.append_nil]
    rcases base.lead_eq_nil_or with hlead | hlead
    · rw [lead_of_nil (htext.trans hlead), hlead]
    · rw [lead_of_slash (htext ▸ hlead), htext]
  · have hne : (base.join middle).text.toList ≠ [] := by simp [htext, hnil]
    have hlast : (base.join middle).text.toList.getLast? = middle.text.toList.getLast? := by
      rw [htext, List.getLast?_append_of_ne_nil _ hnil]
    by_cases hslash : middle.text.toList.getLast? = some '/'
    · rw [lead_of_slash (hlast.trans hslash), lead_of_slash hslash, htext]
    · rw [lead_of_ne hne (hlast ▸ hslash), lead_of_ne hnil hslash, htext, List.append_assoc]

theorem isAbsolute_append {path : Path} (h : path.isAbsolute = false) {suffix : String}
    (hsuffix : suffix.toList.head? ≠ some '/') : (path.append suffix).isAbsolute = false := by
  unfold isAbsolute append at *
  rw [String.toList_append]
  rcases htext : path.text.toList with _ | ⟨c, rest⟩
  · simpa using hsuffix
  · simpa [htext] using h

theorem isAbsolute_of_prefix {path : Path} (h : path.isAbsolute = false) {stem suffix : List Char}
    (hstem : stem ++ suffix = path.text.toList) : (Path.mk (String.ofList stem)).isAbsolute = false := by
  unfold isAbsolute at *
  rw [← hstem] at h
  rw [String.toList_ofList]
  rcases stem with _ | ⟨c, rest⟩
  · rfl
  · simpa using h

theorem isAbsolute_join {base right : Path} (h : base.isAbsolute = false)
    (h' : right.isAbsolute = false) : (base.join right).isAbsolute = false := by
  have htext := text_join base h'
  unfold isAbsolute at *
  rw [htext]
  by_cases hnil : base.text.toList = []
  · rw [lead_of_nil hnil]
    exact h'
  · obtain ⟨c, rest, hbase⟩ := List.exists_cons_of_ne_nil hnil
    have hhead : base.lead.head? = some c := by
      by_cases hslash : base.text.toList.getLast? = some '/'
      · rw [lead_of_slash hslash, hbase]
        rfl
      · rw [lead_of_ne hnil hslash, hbase]
        rfl
    obtain ⟨rest', hlead⟩ : ∃ rest', base.lead = c :: rest' := by
      rcases hlead : base.lead with _ | ⟨d, rest'⟩
      · simp [hlead] at hhead
      · exact ⟨rest', by simpa [hlead] using hhead⟩
    rw [hbase] at h
    rw [hlead]
    exact h

end Path

/-! ## Candidates -/

theorem stripSuffix?_eq_some {path : Path} {suffix stem : String}
    (h : path.stripSuffix? suffix = some stem) : stem.toList ++ suffix.toList = path.text.toList := by
  unfold Path.stripSuffix? at h
  split at h
  · rename_i hends
    obtain ⟨before, hbefore⟩ := List.isSuffixOf_iff_suffix.1 hends
    have hlength : path.text.length = before.length + suffix.length := by
      rw [← String.length_toList, ← hbefore, List.length_append, String.length_toList]
    rw [← hbefore, hlength, Nat.add_sub_cancel, List.take_left' rfl] at h
    rw [← Option.some.inj h, String.toList_ofList, hbefore]
  · cases h

/-- The candidates for an import, seen from a directory, are those for its relative path, seen from
there. -/
theorem importCandidates_join {base right : Path} (h : right.isAbsolute = false) :
    importCandidates (base.join right) = (importCandidates right).map base.join := by
  have hends : sourceEndings.any (base.join right).endsWith = sourceEndings.any right.endsWith := by
    simp [sourceEndings, Path.endsWith_join h]
  have hemitted : ∀ entry ∈ emittedEndings, '/' ∉ entry.1.toList ∧
      ∀ ending ∈ entry.2, ending.toList.head? ≠ some '/' := by decide
  have hassumed : ∀ ending ∈ assumedEndings, ending.toList.head? ≠ some '/' ∧
      (Path.mk ("index" ++ ending)).isAbsolute = false := by decide
  simp only [importCandidates, hends, List.map_append, List.map_flatMap, List.map_map]
  congr 1
  · congr 1
    · congr 1
      · split <;> rfl
      · refine List.flatMap_congr fun entry he => ?_
        obtain ⟨hslash, hendings⟩ := hemitted entry he
        rw [Path.stripSuffix?_join h hslash]
        rcases hstem : right.stripSuffix? entry.1 with _ | stem
        · rfl
        · have hrelative := Path.isAbsolute_of_prefix h (stripSuffix?_eq_some hstem)
          rw [String.ofList_toList] at hrelative
          simp only [Option.map_some, List.map_map]
          refine List.map_congr_left fun ending hending => Path.ext_toList ?_
          have htext := Path.text_join base
            (Path.isAbsolute_append hrelative (hendings ending hending))
          rw [Path.append] at htext
          simp [htext, String.toList_append]
    · refine List.map_congr_left fun ending hending => ?_
      exact Path.append_join h (Path.isAbsolute_append h (hassumed ending hending).1)
  · refine List.map_congr_left fun ending hending => ?_
    have hindex := (hassumed ending hending).2
    exact Path.join_assoc h hindex (Path.isAbsolute_join h hindex)

/-- A candidate for a relative path is a relative path. -/
theorem importCandidates_relative {right candidate : Path} (h : right.isAbsolute = false)
    (hcandidate : candidate ∈ importCandidates right) :
    candidate.isAbsolute = false ∧ candidate.text ≠ "" := by
  have hassumed : ∀ ending ∈ assumedEndings, ending.toList.head? ≠ some '/' ∧ ending ≠ "" ∧
      (Path.mk ("index" ++ ending)).isAbsolute = false ∧ "index" ++ ending ≠ "" := by decide
  have hemitted : ∀ entry ∈ emittedEndings, ∀ ending ∈ entry.2,
      ending.toList.head? ≠ some '/' ∧ ending ≠ "" := by decide
  have hsource : sourceEndings.any (Path.mk "").endsWith = false := by decide
  simp only [importCandidates, List.mem_append, List.mem_flatMap, List.mem_map] at hcandidate
  rcases hcandidate with ((hcandidate | ⟨entry, he, hcandidate⟩) | ⟨ending, hending, rfl⟩) |
    ⟨ending, hending, rfl⟩
  · split at hcandidate
    · rename_i hends
      obtain rfl := List.mem_singleton.1 hcandidate
      refine ⟨h, fun hempty => ?_⟩
      have : candidate = ⟨""⟩ := congrArg Path.mk hempty
      rw [this, hsource] at hends
      cases hends
    · cases hcandidate
  · split at hcandidate
    · rename_i stem hstem
      obtain ⟨ending, hending, rfl⟩ := List.mem_map.1 hcandidate
      obtain ⟨hslash, hne⟩ := hemitted entry he ending hending
      have hrelative := Path.isAbsolute_of_prefix h (stripSuffix?_eq_some hstem)
      rw [String.ofList_toList] at hrelative
      exact ⟨Path.isAbsolute_append hrelative hslash, by simp [hne]⟩
    · cases hcandidate
  · obtain ⟨hslash, hne, -⟩ := hassumed ending hending
    exact ⟨Path.isAbsolute_append h hslash, by simp [Path.append, hne]⟩
  · obtain ⟨-, -, hindex, hne⟩ := hassumed ending hending
    refine ⟨Path.isAbsolute_join h hindex, fun hempty => ?_⟩
    have htext := Path.text_join right hindex
    rw [hempty] at htext
    simp at htext

/-- The path of a specifier, as it is seen from the directory of the importing file. -/
def importRelative (specifier : String) : Path :=
  match specifier.toList with
  | '.' :: '/' :: rest => ⟨String.ofList rest⟩
  | _ => ⟨specifier⟩

/-! ## The directory of a file -/

namespace Path

/-- A piece that is no component. -/
def isIdle (piece : List Char) : Bool := piece == [] || piece == ['.']

theorem trimPieces_cons (absolute : Bool) (first : List Char) (rest : List (List Char)) :
    trimPieces absolute (first :: rest) =
      let kept := (rest.reverse.dropWhile isIdle).reverse
      if kept.isEmpty && (first == [] || (absolute && isIdle first)) then [] else first :: kept :=
  rfl

theorem trimPieces_append (absolute : Bool) (pieces : List (List Char)) :
    ∃ idle, trimPieces absolute pieces ++ idle = pieces ∧ ∀ piece ∈ idle, isIdle piece := by
  rcases pieces with _ | ⟨first, rest⟩
  · exact ⟨[], rfl, by simp⟩
  · have hrest : (rest.reverse.dropWhile isIdle).reverse ++
        (rest.reverse.takeWhile isIdle).reverse = rest := by
      rw [← List.reverse_append, List.takeWhile_append_dropWhile, List.reverse_reverse]
    have hidle : ∀ piece ∈ (rest.reverse.takeWhile isIdle).reverse, isIdle piece := fun piece hp =>
      List.mem_takeWhile_imp (List.mem_reverse.1 hp)
    simp only [trimPieces_cons]
    split
    · rename_i hempty
      rw [Bool.and_eq_true, List.isEmpty_iff, Bool.or_eq_true] at hempty
      refine ⟨first :: rest, rfl, fun piece hp => ?_⟩
      rcases List.mem_cons.1 hp with rfl | hp
      · rcases hempty.2 with h | h
        · simp [isIdle, h]
        · exact (Bool.and_eq_true _ _ ▸ h).2
      · rw [hempty.1, List.nil_append] at hrest
        exact hidle piece (hrest.symm ▸ hp)
    · exact ⟨_, by rw [List.cons_append, hrest], hidle⟩

theorem trimPieces_concat {absolute : Bool} {init : List (List Char)} {name : List Char}
    (h : isIdle name = false) : trimPieces absolute (init ++ [name]) = init ++ [name] := by
  rcases init with _ | ⟨first, rest⟩
  · have hne : (name == []) = false := (Bool.or_eq_false_iff.1 h).1
    rw [List.nil_append, trimPieces_cons, h, hne]
    simp
  · rw [List.cons_append, trimPieces_cons, List.reverse_append, List.reverse_singleton,
      List.singleton_append, List.dropWhile_cons_of_neg (by simp [h])]
    simp

theorem trimPieces_eq_concat {absolute : Bool} {pieces init : List (List Char)} {last : List Char}
    (h : trimPieces absolute pieces = init ++ [last]) : last ≠ [] := by
  rcases pieces with _ | ⟨first, rest⟩
  · simp [trimPieces] at h
  · simp only [trimPieces_cons] at h
    split at h
    · simp at h
    · rename_i hkept
      rcases init with _ | ⟨start, init⟩
      · obtain ⟨rfl, hnil⟩ := List.cons.inj h
        rintro rfl
        simp [hnil] at hkept
      · rw [List.cons_append] at h
        have hrest := List.reverse_eq_iff.1 (List.cons.inj h).2
        rw [List.reverse_append, List.reverse_singleton, List.singleton_append] at hrest
        have hlast := List.head?_dropWhile_not isIdle rest.reverse
        rw [hrest, List.head?_cons] at hlast
        rintro rfl
        simp [isIdle] at hlast

/-- The text of a path before its pieces. -/
def rootText (path : Path) : List Char := if path.isAbsolute then ['/'] else []

theorem text_eq {path : Path} {init : List (List Char)} {last : List Char}
    (h : path.pieces = init ++ [last]) : path.text.toList = path.rootText ++ (spread init ++ last) := by
  have htext := spread_append_of_splitOn h
  rw [htext, rootText]
  by_cases habsolute : path.isAbsolute
  · obtain ⟨rest, hrest⟩ := isAbsolute_iff.1 habsolute
    simp [habsolute, hrest]
  · simp [habsolute]

/-- A suffix without `/` is a suffix of the last piece. -/
theorem isSuffixOf_text {path : Path} {init : List (List Char)} {last : List Char}
    (h : path.pieces = init ++ [last]) {suffix : List Char} (hsuffix : '/' ∉ suffix) :
    suffix.isSuffixOf path.text.toList = suffix.isSuffixOf last := by
  rw [Bool.eq_iff_iff, List.isSuffixOf_iff_suffix, List.isSuffixOf_iff_suffix, text_eq h,
    ← List.append_assoc]
  refine suffix_append_iff ?_ hsuffix
  rcases List.eq_nil_or_concat init with rfl | ⟨init, piece, rfl⟩
  · unfold rootText
    split <;> simp [spread]
  · right
    simp [spread]

theorem exists_pieces (path : Path) : ∃ init last, path.pieces = init ++ [last] := by
  rcases List.eq_nil_or_concat path.pieces with h | ⟨init, last, h⟩
  · exact absurd h (Text.splitOn_ne_nil _ _)
  · exact ⟨init, last, List.concat_eq_append ▸ h⟩

theorem notMem_of_mem_pieces {path : Path} {piece : List Char} (h : piece ∈ path.pieces) :
    '/' ∉ piece := Text.notMem_of_mem_splitOn h

/-- The directory of a path, as other paths are seen from it. -/
def directory (path : Path) : Path := path.parent?.getD ⟨""⟩

theorem lead_directory {path : Path} {init : List (List Char)} {name : List Char}
    (h : path.pieces = init ++ [name]) (hname : isIdle name = false) :
    path.directory.lead = path.rootText ++ spread (trimPieces path.isAbsolute init) := by
  have hparent : path.directory.text.toList = path.rootText ++
      ['/'].intercalate (trimPieces path.isAbsolute init) := by
    unfold directory parent? rootText
    rw [h, trimPieces_concat hname]
    by_cases habsolute : path.isAbsolute
    · simp [habsolute]
    · simp [habsolute]
  rcases List.eq_nil_or_concat (trimPieces path.isAbsolute init) with hkept | ⟨kept, last, hkept⟩
  · rw [hkept] at hparent ⊢
    unfold rootText at *
    by_cases habsolute : path.isAbsolute
    · simp only [habsolute] at hparent ⊢
      rw [lead_of_slash (by simp [hparent, List.intercalate]), hparent]
      rfl
    · simp only [habsolute] at hparent ⊢
      rw [lead_of_nil (by simp [hparent, List.intercalate])]
      rfl
  · rw [List.concat_eq_append] at hkept
    have hne := trimPieces_eq_concat hkept
    have hslash : '/' ∉ last := by
      obtain ⟨idle, hinit, -⟩ := trimPieces_append path.isAbsolute init
      have hmem : last ∈ init := by
        rw [← hinit, hkept]
        simp
      have hpiece : last ∈ path.pieces := h ▸ List.mem_append_left _ hmem
      exact notMem_of_mem_pieces hpiece
    rw [hkept, Text.intercalate_concat] at hparent
    have hlast : path.directory.text.toList.getLast? = last.getLast? := by
      rw [hparent, ← List.append_assoc, List.getLast?_append_of_ne_nil _ hne]
    rw [lead_of_ne (by simp [hparent, hne])
      (fun h => hslash (List.mem_of_getLast? (hlast.symm.trans h))), hparent, hkept, spread_append]
    simp only [spread, List.flatMap_singleton, List.append_assoc]

/-! ## The name that a path ends with -/

/-- The last pieces of a path are its last components. -/
theorem components_of_pieces {path : Path} {first last : List (List Char)}
    (h : path.pieces = first ++ last) :
    ∃ before, path.components = before ++ last.filterMap laterComponent? := by
  unfold components
  rw [h]
  split
  · exact ⟨.root :: first.filterMap laterComponent?, by simp⟩
  · split
    · rename_i rest hpieces
      rcases first with _ | ⟨piece, first⟩
      · rw [List.nil_append] at hpieces
        rw [hpieces]
        exact ⟨[.current], rfl⟩
      · obtain ⟨rfl, rfl⟩ := List.cons.inj hpieces
        exact ⟨.current :: first.filterMap laterComponent?, by simp⟩
    · exact ⟨first.filterMap laterComponent?, by simp⟩

/-- A path seen from a directory: what comes before its pieces, and whether it starts at the root,
depends on the directory only. -/
theorem pieces_join (base : Path) : ∃ first absolute, ∀ {right : Path}, right.isAbsolute = false →
    (base.join right).pieces = first ++ Text.splitOn '/' right.text.toList ∧
      (base.join right).isAbsolute = absolute := by
  rcases base.lead_eq_nil_or with hlead | hlead
  · refine ⟨[], false, fun {right} h => ?_⟩
    have hjoin : base.join right = right := ext_toList (by rw [text_join _ h, hlead, List.nil_append])
    rw [hjoin, pieces, h]
    exact ⟨rfl, rfl⟩
  · obtain ⟨init, hinit⟩ := List.getLast?_eq_some_iff.1 hlead
    have htext : ∀ {right : Path}, right.isAbsolute = false →
        (base.join right).text.toList = init ++ '/' :: right.text.toList := by
      intro right h
      rw [text_join _ h, hinit, List.append_assoc, List.singleton_append]
    rcases init with _ | ⟨c, init⟩
    · refine ⟨[], true, fun {right} h => ?_⟩
      have habsolute : (base.join right).isAbsolute = true := isAbsolute_iff.2 ⟨_, htext h⟩
      rw [pieces, if_pos habsolute, htext h]
      exact ⟨rfl, habsolute⟩
    · refine ⟨Text.splitOn '/' (if c = '/' then init else c :: init), c == '/', fun {right} h => ?_⟩
      have habsolute : (base.join right).isAbsolute = (c == '/') := by
        rw [isAbsolute, htext h]
        rfl
      rw [pieces, habsolute, htext h]
      by_cases hc : c = '/'
      · simp [hc, Text.splitOn_append_separator]
      · simp only [beq_iff_eq, if_neg hc]
        exact ⟨Text.splitOn_append_separator _ _, trivial⟩

/-- A path seen from the directory of another: it starts where the other does, and has the pieces of the
directory before its own. -/
theorem pieces_join_directory {path right : Path} {init : List (List Char)} {name : List Char}
    (hpieces : path.pieces = init ++ [name]) (hname : isIdle name = false)
    (hright : right.isAbsolute = false) :
    (path.directory.join right).isAbsolute = path.isAbsolute ∧
      (path.directory.join right).pieces =
        trimPieces path.isAbsolute init ++ Text.splitOn '/' right.text.toList := by
  obtain ⟨idle, htrim, -⟩ := trimPieces_append path.isAbsolute init
  have hjoin : (path.directory.join right).text.toList =
      path.rootText ++ (spread (trimPieces path.isAbsolute init) ++ right.text.toList) := by
    rw [text_join _ hright, lead_directory hpieces hname, List.append_assoc]
  have hslash : ∀ piece ∈ trimPieces path.isAbsolute init, '/' ∉ piece := by
    intro piece hp
    have hpiece : piece ∈ path.pieces := by
      rw [hpieces, ← htrim]
      exact List.mem_append_left _ (List.mem_append_left _ hp)
    exact notMem_of_mem_pieces hpiece
  rw [← splitOn_spread_append hslash]
  by_cases habsolute : path.isAbsolute = true
  · rw [rootText, if_pos habsolute] at hjoin
    have hjoined : (path.directory.join right).isAbsolute = true := by simp [isAbsolute, hjoin]
    exact ⟨hjoined.trans habsolute.symm, by rw [pieces, if_pos hjoined, hjoin]; rfl⟩
  · have hpath := text_eq hpieces
    rw [← htrim, spread_append, List.append_assoc, rootText, if_neg habsolute, List.nil_append] at hpath
    rw [rootText, if_neg habsolute, List.nil_append] at hjoin
    have hjoined : (path.directory.join right).isAbsolute = false := by
      unfold isAbsolute at habsolute hright ⊢
      rw [hpath] at habsolute
      rw [hjoin]
      cases hkept : spread (trimPieces path.isAbsolute init) with
      | nil => exact hright
      | cons c rest => simpa [hkept] using habsolute
    refine ⟨hjoined.trans (Bool.eq_false_iff.2 habsolute).symm, ?_⟩
    rw [pieces, if_neg (by simp [hjoined]), hjoin]

/-- The extension of a joined path is that of the right part, if this has a component. -/
theorem extension?_join {base right : Path} (h : right.isAbsolute = false)
    (hright : ¬ ∀ piece ∈ Text.splitOn '/' right.text.toList, isIdle piece) :
    (base.join right).extension? = right.extension? := by
  obtain ⟨first, _, hpieces⟩ := pieces_join base
  obtain ⟨before, hbefore⟩ := components_of_pieces (hpieces h).1
  have hright' : right.pieces = [] ++ Text.splitOn '/' right.text.toList := by simp [pieces, h]
  obtain ⟨before', hbefore'⟩ := components_of_pieces hright'
  have hne : (Text.splitOn '/' right.text.toList).filterMap laterComponent? ≠ [] := by
    intro hnil
    refine hright fun piece hp => ?_
    have hlater := List.filterMap_eq_nil_iff.1 hnil piece hp
    unfold laterComponent? at hlater
    split at hlater
    · assumption
    · split at hlater <;> cases hlater
  rw [extension?, extension?, fileName?, fileName?, hbefore, hbefore',
    List.getLast?_append_of_ne_nil _ hne, List.getLast?_append_of_ne_nil _ hne]

end Path

/-! ## Locations of neighbours -/

namespace FileTree

variable {tree : FileTree}

/-- Every entry stands in a directory. -/
def IsRooted (tree : FileTree) : Prop :=
  ∀ entry ∈ tree.entries, tree.entry? entry.1.dropLast = some .directory

instance : Decidable tree.IsRooted := inferInstanceAs (Decidable (∀ entry ∈ tree.entries, _))

theorem mem_entries {location : Location} {entry : Entry} (hne : location ≠ [])
    (h : tree.entry? location = some entry) : (location, entry) ∈ tree.entries := by
  rcases location with _ | ⟨name, rest⟩
  · exact absurd rfl hne
  · obtain ⟨before, after, hsplit, -⟩ := List.lookup_eq_some_iff.1 h
    rw [hsplit]
    simp

theorem mem_entries_of_file {location : Location} {text : Option String}
    (h : tree.entry? location = some (.file text)) : location ∈ tree.entries.map Prod.fst := by
  refine List.mem_map_of_mem (f := Prod.fst) (mem_entries ?_ h)
  rintro rfl
  cases h

theorem IsRooted.entry?_dropLast (h : tree.IsRooted) {location : Location} {entry : Entry}
    (hentry : tree.entry? location = some entry) :
    tree.entry? location.dropLast = some .directory := by
  by_cases hne : location = []
  · subst hne
    rfl
  · exact h _ (mem_entries hne hentry)

theorem step_directory {location : Location} (h : tree.entry? location = some .directory)
    (piece : List Char) : tree.step location piece =
      if Path.isIdle piece then .ok location
      else if piece == ['.', '.'] then .ok location.dropLast
      else if (tree.entry? (location ++ [String.ofList piece])).isSome then
        .ok (location ++ [String.ofList piece])
      else .error .missing := by
  unfold step
  rw [h]
  rfl

theorem directory_of_step {location next : Location} {piece : List Char}
    (h : tree.step location piece = .ok next) : tree.entry? location = some .directory := by
  unfold step at h
  split at h
  · cases h
  · cases h
  · assumption

theorem step_idle {location next : Location} {piece : List Char} (hpiece : Path.isIdle piece)
    (h : tree.step location piece = .ok next) : next = location := by
  rw [step_directory (directory_of_step h), if_pos hpiece] at h
  exact (Except.ok.inj h).symm

theorem foldlM_step_idle {location next : Location} {pieces : List (List Char)}
    (hpieces : ∀ piece ∈ pieces, Path.isIdle piece) (h : pieces.foldlM tree.step location = .ok next) :
    next = location := by
  induction pieces generalizing location with
  | nil => exact (Except.ok.inj h).symm
  | cons piece rest ih =>
    rw [List.foldlM_cons] at h
    rcases hstep : tree.step location piece with _ | middle
    · simp [hstep, bind, Except.bind] at h
    · obtain rfl := step_idle (hpieces piece (List.mem_cons_self ..)) hstep
      rw [hstep] at h
      exact ih (fun piece hp => hpieces piece (List.mem_cons_of_mem _ hp)) h

/-- The last step of a path to a file is a name in the directory of the file. -/
theorem IsRooted.step_file (hrooted : tree.IsRooted) {location target : Location} {piece : List Char}
    {text : Option String} (h : tree.step location piece = .ok target)
    (hfile : tree.entry? target = some (.file text)) :
    Path.isIdle piece = false ∧ target = location ++ [String.ofList piece] := by
  have hdirectory := directory_of_step h
  rw [step_directory hdirectory] at h
  split at h
  · obtain rfl := Except.ok.inj h
    simp [hdirectory] at hfile
  · rename_i hidle
    split at h
    · obtain rfl := Except.ok.inj h
      simp [hrooted.entry?_dropLast hdirectory] at hfile
    · split at h
      · exact ⟨Bool.eq_false_iff.2 hidle, (Except.ok.inj h).symm⟩
      · cases h

/-- Where a path starts. -/
def start (tree : FileTree) (path : Path) : Location := if path.isAbsolute then [] else tree.current

theorem locate_eq_foldlM {path : Path} (h : path.text ≠ "") :
    tree.locate path = path.pieces.foldlM tree.step (tree.start path) := by
  rw [locate, if_neg (by simpa using h)]
  rfl

theorem ne_empty_of_locate {path : Path} {location : Location} (h : tree.locate path = .ok location) :
    path.text ≠ "" := by
  intro hempty
  simp [locate, hempty] at h

/-- The pieces of a path to a file. -/
theorem IsRooted.pieces_of_locate (hrooted : tree.IsRooted) {path : Path} {location : Location}
    {text : Option String} (h : tree.locate path = .ok location)
    (hfile : tree.entry? location = some (.file text)) : ∃ init name,
      path.pieces = init ++ [name] ∧ Path.isIdle name = false ∧
      init.foldlM tree.step (tree.start path) = .ok location.dropLast ∧
      location.getLast? = some (String.ofList name) := by
  obtain ⟨init, name, hpieces⟩ := path.exists_pieces
  rw [locate_eq_foldlM (ne_empty_of_locate h), hpieces, List.foldlM_append] at h
  rcases hinit : init.foldlM tree.step (tree.start path) with _ | directory
  · simp [hinit, bind, Except.bind] at h
  · simp only [hinit, bind, Except.bind, List.foldlM_cons, List.foldlM_nil] at h
    rcases hstep : tree.step directory name with _ | next
    · simp [hstep] at h
    · simp only [hstep, pure, Except.pure, Except.ok.injEq] at h
      subst h
      obtain ⟨hidle, rfl⟩ := hrooted.step_file hstep hfile
      exact ⟨init, name, hpieces, hidle, by simpa using hinit, by simp⟩

/-- A path that is seen from the directory of a file leads from there. -/
theorem IsRooted.locate_beside (hrooted : tree.IsRooted) {path right : Path} {location : Location}
    {text : Option String} (h : tree.locate path = .ok location)
    (hfile : tree.entry? location = some (.file text)) (hright : right.isAbsolute = false)
    (hne : right.text ≠ "") : tree.locate (path.directory.join right) =
      (Text.splitOn '/' right.text.toList).foldlM tree.step location.dropLast := by
  obtain ⟨init, name, hpieces, hname, hinit, -⟩ := hrooted.pieces_of_locate h hfile
  obtain ⟨idle, htrim, hidle⟩ := Path.trimPieces_append path.isAbsolute init
  have hkept : (Path.trimPieces path.isAbsolute init).foldlM tree.step (tree.start path) =
      .ok location.dropLast := by
    rw [← htrim, List.foldlM_append] at hinit
    rcases hkept : (Path.trimPieces path.isAbsolute init).foldlM tree.step (tree.start path) with
      _ | middle
    · simp [hkept, bind, Except.bind] at hinit
    · rw [hkept] at hinit
      rw [foldlM_step_idle hidle hinit]
  obtain ⟨habsolute, hjoined⟩ := Path.pieces_join_directory hpieces hname hright
  have hempty : (path.directory.join right).text ≠ "" := by
    intro hempty
    have htext := Path.text_join path.directory hright
    rw [hempty] at htext
    simp_all
  rw [locate_eq_foldlM hempty, hjoined, List.foldlM_append, start, habsolute, ← start, hkept]
  rfl

/-- A path leads to a file at a location. -/
def FileAt (tree : FileTree) (path : Path) (location : Location) : Prop :=
  tree.locate path = .ok location ∧ ∃ text, tree.entry? location = some (.file text)

variable {path path' : Path} {location location' : Location}

theorem isFile_iff : tree.isFile path = true ↔ ∃ location, tree.FileAt path location := by
  unfold isFile find? FileAt
  rcases tree.locate path with cause | location
  · simp
  · rcases hentry : tree.entry? location with _ | entry
    · simp [hentry]
    · cases entry <;> simp [hentry]

theorem FileAt.unique (h : tree.FileAt path location) (h' : tree.FileAt path location') :
    location = location' := Except.ok.inj (h.1.symm.trans h'.1)

theorem FileAt.of_locate_eq (h : tree.FileAt path location)
    (heq : tree.locate path' = tree.locate path) : tree.FileAt path' location :=
  ⟨heq.trans h.1, h.2⟩

/-- A path seen from the directory of a file leads to the same place from every spelling of the
file. -/
theorem IsRooted.locate_beside_eq (hrooted : tree.IsRooted) (h : tree.FileAt path location)
    (h' : tree.FileAt path' location) {right : Path} (hright : right.isAbsolute = false)
    (hne : right.text ≠ "") :
    tree.locate (path'.directory.join right) = tree.locate (path.directory.join right) := by
  obtain ⟨text, hfile⟩ := h.2
  rw [hrooted.locate_beside h.1 hfile hright hne, hrooted.locate_beside h'.1 hfile hright hne]

end FileTree

/-! ## Imports and texts -/

variable {tree : FileTree} {path path' found : Path} {location : Location}

theorem importTarget_eq (importer : Path) (specifier : String) :
    importTarget importer specifier = importer.directory.join (importRelative specifier) := by
  unfold importTarget importRelative Path.directory
  split <;> simp_all

theorem resolveImport_of_find? {specifier : String} (hdot : specifier.toList.head? = some '.')
    (h : (importCandidates (importTarget path specifier)).find? tree.isFile = some found) :
    resolveImport tree path specifier = .ok (some found) := by
  simp [resolveImport, hdot, h]

theorem resolveImport_eq_some {specifier : String}
    (h : resolveImport tree path specifier = .ok (some found)) :
    specifier.toList.head? = some '.' ∧
      (importCandidates (importTarget path specifier)).find? tree.isFile = some found := by
  unfold resolveImport at h
  split at h
  · cases h
  · rename_i hdot
    refine ⟨by simpa using hdot, ?_⟩
    simp only at h
    split at h
    · rename_i hfound
      rw [hfound]
      exact Except.ok.inj h
    · split at h
      · split at h <;> cases h
      · cases h

theorem resolveImport_isFile {specifier : String}
    (h : resolveImport tree path specifier = .ok (some found)) : tree.isFile found = true :=
  List.find?_some (resolveImport_eq_some h).2

theorem importTarget_of_isAbsolute {specifier : String}
    (h : (importRelative specifier).isAbsolute = true) (importer : Path) :
    importTarget importer specifier = importRelative specifier := by
  simp [importTarget_eq, Path.join, h]

/-- The candidates for a relative import, seen from two spellings of a file, lead to the same
places. -/
theorem FileTree.IsRooted.locate_candidate (hrooted : tree.IsRooted) (h : tree.FileAt path location)
    (h' : tree.FileAt path' location) {right candidate : Path} (hright : right.isAbsolute = false)
    (hcandidate : candidate ∈ importCandidates right) :
    tree.locate (path'.directory.join candidate) = tree.locate (path.directory.join candidate) := by
  obtain ⟨hrelative, hne⟩ := importCandidates_relative hright hcandidate
  exact hrooted.locate_beside_eq h h' hrelative hne

/-- An import leads to the same file from every spelling of the importing file. -/
theorem resolveImport_spelling (hrooted : tree.IsRooted) (h : tree.FileAt path location)
    (h' : tree.FileAt path' location) {specifier : String}
    (hfound : resolveImport tree path specifier = .ok (some found)) :
    ∃ found' target, resolveImport tree path' specifier = .ok (some found') ∧
      tree.FileAt found target ∧ tree.FileAt found' target := by
  obtain ⟨target, htarget⟩ := FileTree.isFile_iff.1 (resolveImport_isFile hfound)
  obtain ⟨hdot, hfind⟩ := resolveImport_eq_some hfound
  by_cases hright : (importRelative specifier).isAbsolute = true
  · rw [importTarget_of_isAbsolute hright] at hfind
    refine ⟨found, target, resolveImport_of_find? hdot ?_, htarget, htarget⟩
    rw [importTarget_of_isAbsolute hright, hfind]
  · have hright := Bool.eq_false_iff.2 hright
    rw [importTarget_eq, importCandidates_join hright, List.find?_map] at hfind
    obtain ⟨candidate, hcandidate, rfl⟩ := Option.map_eq_some_iff.1 hfind
    have hfind' : (importCandidates (importRelative specifier)).find?
        (tree.isFile ∘ path'.directory.join) = some candidate := by
      rw [← hcandidate]
      refine List.find?_congr fun candidate hc => ?_
      simp only [Function.comp_apply, FileTree.isFile, FileTree.find?,
        hrooted.locate_candidate h h' hright hc]
    have hlocate := hrooted.locate_candidate h h' hright (List.mem_of_find?_eq_some hcandidate)
    refine ⟨path'.directory.join candidate, target, resolveImport_of_find? hdot ?_, htarget,
      htarget.of_locate_eq hlocate⟩
    rw [importTarget_eq, importCandidates_join hright, List.find?_map, hfind', Option.map_some]

/-- A specifier that has to lead to a file, and leads to none. -/
def Unresolvable (tree : FileTree) (path : Path) (specifier : String) : Prop :=
  specifier.toList.head? = some '.' ∧
    (∀ candidate ∈ importCandidates (importTarget path specifier), tree.isFile candidate = false) ∧
    ∀ extension, (importTarget path specifier).extension? = some extension →
      extension ∈ scriptExtensions

/-- Just these specifiers are errors: not those of packages, and not those of assets. -/
theorem resolveImport_eq_error_iff {specifier : String} {error : LoadError} :
    resolveImport tree path specifier = .error error ↔
      Unresolvable tree path specifier ∧ error = .unresolved specifier path := by
  unfold resolveImport Unresolvable
  by_cases hdot : specifier.toList.head? = some '.'
  · simp only [hdot, bne_self_eq_false, Bool.false_eq_true, if_false, true_and]
    rcases hfind : (importCandidates (importTarget path specifier)).find? tree.isFile with _ | found
    · have hnone : ∀ candidate ∈ importCandidates (importTarget path specifier),
          tree.isFile candidate = false := by simpa using hfind
      rcases hextension : (importTarget path specifier).extension? with _ | extension
      · constructor
        · exact fun h => ⟨⟨hnone, by simp⟩, (Except.error.inj h).symm⟩
        · rintro ⟨-, rfl⟩
          rfl
      · by_cases hscript : extension ∈ scriptExtensions
        · simp only [List.contains_iff_mem, hscript, if_true, Option.some.injEq]
          constructor
          · exact fun h => ⟨⟨hnone, fun _ heq => heq ▸ hscript⟩, (Except.error.inj h).symm⟩
          · rintro ⟨-, rfl⟩
            rfl
        · simp [hscript]
    · have hmem := List.mem_of_find?_eq_some hfind
      have hfile := List.find?_some hfind
      simp only [reduceCtorEq, false_iff, not_and]
      intro h
      simp [h.1 found hmem] at hfile
  · simp [hdot]

/-- A specifier that names no more than the directory of the file it stands in. -/
def NamesDirectory (specifier : String) : Prop :=
  ∀ piece ∈ Text.splitOn '/' (importRelative specifier).text.toList, Path.isIdle piece

/-- Whether a specifier has to lead to a file does not depend on the spelling of the importing file,
if it names more than a directory. -/
theorem unresolvable_spelling (hrooted : tree.IsRooted) (h : tree.FileAt path location)
    (h' : tree.FileAt path' location) {specifier : String} (hnames : ¬ NamesDirectory specifier)
    (hspecifier : Unresolvable tree path specifier) : Unresolvable tree path' specifier := by
  by_cases hright : (importRelative specifier).isAbsolute = true
  · unfold Unresolvable at *
    rwa [importTarget_of_isAbsolute hright] at hspecifier ⊢
  · have hright := Bool.eq_false_iff.2 hright
    obtain ⟨hdot, hnone, hscript⟩ := hspecifier
    rw [importTarget_eq, importCandidates_join hright] at hnone
    refine ⟨hdot, ?_, ?_⟩
    · rw [importTarget_eq, importCandidates_join hright]
      intro joined hjoined
      obtain ⟨candidate, hc, rfl⟩ := List.mem_map.1 hjoined
      have hfile := hnone _ (List.mem_map_of_mem hc)
      simpa only [FileTree.isFile, FileTree.find?, hrooted.locate_candidate h h' hright hc]
        using hfile
    · rw [importTarget_eq, Path.extension?_join hright hnames] at hscript ⊢
      exact hscript

/-- The name of a file decides which language it is written in. -/
theorem variant_of_name (hrooted : tree.IsRooted) (h : tree.FileAt path location) {name : String}
    (hname : location.getLast? = some name) :
    Syntax.Variant.ofPath path.text = Syntax.Variant.ofPath name := by
  obtain ⟨text, hfile⟩ := h.2
  obtain ⟨init, last, hpieces, -, -, hlast⟩ := hrooted.pieces_of_locate h.1 hfile
  obtain rfl : name = String.ofList last := Option.some.inj (hname.symm.trans hlast)
  simp [Syntax.Variant.ofPath, Path.isSuffixOf_text hpieces]

theorem variant_spelling (hrooted : tree.IsRooted) (h : tree.FileAt path location)
    (h' : tree.FileAt path' location) :
    Syntax.Variant.ofPath path'.text = Syntax.Variant.ofPath path.text := by
  obtain ⟨text, hfile⟩ := h.2
  obtain ⟨-, name, -, -, -, hname⟩ := hrooted.pieces_of_locate h.1 hfile
  rw [variant_of_name hrooted h hname, variant_of_name hrooted h' hname]

/-- A file has the same tree under every spelling. -/
theorem parseFile_spelling (hrooted : tree.IsRooted) (h : tree.FileAt path location)
    (h' : tree.FileAt path' location) {parsed : Syntax.SourceTree}
    (hparsed : parseFile tree path = .ok parsed) : parseFile tree path' = .ok parsed := by
  have hread : tree.read path' = tree.read path := by rw [FileTree.read, FileTree.read, h.1, h'.1]
  unfold parseFile at hparsed ⊢
  rw [hread, variant_spelling hrooted h h']
  rcases htext : tree.read path with cause | text
  · simp [htext] at hparsed
  · rcases hsource : Syntax.SourceTree.parse (Syntax.Variant.ofPath path.text) text with cause | source
    · simp [htext, hsource] at hparsed
    · simpa [htext, hsource] using hparsed

/-- A file that is parsed leads to a file. -/
theorem fileAt_of_parseFile {parsed : Syntax.SourceTree} (h : parseFile tree path = .ok parsed) :
    ∃ location, tree.FileAt path location := by
  unfold parseFile FileTree.read at h
  rcases hlocate : tree.locate path with cause | location
  · simp [hlocate, bind, Except.bind] at h
  · refine ⟨location, hlocate, ?_⟩
    rcases hentry : tree.entry? location with _ | entry
    · simp [hlocate, hentry, bind, Except.bind] at h
    · cases entry with
      | directory => simp [hlocate, hentry, bind, Except.bind] at h
      | file text => exact ⟨text, rfl⟩

end ComponentSchema
