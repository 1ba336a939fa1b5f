import ComponentSchema.Text.Classes
import Mathlib.Data.List.Basic

/-!
# Pieces between separators

A text is cut at every separator, so a piece holds none, and pieces that hold none are found again
in a text that has a separator after each of them. Put together, the pieces have a separator between
any two.
-/
namespace ComponentSchema.Text

variable {separator : Char} {text : List Char}

theorem splitOn_ne_nil (separator : Char) (text : List Char) : splitOn separator text ≠ [] := by
  cases text with
  | nil => simp [splitOn]
  | cons c rest =>
    rw [splitOn]
    split
    · simp
    · split <;> simp

theorem splitOn_cons_of_ne {c : Char} (h : c ≠ separator) {first : List Char}
    {others : List (List Char)} (hrest : splitOn separator text = first :: others) :
    splitOn separator (c :: text) = (c :: first) :: others := by
  rw [splitOn, if_neg (by simpa using h), hrest]

theorem notMem_of_mem_splitOn {piece : List Char} (h : piece ∈ splitOn separator text) :
    separator ∉ piece := by
  induction text generalizing piece with
  | nil =>
    rw [splitOn, List.mem_singleton] at h
    simp [h]
  | cons c rest ih =>
    by_cases hc : c = separator
    · rw [splitOn, if_pos (by simpa using hc)] at h
      rcases List.mem_cons.1 h with rfl | h
      · simp
      · exact ih h
    · rcases hrest : splitOn separator rest with _ | ⟨first, others⟩
      · exact absurd hrest (splitOn_ne_nil separator rest)
      · rw [hrest] at ih
        rw [splitOn_cons_of_ne hc hrest] at h
        rcases List.mem_cons.1 h with rfl | h
        · have hfirst := ih (List.mem_cons_self ..)
          simpa [hfirst] using Ne.symm hc
        · exact ih (List.mem_cons_of_mem _ h)

/-- The pieces before a separator, and the pieces after it. -/
theorem splitOn_append_separator (before after : List Char) :
    splitOn separator (before ++ separator :: after) =
      splitOn separator before ++ splitOn separator after := by
  induction before with
  | nil => simp [splitOn]
  | cons c rest ih =>
    by_cases hc : c = separator
    · rw [List.cons_append, splitOn, splitOn, if_pos (by simpa using hc), if_pos (by simpa using hc), ih]
      rfl
    · rcases hrest : splitOn separator rest with _ | ⟨first, others⟩
      · exact absurd hrest (splitOn_ne_nil separator rest)
      · rw [hrest, List.cons_append] at ih
        rw [List.cons_append, splitOn_cons_of_ne hc ih, splitOn_cons_of_ne hc hrest, List.cons_append]

theorem splitOn_eq_singleton {piece : List Char} (h : separator ∉ piece) :
    splitOn separator piece = [piece] := by
  induction piece with
  | nil => rfl
  | cons c rest ih =>
    rw [List.mem_cons, not_or] at h
    exact splitOn_cons_of_ne (Ne.symm h.1) (ih h.2)

/-- Pieces without separators, with a separator after each of them, are the first pieces. -/
theorem splitOn_flatMap_append {pieces : List (List Char)} (h : ∀ piece ∈ pieces, separator ∉ piece)
    (text : List Char) :
    splitOn separator (pieces.flatMap (· ++ [separator]) ++ text) = pieces ++ splitOn separator text := by
  induction pieces with
  | nil => rfl
  | cons first rest ih =>
    have hrest := ih fun piece hp => h piece (List.mem_cons_of_mem _ hp)
    have hsplit : (first :: rest).flatMap (· ++ [separator]) ++ text =
        first ++ separator :: (rest.flatMap (· ++ [separator]) ++ text) := by
      simp
    rw [hsplit, splitOn_append_separator, splitOn_eq_singleton (h first (List.mem_cons_self ..)), hrest]
    rfl

/-! ## Texts put together -/

/-- A separator after each piece but the last. -/
theorem intercalate_concat (separator : Char) (pieces : List (List Char)) (last : List Char) :
    [separator].intercalate (pieces ++ [last]) = pieces.flatMap (· ++ [separator]) ++ last := by
  induction pieces with
  | nil => exact List.intercalate_singleton
  | cons first rest ih =>
    rw [List.cons_append, List.intercalate_cons_of_ne_nil (by simp), ih]
    simp

/-- A separator before each piece but the first. -/
theorem intercalate_cons (separator : Char) (first : List Char) (rest : List (List Char)) :
    [separator].intercalate (first :: rest) = first ++ rest.flatMap (separator :: ·) := by
  induction rest generalizing first with
  | nil => simp [List.intercalate_singleton]
  | cons second others ih =>
    rw [List.intercalate_cons_cons, ih]
    simp

end ComponentSchema.Text
