import GeoMetadata.Text.Search
import Mathlib.Data.List.Basic

/-!
# The pieces of a text

`Text.splitAt` cuts a text at every separator.  Its pieces are the only texts without a separator
that give the text when separators are put between them (`splitAt_eq_iff`); there are two of them if
one separator parts the text (`splitAt_eq_pair_iff`).  `Text.cutAt` cuts a text at the first
separator only (`cutAt_append_cons`, `eq_append_of_cutAt_eq_some`), and a run of characters of one
kind ends at the first of another (`takeWhile_append_cons`, `dropWhile_append_cons`).
-/

namespace GeoMetadata.Text

variable {separator : Char} {text before rest first piece : List Char} {pieces : List (List Char)}

/-! ## All separators -/

theorem exists_splitAt_eq_cons (separator : Char) (text : List Char) :
    ∃ first pieces, splitAt separator text = first :: pieces :=
  List.exists_cons_of_ne_nil (splitAt_ne_nil separator text)

theorem splitAt_cons_self (separator : Char) (rest : List Char) :
    splitAt separator (separator :: rest) = [] :: splitAt separator rest := by
  rw [splitAt, if_pos rfl]

/-- A text without a separator belongs to the first piece of what follows it. -/
theorem splitAt_append (hfree : separator ∉ before) (hrest : splitAt separator rest = first :: pieces) :
    splitAt separator (before ++ rest) = (before ++ first) :: pieces := by
  induction before with
  | nil => exact hrest
  | cons c before ih =>
      have hc : c ≠ separator := (List.ne_of_not_mem_cons hfree).symm
      rw [List.cons_append, splitAt, if_neg hc, ih (List.not_mem_of_not_mem_cons hfree)]
      rfl

theorem splitAt_of_not_mem (hfree : separator ∉ text) : splitAt separator text = [text] := by
  have hsplit := splitAt_append hfree (rfl : splitAt separator [] = [[]])
  rwa [List.append_nil] at hsplit

/-- A separator parts what is before it from what is after it. -/
theorem splitAt_append_separator (separator : Char) (before rest : List Char) :
    splitAt separator (before ++ separator :: rest) =
      splitAt separator before ++ splitAt separator rest := by
  induction before with
  | nil => simp [splitAt]
  | cons c before ih =>
      obtain ⟨piece, pieces, hpieces⟩ := exists_splitAt_eq_cons separator before
      rw [hpieces] at ih
      rw [List.cons_append, splitAt, splitAt, ih, hpieces]
      split <;> rfl

theorem splitAt_append_cons (hfree : separator ∉ before) :
    splitAt separator (before ++ separator :: rest) = before :: splitAt separator rest := by
  rw [splitAt_append_separator, splitAt_of_not_mem hfree, List.singleton_append]

/-- The pieces of a text are free of the separator. -/
theorem not_mem_of_mem_splitAt (h : piece ∈ splitAt separator text) : separator ∉ piece := by
  induction text generalizing piece with
  | nil =>
      obtain rfl := List.mem_singleton.mp h
      exact List.not_mem_nil
  | cons c rest ih =>
      rw [splitAt] at h
      split at h
      · rcases List.mem_cons.mp h with rfl | h
        · exact List.not_mem_nil
        · exact ih h
      · rename_i hc
        split at h
        · rename_i hnil
          exact absurd hnil (splitAt_ne_nil separator rest)
        · rename_i first others hpieces
          rw [hpieces] at ih
          rcases List.mem_cons.mp h with rfl | h
          · exact List.not_mem_cons_of_ne_of_not_mem (Ne.symm hc) (ih List.mem_cons_self)
          · exact ih (List.mem_cons_of_mem _ h)

/-- The pieces of a text with separators between them are the text. -/
theorem intercalate_splitAt (separator : Char) (text : List Char) :
    [separator].intercalate (splitAt separator text) = text := by
  induction text with
  | nil => rfl
  | cons c rest ih =>
      obtain ⟨piece, pieces, hpieces⟩ := exists_splitAt_eq_cons separator rest
      rw [hpieces] at ih
      rw [splitAt, hpieces]
      split
      · rename_i hc
        rw [List.intercalate_cons_cons, ih, hc]
        rfl
      · cases pieces with
        | nil => simpa using ih
        | cons next others =>
            rw [List.intercalate_cons_cons] at ih ⊢
            rw [← ih]
            rfl

/-- Where texts are put together with separators between them, the pieces are those of each text. -/
theorem splitAt_intercalate_eq_flatMap (hsome : pieces ≠ []) :
    splitAt separator ([separator].intercalate pieces) = pieces.flatMap (splitAt separator) := by
  induction pieces with
  | nil => exact absurd rfl hsome
  | cons piece rest ih =>
      cases rest with
      | nil => rw [List.intercalate_singleton, List.flatMap_singleton]
      | cons next others =>
          rw [List.intercalate_cons_cons, List.append_assoc, List.singleton_append,
            splitAt_append_separator, ih (List.cons_ne_nil _ _)]
          rfl

theorem splitAt_intercalate (hsome : pieces ≠ []) (hfree : ∀ piece ∈ pieces, separator ∉ piece) :
    splitAt separator ([separator].intercalate pieces) = pieces := by
  rw [splitAt_intercalate_eq_flatMap hsome,
    List.flatMap_congr fun piece hpiece => splitAt_of_not_mem (hfree piece hpiece),
    List.flatMap_singleton']

theorem splitAt_eq_iff : splitAt separator text = pieces ↔
    pieces ≠ [] ∧ (∀ piece ∈ pieces, separator ∉ piece) ∧
      text = [separator].intercalate pieces := by
  constructor
  · rintro rfl
    exact ⟨splitAt_ne_nil _ _, fun _ => not_mem_of_mem_splitAt, (intercalate_splitAt _ _).symm⟩
  · rintro ⟨hsome, hfree, rfl⟩
    exact splitAt_intercalate hsome hfree

theorem splitAt_eq_pair_iff : splitAt separator text = [before, rest] ↔
    text = before ++ separator :: rest ∧ separator ∉ before ∧ separator ∉ rest := by
  have hintercalate : [separator].intercalate [before, rest] = before ++ separator :: rest := by
    simp [List.intercalate]
  rw [splitAt_eq_iff, hintercalate, List.forall_mem_cons, List.forall_mem_singleton]
  constructor
  · rintro ⟨-, hfree, htext⟩
    exact ⟨htext, hfree⟩
  · rintro ⟨htext, hfree⟩
    exact ⟨List.cons_ne_nil _ _, hfree, htext⟩

/-- A text with one separator is parted by it. -/
theorem exists_of_count_eq_one (h : text.count separator = 1) :
    ∃ before rest, text = before ++ separator :: rest ∧ separator ∉ before ∧ separator ∉ rest := by
  obtain ⟨before, rest, rfl⟩ := List.append_of_mem (List.count_pos_iff.mp (h ▸ Nat.one_pos))
  rw [List.count_append, List.count_cons_self] at h
  exact ⟨before, rest, rfl, List.count_eq_zero.mp (by omega), List.count_eq_zero.mp (by omega)⟩

/-! ## The first separator -/

theorem cutAt_append_cons (hfree : separator ∉ before) (rest : List Char) :
    cutAt separator (before ++ separator :: rest) = (before, some rest) := by
  induction before with
  | nil => simp [cutAt]
  | cons c before ih =>
      have hc : c ≠ separator := (List.ne_of_not_mem_cons hfree).symm
      rw [List.cons_append, cutAt, if_neg hc, ih (List.not_mem_of_not_mem_cons hfree)]

theorem eq_append_of_cutAt_eq_some {after : List Char}
    (hcut : cutAt separator text = (before, some after)) : text = before ++ separator :: after := by
  induction text generalizing before with
  | nil => simp [cutAt] at hcut
  | cons c rest ih =>
      rw [cutAt] at hcut
      split at hcut
      · rename_i hc
        simp only [Prod.mk.injEq, Option.some.injEq] at hcut
        rw [hc, ← hcut.1, hcut.2, List.nil_append]
      · simp only [Prod.mk.injEq] at hcut
        have hrest : rest = (cutAt separator rest).1 ++ separator :: after := ih (Prod.ext rfl hcut.2)
        rw [← hcut.1, List.cons_append, ← hrest]

/-! ## The first character of another kind -/

section Runs

variable {p : Char → Bool} {c : Char}

theorem takeWhile_append_cons (hall : ∀ d ∈ before, p d = true) (hstop : p c = false) :
    (before ++ c :: rest).takeWhile p = before := by
  rw [List.takeWhile_append_of_pos hall, List.takeWhile_cons_of_neg (by simp [hstop]),
    List.append_nil]

theorem dropWhile_append_cons (hall : ∀ d ∈ before, p d = true) (hstop : p c = false) :
    (before ++ c :: rest).dropWhile p = c :: rest := by
  rw [List.dropWhile_append_of_pos hall, List.dropWhile_cons_of_neg (by simp [hstop])]

end Runs

end GeoMetadata.Text
