import GeoMetadata.Text.Search
import Mathlib.Data.List.Basic

/-!
# Finding and replacing

`Text.contains` finds what stands somewhere in a text (`contains_eq_true_iff`).  A character that
does not occur in what is looked for parts a text into two texts that are searched apart
(`contains_append_cons`), and so do separators made of such characters (`contains_intercalate`).

`Text.replaceAll` puts the same new text at the same places, whatever the new text is: a text is
made of pieces with the part between them, and of these pieces with the new text between them the
result is made (`exists_replaceAll_eq`).  The scan leaves no part within a piece.  So no part is
within the result either if the new text shares no character with it (`not_infix_replaceAll`), and
the new text can be told from the result (`replaceAll_injective`): a longer one leaves a longer
result.
-/

namespace GeoMetadata.Text

variable {part new text rest : List Char} {c separator : Char}

/-! ## Finding -/

theorem contains_eq_true_iff : contains part text = true ↔ part <:+: text := by
  induction text with
  | nil => rw [contains, List.isEmpty_iff, List.infix_nil]
  | cons c rest ih =>
      rw [contains, Bool.or_eq_true, List.isPrefixOf_iff_prefix, ih, List.infix_cons_iff]

theorem contains_eq_false_iff : contains part text = false ↔ ¬ part <:+: text := by
  rw [← contains_eq_true_iff, Bool.not_eq_true]

theorem contains_eq_false (hpart : c ∈ part) (htext : c ∉ text) : contains part text = false :=
  contains_eq_false_iff.mpr fun h => htext (h.subset hpart)

/-- What has no separator begins before the separator and ends before it. -/
theorem isPrefixOf_append_cons (hfree : separator ∉ part) (before rest : List Char) :
    part.isPrefixOf (before ++ separator :: rest) = part.isPrefixOf before := by
  induction part generalizing before with
  | nil => rfl
  | cons p part ih =>
      have hp : (p == separator) = false :=
        beq_eq_false_iff_ne.mpr (List.ne_of_not_mem_cons hfree).symm
      have hfree : separator ∉ part := List.not_mem_of_not_mem_cons hfree
      cases before with
      | nil =>
          rw [List.nil_append, List.isPrefixOf_cons_cons, hp]
          rfl
      | cons b before =>
          rw [List.cons_append, List.isPrefixOf_cons_cons, List.isPrefixOf_cons_cons, ih hfree]

theorem contains_append_cons (hfree : separator ∉ part) (before rest : List Char) :
    contains part (before ++ separator :: rest) = (contains part before || contains part rest) := by
  induction before with
  | nil =>
      have hhead := isPrefixOf_append_cons hfree [] rest
      rw [List.nil_append] at hhead ⊢
      rw [contains, contains, hhead]
      cases part <;> rfl
  | cons b before ih =>
      have hhead := isPrefixOf_append_cons hfree (b :: before) rest
      rw [List.cons_append] at hhead ⊢
      rw [contains, contains, hhead, ih, Bool.or_assoc]

theorem contains_nil (hsome : part ≠ []) : contains part [] = false :=
  List.isEmpty_eq_false_iff.mpr hsome

/-- A separator that shares no character with a part keeps what is before it and after it apart. -/
theorem contains_append_append {separator : List Char} (hsome : part ≠ [])
    (hseparator : separator ≠ []) (hfree : ∀ c ∈ separator, c ∉ part) (before rest : List Char) :
    contains part (before ++ (separator ++ rest)) = (contains part before || contains part rest) := by
  induction separator generalizing before with
  | nil => exact absurd rfl hseparator
  | cons first separator ih =>
      obtain ⟨hfirst, hothers⟩ := List.forall_mem_cons.mp hfree
      rw [List.cons_append, contains_append_cons hfirst]
      cases separator with
      | nil => rfl
      | cons next others =>
          have hrest := ih (List.cons_ne_nil _ _) hothers []
          rw [List.nil_append, contains_nil hsome, Bool.false_or] at hrest
          rw [hrest]

theorem contains_intercalate {separator : List Char} (hsome : part ≠ []) (hseparator : separator ≠ [])
    (hfree : ∀ c ∈ separator, c ∉ part) (pieces : List (List Char)) :
    contains part (separator.intercalate pieces) = pieces.any (contains part) := by
  induction pieces with
  | nil => exact contains_nil hsome
  | cons piece pieces ih =>
      cases pieces with
      | nil => rw [List.intercalate_singleton, List.any_cons, List.any_nil, Bool.or_false]
      | cons next others =>
          rw [List.intercalate_cons_cons, List.append_assoc,
            contains_append_append hsome hseparator hfree, ih]
          rfl

/-! ## Pieces with a text between them -/

theorem prefix_intercalate (separator piece : List Char) (pieces : List (List Char)) :
    piece <+: separator.intercalate (piece :: pieces) := by
  cases pieces with
  | nil => exact List.intercalate_singleton ▸ List.prefix_rfl
  | cons next others =>
      rw [List.intercalate_cons_cons, List.append_assoc]
      exact List.prefix_append _ _

theorem length_intercalate (separator piece : List Char) (pieces : List (List Char)) :
    (separator.intercalate (piece :: pieces)).length =
      (piece :: pieces).flatten.length + pieces.length * separator.length := by
  induction pieces generalizing piece with
  | nil => simp
  | cons next others ih =>
      rw [List.intercalate_cons_cons, List.length_append, List.length_append, ih next,
        List.flatten_cons (l := piece), List.length_append, List.length_cons, Nat.succ_mul]
      omega

/-! ## Replacing -/

theorem replaceFrom_skip (part new passed rest : List Char) :
    replaceFrom part new passed.length (passed ++ rest) = replaceFrom part new 0 rest := by
  induction passed with
  | nil => rfl
  | cons c passed ih => exact ih

theorem replaceAll_append_self (hsome : part ≠ []) (new rest : List Char) :
    replaceAll part new (part ++ rest) = new ++ replaceAll part new rest := by
  obtain ⟨c, passed, rfl⟩ := List.exists_cons_of_ne_nil hsome
  have hfirst : (c :: passed).isPrefixOf (c :: (passed ++ rest)) = true :=
    List.isPrefixOf_iff_prefix.mpr (List.prefix_append (c :: passed) rest)
  rw [replaceAll, List.cons_append, replaceFrom, if_pos ⟨hsome, hfirst⟩]
  exact congrArg (new ++ ·) (replaceFrom_skip (c :: passed) new passed rest)

theorem replaceAll_cons (h : part.isPrefixOf (c :: rest) = false) (new : List Char) :
    replaceAll part new (c :: rest) = c :: replaceAll part new rest := by
  rw [replaceAll, replaceFrom, h, if_neg (by simp)]
  rfl

/-- One more character before a piece completes no part, unless the text starts with the part. -/
theorem not_infix_cons {piece : List Char} (hhead : part.isPrefixOf (c :: rest) = false)
    (hpiece : piece <+: rest) (hfree : ¬ part <:+: piece) : ¬ part <:+: c :: piece := by
  intro hpart
  rcases List.infix_cons_iff.mp hpart with hstart | hpart
  · have hrest : part <+: c :: rest := hstart.trans ((List.prefix_cons_inj c).mpr hpiece)
    rw [List.isPrefixOf_iff_prefix.mpr hrest] at hhead
    cases hhead
  · exact hfree hpart

/-- Whatever the new text is, it comes to stand between the same pieces, and none of them has the
part within it. -/
theorem exists_replaceFrom_eq (hsome : part ≠ []) (skip : Nat) (text : List Char) :
    ∃ piece pieces, text.drop skip = part.intercalate (piece :: pieces) ∧
      (∀ p ∈ piece :: pieces, ¬ part <:+: p) ∧
      ∀ new, replaceFrom part new skip text = new.intercalate (piece :: pieces) := by
  have hnil : ¬ part <:+: [] := fun h => hsome (List.infix_nil.mp h)
  induction text generalizing skip with
  | nil =>
      refine ⟨[], [], List.drop_nil, List.forall_mem_singleton.mpr hnil, fun new => ?_⟩
      cases skip <;> rfl
  | cons c rest ih =>
      cases skip with
      | succ skip => exact ih skip
      | zero =>
          rw [List.drop_zero]
          cases hhead : part.isPrefixOf (c :: rest) with
          | true =>
              -- The part ends the empty piece, and the scan goes on behind it.
              obtain ⟨piece, pieces, hjoined, hfree, hreplaced⟩ := ih (part.length - 1)
              obtain ⟨after, hafter⟩ := List.isPrefixOf_iff_prefix.mp hhead
              have hdrop : rest.drop (part.length - 1) = after := by
                have hlength : part.length - 1 + 1 = part.length :=
                  Nat.sub_add_cancel (List.length_pos_of_ne_nil hsome)
                rw [← List.drop_succ_cons (a := c), hlength, ← hafter, List.drop_left]
              refine ⟨[], piece :: pieces, ?_, List.forall_mem_cons.mpr ⟨hnil, hfree⟩, fun new => ?_⟩
              · rw [List.intercalate_cons_cons, ← hjoined, hdrop, List.nil_append, hafter]
              · rw [replaceFrom, if_pos ⟨hsome, hhead⟩, hreplaced, List.intercalate_cons_cons,
                  List.nil_append]
          | false =>
              obtain ⟨piece, pieces, hjoined, hfree, hreplaced⟩ := ih 0
              obtain ⟨hpiece, hpieces⟩ := List.forall_mem_cons.mp hfree
              rw [List.drop_zero] at hjoined
              have hstart : piece <+: rest := hjoined ▸ prefix_intercalate part piece pieces
              have hfirst := not_infix_cons hhead hstart hpiece
              refine ⟨c :: piece, pieces, ?_, List.forall_mem_cons.mpr ⟨hfirst, hpieces⟩, fun new => ?_⟩
              · rw [List.intercalate_cons_cons_left, ← hjoined]
              · rw [List.intercalate_cons_cons_left, ← hreplaced]
                exact replaceAll_cons hhead new

theorem exists_replaceAll_eq (hsome : part ≠ []) (text : List Char) :
    ∃ piece pieces, text = part.intercalate (piece :: pieces) ∧
      (∀ p ∈ piece :: pieces, ¬ part <:+: p) ∧
      ∀ new, replaceAll part new text = new.intercalate (piece :: pieces) :=
  exists_replaceFrom_eq hsome 0 text

/-- No part is left, nor put together from what is left, if the new text shares no character
with it. -/
theorem not_infix_replaceAll (hsome : part ≠ []) (hnew : new ≠ []) (hfree : ∀ c ∈ new, c ∉ part)
    (text : List Char) : ¬ part <:+: replaceAll part new text := by
  obtain ⟨piece, pieces, -, hpieces, hreplaced⟩ := exists_replaceAll_eq hsome text
  rw [hreplaced, ← contains_eq_false_iff, contains_intercalate hsome hnew hfree, List.any_eq_false]
  intro p hp
  rw [Bool.not_eq_true]
  exact contains_eq_false_iff.mpr (hpieces p hp)

/-- The new text can be told from the result if there is something to replace. -/
theorem replaceAll_injective (hsome : part ≠ []) (hpart : part <:+: text) :
    Function.Injective fun new => replaceAll part new text := by
  obtain ⟨piece, pieces, htext, hfree, hreplaced⟩ := exists_replaceAll_eq hsome text
  cases pieces with
  | nil =>
      rw [List.intercalate_singleton] at htext
      exact absurd (htext ▸ hpart) (hfree piece List.mem_cons_self)
  | cons next others =>
      intro new other heq
      have hjoined : new.intercalate (piece :: next :: others) =
          other.intercalate (piece :: next :: others) := by
        rw [← hreplaced, ← hreplaced]
        exact heq
      -- The results are longer than the pieces by the new text, as many times as it is put in.
      have hlength : new.length = other.length := by
        have hlengths := congrArg List.length hjoined
        rw [length_intercalate, length_intercalate] at hlengths
        exact Nat.eq_of_mul_eq_mul_left (Nat.succ_pos _) (Nat.add_left_cancel hlengths)
      rw [List.intercalate_cons_cons, List.intercalate_cons_cons, List.append_assoc,
        List.append_assoc] at hjoined
      exact (List.append_inj (List.append_cancel_left hjoined) hlength).1

end GeoMetadata.Text
