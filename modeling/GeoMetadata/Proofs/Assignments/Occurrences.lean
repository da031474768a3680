import GeoMetadata.Assignments
import GeoMetadata.Proofs.OrderedMap
import GeoMetadata.Proofs.Path.Filling
import Mathlib.Data.List.Nodup

/-!
# Assigning values to the occurrences of a template

Values are assigned one by one to the paths of consecutive occurrences, and an index that cannot be
put into the template ends this with what is assigned by then in place.  As long as indices have few
enough digits to be written, only the first of them can be at fault: if it is positive, so are all
others.  So the values are assigned all or none (`values_are_assigned_all_or_none`).

What is assigned are the entries of `occurrences`, which are inserted in order (`fst_assignEach`).
Their paths differ if there is a placeholder in the template, since the index can be told from the
path (`eq_of_fill_eq`).
-/

namespace GeoMetadata

namespace Assignments

open GeoMetadata.Path (fill placeholder)
open Number (unwritableMagnitude)

variable {template : String} {start : Int}

/-! ## Occurrences -/

/-- The paths of the occurrences of a template for the indices from `start` on, as far as the
indices can be put into it. -/
def occurrences (template : String) (start : Int) (count : Nat) : List String :=
  ((List.range count).takeWhile fun i : Nat => (fill template (start + i)).isOk).filterMap
    fun i : Nat => (fill template (start + i)).toOption

theorem occurrences_of_error {fault : Path.IndexFault} (h : fill template start = .error fault)
    (count : Nat) : occurrences template start (count + 1) = [] := by
  rw [occurrences, List.range_succ_eq_map, List.takeWhile_cons]
  simp [h, Except.isOk, Except.toBool]

theorem occurrences_of_ok {path : String} (h : fill template start = .ok path) (count : Nat) :
    occurrences template start (count + 1) = path :: occurrences template (start + 1) count := by
  have hnext (i : Nat) : start + ((i : Int) + 1) = start + 1 + i := by omega
  rw [occurrences, List.range_succ_eq_map, List.takeWhile_cons]
  simp [h, Except.isOk, Except.toBool, Except.toOption, List.takeWhile_map, List.filterMap_map,
    occurrences, Function.comp_def, hnext]

/-- There is a path for each index if all of them can be put into the template. -/
theorem forall₂_occurrences {count : Nat} (h : ∀ i < count, Succeeds (fill template (start + i))) :
    List.Forall₂ (fun (i : Nat) path => fill template (start + i) = .ok path) (List.range count)
      (occurrences template start count) := by
  induction count generalizing start with
  | zero => exact .nil
  | succ count ih =>
      have hnext (i : Nat) : start + (i.succ : Nat) = start + 1 + i := by omega
      obtain ⟨path, hpath⟩ := h 0 (Nat.succ_pos count)
      have hfirst : fill template start = .ok path := by simpa using hpath
      rw [List.range_succ_eq_map, occurrences_of_ok hfirst]
      refine .cons hpath (List.forall₂_map_left_iff.mpr ?_)
      simp only [hnext]
      exact ih fun i hi => hnext i ▸ h (i + 1) (Nat.succ_lt_succ hi)

/-- The paths differ if there is a placeholder in the template. -/
theorem nodup_of_forall₂ {count : Nat} {targets : List String}
    (hplaceholder : placeholder <:+: template.toList)
    (h : List.Forall₂ (fun (i : Nat) path => fill template (start + i) = .ok path)
      (List.range count) targets) : targets.Nodup := by
  refine (List.rel_nodup ⟨fun i j path hi hj => ?_, fun i path other hpath hother => ?_⟩ h).mp
    List.nodup_range
  · have heq := Path.eq_of_fill_eq hplaceholder hi hj
    omega
  · rw [hpath] at hother
    exact Except.ok.inj hother

/-- What is assigned are the values with the paths of the occurrences, in order. -/
theorem fst_assignEach (m : Assignments) (values : List String) :
    (m.assignEach template start values).1 =
      m.insertMany ((occurrences template start values.length).zip values) := by
  induction values generalizing m start with
  | nil => rfl
  | cons value rest ih =>
      rw [assignEach, List.length_cons]
      cases hfill : fill template start with
      | error fault =>
          rw [occurrences_of_error hfill]
          rfl
      | ok path =>
          rw [occurrences_of_ok hfill]
          exact ih _

theorem snd_assignEach (m : Assignments) {values : List String}
    (h : ∀ i < values.length, Succeeds (fill template (start + i))) :
    (m.assignEach template start values).2 = none := by
  induction values generalizing m start with
  | nil => rfl
  | cons value rest ih =>
      have hnext (i : Nat) : start + (i.succ : Nat) = start + 1 + i := by omega
      obtain ⟨path, hpath⟩ := h 0 (Nat.succ_pos _)
      have hfirst : fill template start = .ok path := by simpa using hpath
      rw [assignEach, hfirst]
      exact ih _ fun i hi => hnext i ▸ h (i + 1) (Nat.succ_lt_succ hi)

/-! ## All values or none -/

/-- The values are assigned to the targets, and nothing else is changed. -/
structure IsAssigned (before after : Assignments) (targets values : List String) : Prop where
  distinct : targets.Nodup
  /-- Each target has the value that is meant for it. -/
  held : List.Forall₂ (fun path value => after.get? path = some value) targets values
  others : ∀ path, path ∉ targets → after.get? path = before.get? path
  /-- The targets that are new follow the paths that were there, in order. -/
  keys : after.keys = before.keys ++ targets.filter fun path => path ∉ before.keys

theorem isAssigned_insertMany (m : Assignments) {targets values : List String}
    (hdistinct : targets.Nodup) (hlength : targets.length = values.length) :
    IsAssigned m (m.insertMany (targets.zip values)) targets values := by
  have htargets : (targets.zip values).map Prod.fst = targets := List.map_fst_zip hlength.le
  refine ⟨hdistinct, List.forall₂_iff_zip.mpr ⟨hlength, fun hmem => ?_⟩, fun path hpath => ?_, ?_⟩
  · exact OrderedMap.get?_insertMany_of_mem (htargets.symm ▸ hdistinct) hmem m
  · exact OrderedMap.get?_insertMany_of_not_mem (htargets.symm ▸ hpath) m
  · have hold : m.keys.eraseDups = m.keys := eraseDups_eq_self m.nodup
    have hnew : targets.removeAll m.keys = targets.filter fun path => path ∉ m.keys := by
      simp [List.removeAll]
    rw [OrderedMap.keys_insertMany, htargets, List.eraseDups_append, hold, hnew,
      eraseDups_eq_self (hdistinct.filter _)]

/-- With indices that have few enough digits, the values are assigned to the occurrences of a
template all or none, and none exactly if the first index is not positive. -/
theorem values_are_assigned_all_or_none {template : String} {start : Int} {values : List String}
    (hdigits : ∀ i < values.length, (start + i).natAbs < unwritableMagnitude) (m : Assignments) :
    ((∃ index text, (m.assignEach template start values).2 = some (.notPositive index text)) ↔
      values ≠ [] ∧ start ≤ 0) ∧
    (values ≠ [] ∧ start ≤ 0 ∧
        m.assignEach template start values = (m, some (.notPositive start template)) ∨
      (values = [] ∨ 0 < start) ∧ ∃ after, m.assignEach template start values = (after, none) ∧
        (placeholder <:+: template.toList → ∃ targets,
          List.Forall₂ (fun (i : Nat) path => fill template (start + i) = .ok path)
            (List.range values.length) targets ∧ IsAssigned m after targets values)) := by
  by_cases hrefused : values ≠ [] ∧ start ≤ 0
  · obtain ⟨hsome, hstart⟩ := hrefused
    have hfault : m.assignEach template start values = (m, some (.notPositive start template)) := by
      obtain ⟨value, rest, rfl⟩ := List.exists_cons_of_ne_nil hsome
      have hfirst : start.natAbs < unwritableMagnitude := by simpa using hdigits 0 (Nat.succ_pos _)
      rw [assignEach, Path.fill_of_nonpos hstart hfirst]
    refine ⟨iff_of_true ⟨start, template, by rw [hfault]⟩ ⟨hsome, hstart⟩, .inl ⟨hsome, hstart, hfault⟩⟩
  · have hpositive : values = [] ∨ 0 < start := by
      by_cases hnil : values = []
      · exact .inl hnil
      · exact .inr (Int.not_le.mp fun hstart => hrefused ⟨hnil, hstart⟩)
    have hsucceeds : ∀ i < values.length, Succeeds (fill template (start + i)) := by
      intro i hi
      have hstart : 0 < start := hpositive.resolve_left fun hnil => by simp [hnil] at hi
      exact ⟨_, Path.fill_eq_ok_iff.mpr ⟨by omega, hdigits i hi, rfl⟩⟩
    have hnone := snd_assignEach m hsucceeds
    have hpaths := forall₂_occurrences hsucceeds
    refine ⟨iff_of_false ?_ hrefused, .inr ⟨hpositive, (m.assignEach template start values).1,
      Prod.ext rfl hnone, fun hplaceholder => ?_⟩⟩
    · rintro ⟨index, text, hfault⟩
      rw [hnone] at hfault
      cases hfault
    · have hlength := hpaths.length_eq
      rw [List.length_range] at hlength
      rw [fst_assignEach]
      exact ⟨_, hpaths, isAssigned_insertMany m (nodup_of_forall₂ hplaceholder hpaths) hlength.symm⟩

/-- Two paths with values, one of which is an occurrence of `sampleTemplate`. -/
def sampleAssignments : Assignments := .ofList [("/r/a[2]/b[2]", "old"), ("/r/c", "kept")]

/-- A template with two placeholders. -/
def sampleTemplate : String := "/r/a[%index%]/b[%index%]"

theorem sample_values_are_assigned_all_or_none :
    (∀ i < ["x", "y", "z"].length, ((1 : Int) + (i : Nat)).natAbs < unwritableMagnitude) ∧
    ∃ after, sampleAssignments.assignEach sampleTemplate 1 ["x", "y", "z"] = (after, none) ∧
      ∃ targets, List.Forall₂ (fun (i : Nat) path => fill sampleTemplate (1 + i) = .ok path)
        (List.range 3) targets ∧ IsAssigned sampleAssignments after targets ["x", "y", "z"] := by
  have hdigits : ∀ i < ["x", "y", "z"].length,
      ((1 : Int) + (i : Nat)).natAbs < unwritableMagnitude := by
    intro i hi
    have hthree : i < 3 := hi
    have hten := Number.ten_le_unwritableMagnitude
    omega
  have hplaceholder : placeholder <:+: sampleTemplate.toList :=
    Text.contains_eq_true_iff.mp (by decide)
  refine ⟨hdigits, ?_⟩
  rcases (values_are_assigned_all_or_none hdigits sampleAssignments).2 with
    ⟨-, hstart, -⟩ | ⟨-, after, hafter, hassigned⟩
  · exact absurd hstart (by decide)
  · exact ⟨after, hafter, hassigned hplaceholder⟩

end Assignments

end GeoMetadata
