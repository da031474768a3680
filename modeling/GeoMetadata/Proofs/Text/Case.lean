import GeoMetadata.Text.Case

/-!
# Lower case is reached at once

Each character of a text in lower case is one that lowering leaves alone wherever it stands
(`Lowered`): it is no capital sigma, whose form goes by its neighbours, and it is its own image.
For the images of the table this comes down to a check of its runs, two at a time: what one run
leads to is not in the other (`CaseRun.avoids`).  So a text that has been lowered stays as it is
(`lower_lower`), and no text is lost on the way (`lower_eq_empty_iff`).
-/

namespace GeoMetadata.Text

/-- Lowering leaves the character alone, whatever stands around it. -/
def Lowered (c : Char) : Prop := c.toNat ≠ 0x3A3 ∧ lowerChar c = [c]

instance (c : Char) : Decidable (Lowered c) := inferInstanceAs (Decidable (_ ∧ _))

/-! ## The table -/

/-- No image of the one run is in the other: they do not overlap, or the images stand between the
members of the other run, of which only every second code point is one. -/
def CaseRun.avoids (run other : CaseRun) : Bool :=
  Nat.blt (run.image + (run.last - run.first)) other.first || Nat.blt other.last run.image ||
    (Nat.beq other.stride 2 && (Nat.beq run.stride 2 || Nat.beq run.first run.last) &&
      Nat.beq ((run.image + other.first) % 2) 1)

/-- No image of the run is a capital letter of ASCII or one of the two characters with forms of
their own. -/
def CaseRun.isPlain (run : CaseRun) : Bool :=
  Nat.ble 0x5B run.image &&
    (Nat.blt (run.image + (run.last - run.first)) 0x130 || Nat.blt 0x130 run.image) &&
    (Nat.blt (run.image + (run.last - run.first)) 0x3A3 || Nat.blt 0x3A3 run.image)

theorem lowerRuns_avoid : lowerRuns.all (fun run => run.isPlain && lowerRuns.all run.avoids) = true := by
  decide +kernel

variable {run other : CaseRun} {c : Char} {n : Nat}

theorem image?_eq_some_iff {m : Nat} : run.image? n = some m ↔
    (run.first ≤ n ∧ n ≤ run.last ∧ (n - run.first) % run.stride = 0) ∧
      run.image + (n - run.first) = m := by
  unfold CaseRun.image?
  split <;> simp [*]

theorem image?_image {m : Nat} (havoids : run.avoids other = true) (h : run.image? n = some m) :
    other.image? m = none := by
  obtain ⟨⟨hfirst, hlast, hstride⟩, rfl⟩ := image?_eq_some_iff.mp h
  rw [CaseRun.image?, if_neg]
  rintro ⟨hlow, hhigh, hmember⟩
  simp only [CaseRun.avoids, Bool.or_eq_true, Bool.and_eq_true, Nat.blt_eq, Nat.beq_eq] at havoids
  rcases havoids with (habove | hbelow) | ⟨⟨hother, hrun⟩, hodd⟩
  · omega
  · omega
  · rw [hother] at hmember
    rcases hrun with hrun | hrun
    · rw [hrun] at hstride
      omega
    · omega

theorem lowered_of_toNat (hcapital : 0x5B ≤ c.toNat) (hdotted : c.toNat ≠ 0x130)
    (hsigma : c.toNat ≠ 0x3A3) (hruns : ∀ run ∈ lowerRuns, run.image? c.toNat = none) :
    Lowered c := by
  refine ⟨hsigma, ?_⟩
  by_cases hsmall : c.toNat < 0x80
  · have hlower : c.toLower = c := by
      refine dif_neg ?_
      rintro ⟨-, hz⟩
      have hz : c.toNat ≤ 0x5A := hz
      omega
    rw [lowerChar, if_pos hsmall, hlower]
  · rw [lowerChar, if_neg hsmall, if_neg hdotted, List.findSome?_eq_none_iff.mpr hruns]

theorem lowered_of_image? (hmem : run ∈ lowerRuns) {m : Nat} (h : run.image? n = some m) :
    Lowered (Char.ofNat m) := by
  obtain ⟨hplain, havoids⟩ := Bool.and_eq_true_iff.mp (List.all_eq_true.mp lowerRuns_avoid run hmem)
  by_cases hvalid : m.isValidChar
  · have hchar : (Char.ofNat m).toNat = m := by
      rw [Char.ofNat, dif_pos hvalid]
      rfl
    obtain ⟨⟨hfirst, hlast, -⟩, rfl⟩ := image?_eq_some_iff.mp h
    simp only [CaseRun.isPlain, Bool.or_eq_true, Bool.and_eq_true, Nat.blt_eq, Nat.ble_eq] at hplain
    refine lowered_of_toNat ?_ ?_ ?_ fun other hother => ?_
    · omega
    · omega
    · omega
    · rw [hchar]
      exact image?_image (List.all_eq_true.mp havoids other hother) h
  · -- The number is no code point, and what stands for it is the null character.
    rw [Char.ofNat, dif_neg hvalid]
    decide

/-! ## Characters -/

theorem lowered_of_mem_lowerChar (hsigma : c.toNat ≠ 0x3A3) :
    ∀ d ∈ lowerChar c, Lowered d := by
  have hascii : ∀ n < 0x80, Lowered (Char.ofNat n).toLower := by decide +kernel
  intro d hd
  by_cases hsmall : c.toNat < 0x80
  · rw [lowerChar, if_pos hsmall, List.mem_singleton] at hd
    rw [hd, ← Char.ofNat_toNat c]
    exact hascii c.toNat hsmall
  · by_cases hdotted : c.toNat = 0x130
    · have hpair : Lowered 'i' ∧ Lowered (Char.ofNat 0x307) := by decide +kernel
      rw [lowerChar, if_neg hsmall, if_pos hdotted, List.mem_cons, List.mem_singleton] at hd
      rcases hd with rfl | rfl
      · exact hpair.1
      · exact hpair.2
    · rw [lowerChar, if_neg hsmall, if_neg hdotted] at hd
      split at hd
      · rename_i m hfound
        obtain ⟨run, hrun, himage⟩ := List.exists_of_findSome?_eq_some hfound
        rw [List.mem_singleton.mp hd]
        exact lowered_of_image? hrun himage
      · rename_i hnone
        rw [List.mem_singleton.mp hd]
        refine ⟨hsigma, ?_⟩
        rw [lowerChar, if_neg hsmall, if_neg hdotted, hnone]

theorem lowerChar_ne_nil (c : Char) : lowerChar c ≠ [] := by
  unfold lowerChar
  split
  · simp
  · split
    · simp
    · split <;> simp

/-! ## Texts -/

theorem lowered_of_mem_lowerAfter (before text : List Char) :
    ∀ d ∈ lowerAfter before text, Lowered d := by
  have hsigmas : Lowered (Char.ofNat 0x3C2) ∧ Lowered (Char.ofNat 0x3C3) := by decide +kernel
  induction text generalizing before with
  | nil => simp [lowerAfter]
  | cons c rest ih =>
      intro d hd
      rw [lowerAfter] at hd
      rcases List.mem_append.mp hd with himage | hrest
      · split at himage
        · split at himage
          · exact List.mem_singleton.mp himage ▸ hsigmas.1
          · exact List.mem_singleton.mp himage ▸ hsigmas.2
        · rename_i hsigma
          exact lowered_of_mem_lowerChar hsigma d himage
      · exact ih (c :: before) d hrest

theorem lowerAfter_of_lowered {text : List Char} (h : ∀ c ∈ text, Lowered c) (before : List Char) :
    lowerAfter before text = text := by
  induction text generalizing before with
  | nil => rfl
  | cons c rest ih =>
      obtain ⟨⟨hsigma, himage⟩, hrest⟩ := List.forall_mem_cons.mp h
      rw [lowerAfter, ih hrest]
      simp only [if_neg hsigma, himage, List.singleton_append]

/-- A text in lower case stays as it is. -/
theorem lower_lower (s : String) : lower (lower s) = lower s := by
  rw [lower, lower, String.toList_ofList, lowerAfter_of_lowered (lowered_of_mem_lowerAfter [] _)]

theorem lower_eq_empty_iff {s : String} : lower s = "" ↔ s = "" := by
  rw [← String.toList_inj, ← @String.toList_inj s, lower, String.toList_ofList]
  cases s.toList with
  | nil => simp [lowerAfter]
  | cons c rest =>
      rw [lowerAfter]
      refine iff_of_false (fun hnil => ?_) (by simp)
      have himage := (List.append_eq_nil_iff.mp hnil).1
      split at himage
      · split at himage <;> cases himage
      · exact lowerChar_ne_nil c himage

end GeoMetadata.Text
