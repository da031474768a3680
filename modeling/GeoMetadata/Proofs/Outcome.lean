import Mathlib.Data.List.Forall2

/-!
# Computations that may fail

What it takes for a computation in steps to give a result, and what the steps have given if it
does.  `Succeeds` forgets the result; it is enough where only the inputs decide on failure.
`FailsWith` says what kind of fault there is if there is one: whatever the steps fail with, the
computation fails with.
-/

namespace GeoMetadata

universe u v w

variable {ε : Type u} {α : Type v} {β : Type w}

/-- The computation gives a result. -/
def Succeeds (e : Except ε α) : Prop := ∃ a, e = .ok a

@[simp] theorem succeeds_ok (a : α) : Succeeds (.ok a : Except ε α) := ⟨a, rfl⟩

@[simp] theorem not_succeeds_error (fault : ε) : ¬ Succeeds (.error fault : Except ε α) :=
  fun ⟨_, h⟩ => nomatch h

theorem exists_error_of_not_succeeds {e : Except ε α} (h : ¬ Succeeds e) :
    ∃ fault, e = .error fault := by
  cases e with
  | ok a => exact absurd (succeeds_ok a) h
  | error fault => exact ⟨fault, rfl⟩

/-- The fault of a computation that gives no result. -/
def faultOf? : Except ε α → Option ε
  | .ok _ => none
  | .error fault => some fault

theorem eq_error_of_faultOf? {e : Except ε α} {fault : ε} (h : faultOf? e = some fault) :
    e = .error fault := by
  cases e <;> simp_all [faultOf?]

theorem succeeds_of_faultOf? {e : Except ε α} (h : faultOf? e = none) : Succeeds e := by
  cases e <;> simp_all [faultOf?]

theorem map_eq_ok_iff {e : Except ε α} {f : α → β} {b : β} :
    e.map f = .ok b ↔ ∃ a, e = .ok a ∧ f a = b := by
  cases e <;> simp [Except.map]

@[simp] theorem succeeds_map {e : Except ε α} {f : α → β} : Succeeds (e.map f) ↔ Succeeds e := by
  cases e <;> simp [Except.map]

/-- If the computation fails, then with a fault of some kind. -/
def FailsWith (kind : ε → Prop) (e : Except ε α) : Prop := ∀ fault, e = .error fault → kind fault

@[simp] theorem failsWith_ok (kind : ε → Prop) (a : α) : FailsWith kind (.ok a : Except ε α) :=
  fun _ h => nomatch h

@[simp] theorem failsWith_error {kind : ε → Prop} {fault : ε} :
    FailsWith kind (.error fault : Except ε α) ↔ kind fault := by
  simp [FailsWith]

theorem FailsWith.imp {kind wider : ε → Prop} {e : Except ε α} (h : FailsWith kind e)
    (hwider : ∀ fault, kind fault → wider fault) : FailsWith wider e :=
  fun fault hfault => hwider fault (h fault hfault)

theorem FailsWith.map {kind : ε → Prop} {e : Except ε α} (h : FailsWith kind e) (f : α → β) :
    FailsWith kind (e.map f) := by
  cases e with
  | ok a => exact failsWith_ok _ _
  | error fault => exact failsWith_error.mpr (h fault rfl)

theorem failsWith_mapError {other : Type w} {kind : other → Prop} {e : Except ε α} {f : ε → other}
    (h : FailsWith (fun fault => kind (f fault)) e) : FailsWith kind (e.mapError f) := by
  cases e with
  | ok a => exact failsWith_ok _ _
  | error fault => exact failsWith_error.mpr (h fault rfl)

theorem mapError_eq_ok_iff {other : Type w} {e : Except ε α} {f : ε → other} {a : α} :
    e.mapError f = .ok a ↔ e = .ok a := by
  cases e <;> simp [Except.mapError]

section Steps

variable {α β : Type v}

theorem bind_eq_ok_iff {e : Except ε α} {f : α → Except ε β} {b : β} :
    e >>= f = .ok b ↔ ∃ a, e = .ok a ∧ f a = .ok b := by
  cases e <;> simp [bind, Except.bind]

theorem succeeds_bind {e : Except ε α} {f : α → Except ε β} :
    Succeeds (e >>= f) ↔ ∃ a, e = .ok a ∧ Succeeds (f a) := by
  cases e <;> simp [bind, Except.bind]

/-- If the further steps do not look at the result of the first, the two can be asked about
apart. -/
theorem succeeds_bind_of_iff {e : Except ε α} {f : α → Except ε β} {p : Prop}
    (hf : ∀ a, e = .ok a → (Succeeds (f a) ↔ p)) :
    Succeeds (e >>= f) ↔ Succeeds e ∧ p := by
  rw [succeeds_bind]
  constructor
  · rintro ⟨a, ha, hrest⟩
    exact ⟨⟨a, ha⟩, (hf a ha).mp hrest⟩
  · rintro ⟨⟨a, ha⟩, hp⟩
    exact ⟨a, ha, (hf a ha).mpr hp⟩

theorem mapError_bind {other : Type w} {e : Except ε α} {f : α → Except ε β} {g : ε → other} :
    (e >>= f).mapError g = e.mapError g >>= fun a => (f a).mapError g := by
  cases e <;> rfl

theorem mapM_eq_ok_iff {f : α → Except ε β} {xs : List α} {ys : List β} :
    xs.mapM f = .ok ys ↔ List.Forall₂ (fun x y => f x = .ok y) xs ys := by
  induction xs generalizing ys with
  | nil => simp [pure, Except.pure, eq_comm]
  | cons x rest ih =>
      rw [List.mapM_cons, bind_eq_ok_iff, List.forall₂_cons_left_iff]
      simp only [bind_eq_ok_iff, ih, pure, Except.pure, Except.ok.injEq]
      constructor
      · rintro ⟨y, hy, ys, hys, rfl⟩
        exact ⟨y, ys, hy, hys, rfl⟩
      · rintro ⟨y, ys, hy, hys, rfl⟩
        exact ⟨y, hy, ys, hys, rfl⟩

theorem succeeds_mapM {f : α → Except ε β} {xs : List α} :
    Succeeds (xs.mapM f) ↔ ∀ x ∈ xs, Succeeds (f x) := by
  induction xs with
  | nil => simp [pure, Except.pure]
  | cons x rest ih =>
      have hrest (y : β) : Succeeds (do let ys ← rest.mapM f; pure (y :: ys)) ↔
          ∀ x ∈ rest, Succeeds (f x) := by
        rw [succeeds_bind_of_iff (p := True) fun _ _ => by simp [pure, Except.pure], ih, and_true]
      rw [List.mapM_cons, succeeds_bind_of_iff fun y _ => hrest y, List.forall_mem_cons]

theorem FailsWith.bind {kind : ε → Prop} {e : Except ε α} {f : α → Except ε β}
    (he : FailsWith kind e) (hf : ∀ a, e = .ok a → FailsWith kind (f a)) :
    FailsWith kind (e >>= f) := by
  cases e with
  | ok a => exact hf a rfl
  | error fault => exact failsWith_error.mpr (he fault rfl)

theorem failsWith_mapM {kind : ε → Prop} {f : α → Except ε β} {xs : List α}
    (h : ∀ x ∈ xs, FailsWith kind (f x)) : FailsWith kind (xs.mapM f) := by
  induction xs with
  | nil => exact failsWith_ok _ _
  | cons x rest ih =>
      obtain ⟨hx, hrest⟩ := List.forall_mem_cons.mp h
      rw [List.mapM_cons]
      exact hx.bind fun _ _ => (ih hrest).bind fun _ _ => failsWith_ok _ _

/-- Steps from state to state fail with some kind of fault exactly if the one does at which they
stop. -/
theorem failsWith_foldlM_iff {kind : ε → Prop} {f : β → α → Except ε β} {b : β} {xs : List α} :
    FailsWith kind (xs.foldlM f b) ↔ ∀ before x after reached, xs = before ++ x :: after →
      before.foldlM f b = .ok reached → FailsWith kind (f reached x) := by
  induction xs generalizing b with
  | nil =>
      refine iff_of_true (failsWith_ok _ _) fun before x after _ hsplit => ?_
      simp at hsplit
  | cons first rest ih =>
      rw [List.foldlM_cons]
      constructor
      · intro h before x after reached hsplit hreached
        cases before with
        | nil =>
            obtain ⟨rfl, rfl⟩ := List.cons.inj hsplit
            obtain rfl := Except.ok.inj hreached
            intro fault hfault
            exact h fault (by rw [hfault]; rfl)
        | cons y before =>
            obtain ⟨rfl, rfl⟩ := List.cons.inj hsplit
            rw [List.foldlM_cons, bind_eq_ok_iff] at hreached
            obtain ⟨next, hnext, hreached⟩ := hreached
            rw [hnext] at h
            exact ih.mp h before x after reached rfl hreached
      · intro h
        refine FailsWith.bind (h [] first rest b rfl rfl) fun next hnext => ?_
        refine ih.mpr fun before x after reached hsplit hreached => ?_
        refine h (first :: before) x after reached (by rw [hsplit]; rfl) ?_
        rw [List.foldlM_cons, hnext]
        exact hreached

end Steps

/-- What stands in one of two related lists is related to something in the other. -/
theorem exists_mem_of_forall₂ {α β : Type} {R : α → β → Prop} {as : List α} {bs : List β} {a : α}
    (h : List.Forall₂ R as bs) (ha : a ∈ as) : ∃ b ∈ bs, R a b := by
  induction h with
  | nil => simp at ha
  | @cons first b as bs hfirst _ ih =>
      rcases List.mem_cons.mp ha with rfl | ha
      · exact ⟨b, List.mem_cons_self, hfirst⟩
      · obtain ⟨b, hb, hrelated⟩ := ih ha
        exact ⟨b, List.mem_cons_of_mem _ hb, hrelated⟩

/-- A list is mapped to nothing exactly if one of its members is. -/
theorem mapM_eq_none_iff {α β : Type} {f : α → Option β} {xs : List α} :
    xs.mapM f = none ↔ ∃ x ∈ xs, f x = none := by
  induction xs with
  | nil => simp [pure]
  | cons x rest ih =>
      rw [List.mapM_cons, List.exists_mem_cons_iff, ← ih]
      cases f x <;> cases rest.mapM f <;> simp [pure]

end GeoMetadata
