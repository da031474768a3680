/-!
# Steps on a state

What a computation in steps on a state ensures (`Ensures`): from a state of one kind on, it gives a
result and a state of another kind, or it fails and leaves a state of a third kind.  There is one
rule for each way to build a computation, and a loop ensures what every round of it keeps.
-/

namespace GeoMetadata

variable {ε σ α β : Type} {pre : σ → Prop} {good : α → σ → Prop} {better : β → σ → Prop}
  {bad : ε → σ → Prop}

/-- From such states on, the step gives such a result and state, or it fails in such a way. -/
def Ensures (pre : σ → Prop) (step : EStateM ε σ α) (good : α → σ → Prop) (bad : ε → σ → Prop) :
    Prop :=
  ∀ s, pre s → match step.run s with
    | .ok a reached => good a reached
    | .error fault reached => bad fault reached

theorem ensures_pure {a : α} (h : ∀ s, pre s → good a s) : Ensures pre (pure a) good bad := h

theorem ensures_throw {fault : ε} (h : ∀ s, pre s → bad fault s) :
    Ensures pre (throw fault : EStateM ε σ α) good bad := h

theorem ensures_get : Ensures pre (get : EStateM ε σ σ) (fun a s => a = s ∧ pre s) bad :=
  fun _ h => ⟨rfl, h⟩

theorem Ensures.imp {finer : α → σ → Prop} {worse : ε → σ → Prop} {step : EStateM ε σ α}
    (h : Ensures pre step good bad) (hgood : ∀ a s, good a s → finer a s)
    (hbad : ∀ fault s, bad fault s → worse fault s) : Ensures pre step finer worse := by
  intro s hs
  have hstep := h s hs
  split at hstep
  · exact hgood _ _ hstep
  · exact hbad _ _ hstep

theorem Ensures.bind {step : EStateM ε σ α} {next : α → EStateM ε σ β}
    (h : Ensures pre step good bad) (hnext : ∀ a, Ensures (good a) (next a) better bad) :
    Ensures pre (step >>= next) better bad := by
  intro s hs
  have hstep := h s hs
  rw [EStateM.run_bind]
  cases hrun : step.run s with
  | ok a reached =>
      rw [hrun] at hstep
      exact hnext a reached hstep
  | error fault reached =>
      rw [hrun] at hstep
      exact hstep

/-- A loop ensures what every round of it keeps. -/
theorem ensures_forIn {xs : List α} {round : α → PUnit → EStateM ε σ (ForInStep PUnit)}
    (h : ∀ x ∈ xs, Ensures pre (round x ⟨⟩) (fun _ => pre) bad) :
    Ensures pre (forIn xs PUnit.unit round) (fun _ => pre) bad := by
  induction xs with
  | nil => exact ensures_pure fun _ hs => hs
  | cons x rest ih =>
      obtain ⟨hx, hrest⟩ := List.forall_mem_cons.mp h
      rw [List.forIn_cons]
      refine hx.bind fun outcome => ?_
      cases outcome with
      | done => exact ensures_pure fun _ hs => hs
      | yield => exact ih hrest

end GeoMetadata
