import Mathlib

/-!
# Steps that overwrite

A step overwrites when it writes to some keys of a state contents that do not depend
on the state, and leaves the other keys alone.  Such steps compose, whatever they
write to, and the second of two equal ones changes nothing.
-/

namespace BigtableClient.ProofSupport.Overwrite

variable {σ ι K α : Type*} {view : σ → K → α} {f g : σ → σ}

/-- Seen through `view`, the step writes fixed contents. -/
def Overwrites (view : σ → K → α) (f : σ → σ) : Prop :=
  ∃ written : K → Option α, ∀ s k, view (f s) k = (written k).getD (view s k)

theorem overwrites_id (view : σ → K → α) : Overwrites view fun s => s :=
  ⟨fun _ => none, fun _ _ => rfl⟩

theorem Overwrites.comp (hf : Overwrites view f) (hg : Overwrites view g) :
    Overwrites view fun s => g (f s) := by
  obtain ⟨first, hfirst⟩ := hf
  obtain ⟨second, hsecond⟩ := hg
  refine ⟨fun k => (second k).or (first k), fun s k => ?_⟩
  rw [hsecond, hfirst]
  cases hk : second k with
  | none => simp [hk]
  | some content => simp [hk]

theorem Overwrites.foldl {apply : σ → ι → σ} {steps : List ι}
    (h : ∀ i ∈ steps, Overwrites view fun s => apply s i) :
    Overwrites view fun s => steps.foldl apply s := by
  induction steps with
  | nil => exact overwrites_id view
  | cons i steps ih =>
      have htail := ih fun j hj => h j (List.mem_cons_of_mem _ hj)
      exact (h i List.mem_cons_self).comp htail

/-- What is written twice is written once. -/
theorem Overwrites.idempotent (h : Overwrites view f) (s : σ) : view (f (f s)) = view (f s) := by
  obtain ⟨written, hwritten⟩ := h
  funext k
  rw [hwritten, hwritten]
  cases written k <;> rfl

end BigtableClient.ProofSupport.Overwrite
