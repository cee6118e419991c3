import Mathlib

/-!
# What callers can observe

An object takes calls one after the other and replies to each.  Two states of it are
indistinguishable when no list of calls gets different replies from them, whatever
the states are made of.
-/

namespace BigtableClient.ProofSupport.Observation

variable {σ ι ρ : Type*}

def replies (call : σ → ι → σ × ρ) : σ → List ι → List ρ
  | _, [] => []
  | s, i :: is => (call s i).2 :: replies call (call s i).1 is

def after (call : σ → ι → σ × ρ) : σ → List ι → σ
  | s, [] => s
  | s, i :: is => after call (call s i).1 is

/-- What every call keeps, every list of calls keeps. -/
theorem after_invariant {call : σ → ι → σ × ρ} (Inv : σ → Prop)
    (hcall : ∀ s i, Inv s → Inv (call s i).1) {s : σ} (hs : Inv s) (is : List ι) :
    Inv (after call s is) := by
  induction is generalizing s with
  | nil => exact hs
  | cons i is ih => exact ih (hcall s i hs)

def Indistinguishable (call : σ → ι → σ × ρ) (s s' : σ) : Prop :=
  ∀ is, replies call s is = replies call s' is

/-- Related states give the same reply, and every call keeps them related. -/
def Bisimulation (call : σ → ι → σ × ρ) (R : σ → σ → Prop) : Prop :=
  ∀ s s' i, R s s' → (call s i).2 = (call s' i).2 ∧ R (call s i).1 (call s' i).1

theorem Bisimulation.indistinguishable {call : σ → ι → σ × ρ} {R : σ → σ → Prop}
    (h : Bisimulation call R) {s s' : σ} (hs : R s s') : Indistinguishable call s s' := by
  intro is
  induction is generalizing s s' with
  | nil => rfl
  | cons i is ih =>
      obtain ⟨hreply, hnext⟩ := h s s' i hs
      rw [replies, replies, hreply, ih hnext]

end BigtableClient.ProofSupport.Observation
