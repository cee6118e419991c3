import Mathlib

/-!
# Runs of a machine

A machine is a partial step function: it takes one input in a state, or the input
cannot occur there.  A run takes a list of inputs one after the other.
-/

namespace BigtableClient.ProofSupport.Transition

variable {σ ι : Type*} {step : σ → ι → Option σ} {s s' : σ} {i : ι} {is js : List ι}

def run (step : σ → ι → Option σ) : σ → List ι → Option σ
  | s, [] => some s
  | s, i :: is => (step s i).bind fun next => run step next is

@[simp] theorem run_nil (s : σ) : run step s [] = some s := rfl

theorem run_cons_eq_some :
    run step s (i :: is) = some s' ↔ ∃ next, step s i = some next ∧ run step next is = some s' := by
  simp [run, Option.bind_eq_some_iff]

theorem run_append_eq_some :
    run step s (is ++ js) = some s' ↔
      ∃ middle, run step s is = some middle ∧ run step middle js = some s' := by
  induction is generalizing s with
  | nil => simp
  | cons i is ih =>
      simp only [List.cons_append, run_cons_eq_some, ih]
      constructor
      · rintro ⟨next, hstep, middle, his, hjs⟩
        exact ⟨middle, ⟨next, hstep, his⟩, hjs⟩
      · rintro ⟨middle, ⟨next, hstep, his⟩, hjs⟩
        exact ⟨next, hstep, middle, his, hjs⟩

/-- What every step preserves, every run preserves. -/
theorem run_invariant (Inv : σ → Prop)
    (hstep : ∀ s i s', Inv s → step s i = some s' → Inv s') (hs : Inv s)
    (hrun : run step s is = some s') : Inv s' := by
  induction is generalizing s with
  | nil =>
      obtain rfl := Option.some.inj hrun
      exact hs
  | cons i is ih =>
      obtain ⟨next, hnext, hrest⟩ := run_cons_eq_some.1 hrun
      exact ih (hstep s i next hs hnext) hrest

/-- A weight that every step keeps or lowers, and some inputs lower, bounds the number of these
inputs in a run. -/
theorem run_countP_add_le (Inv : σ → Prop) (weight : σ → Nat) (p : ι → Bool)
    (hstep : ∀ s i s', Inv s → step s i = some s' → Inv s')
    (hweight : ∀ s i s', Inv s → step s i = some s' →
      (if p i then 1 else 0) + weight s' ≤ weight s)
    (hs : Inv s) (hrun : run step s is = some s') : is.countP p + weight s' ≤ weight s := by
  induction is generalizing s with
  | nil =>
      obtain rfl := Option.some.inj hrun
      simp
  | cons i is ih =>
      obtain ⟨next, hnext, hrest⟩ := run_cons_eq_some.1 hrun
      have hone := hweight s i next hs hnext
      have hmany := ih (hstep s i next hs hnext) hrest
      rw [List.countP_cons]
      omega

/-- A weight that every step lowers, up to what its input adds, bounds the length of a run. -/
theorem run_length_add_le (Inv : σ → Prop) (weight : σ → Nat) (gain : ι → Nat)
    (hstep : ∀ s i s', Inv s → step s i = some s' → Inv s')
    (hweight : ∀ s i s', Inv s → step s i = some s' → 1 + weight s' ≤ weight s + gain i)
    (hs : Inv s) (hrun : run step s is = some s') :
    is.length + weight s' ≤ weight s + (is.map gain).sum := by
  induction is generalizing s with
  | nil =>
      obtain rfl := Option.some.inj hrun
      simp
  | cons i is ih =>
      obtain ⟨next, hnext, hrest⟩ := run_cons_eq_some.1 hrun
      have hone := hweight s i next hs hnext
      have hmany := ih (hstep s i next hs hnext) hrest
      rw [List.length_cons, List.map_cons, List.sum_cons]
      omega

def Reachable (step : σ → ι → Option σ) (init s : σ) : Prop :=
  ∃ is, run step init is = some s

theorem Reachable.snoc {init : σ} (h : Reachable step init s) (hstep : step s i = some s') :
    Reachable step init s' := by
  obtain ⟨is, hrun⟩ := h
  exact ⟨is ++ [i], run_append_eq_some.2 ⟨s, hrun, run_cons_eq_some.2 ⟨s', hstep, rfl⟩⟩⟩

theorem Reachable.invariant {init : σ} (h : Reachable step init s) (Inv : σ → Prop)
    (hinit : Inv init) (hstep : ∀ s i s', Inv s → step s i = some s' → Inv s') : Inv s := by
  obtain ⟨is, hrun⟩ := h
  exact run_invariant Inv hstep hinit hrun

/-! ## Runs of chosen steps -/

inductive ReachableBy (step : σ → ι → Option σ) (ok : σ → ι → Prop) (init : σ) : σ → Prop
  | start : ReachableBy step ok init init
  | step {s s' : σ} {i : ι} (h : ReachableBy step ok init s) (hok : ok s i)
      (hstep : step s i = some s') : ReachableBy step ok init s'

theorem ReachableBy.invariant {ok : σ → ι → Prop} {init : σ} (h : ReachableBy step ok init s)
    (Inv : σ → Prop) (hinit : Inv init)
    (hstep : ∀ s i s', Inv s → ok s i → step s i = some s' → Inv s') : Inv s := by
  induction h with
  | start => exact hinit
  | step _ hok hnext ih => exact hstep _ _ _ ih hok hnext

theorem ReachableBy.reachable {ok : σ → ι → Prop} {init : σ} (h : ReachableBy step ok init s) :
    Reachable step init s := by
  induction h with
  | start => exact ⟨[], rfl⟩
  | step _ _ hnext ih => exact ih.snoc hnext

def Along (step : σ → ι → Option σ) (ok : σ → ι → Prop) : σ → List ι → Prop
  | _, [] => True
  | s, i :: is => ok s i ∧ ∀ next ∈ step s i, Along step ok next is

/-- When exactly these steps keep a property, and nothing brings it back, it holds at the end of
exactly the runs that take no other steps. -/
theorem run_along_iff {ok : σ → ι → Prop} (Inv good : σ → Prop)
    (hstep : ∀ s i s', Inv s → step s i = some s' → Inv s')
    (hgood : ∀ s i s', Inv s → good s → step s i = some s' → (good s' ↔ ok s i))
    (hlost : ∀ s i s', ¬ good s → step s i = some s' → ¬ good s')
    (hinv : Inv s) (hs : good s) (hrun : run step s is = some s') :
    good s' ↔ Along step ok s is := by
  induction is generalizing s with
  | nil =>
      obtain rfl := Option.some.inj hrun
      exact iff_of_true hs trivial
  | cons i is ih =>
      obtain ⟨next, hnext, hrest⟩ := run_cons_eq_some.1 hrun
      have hone := hgood s i next hinv hs hnext
      by_cases hok : ok s i
      · have hmore := ih (hstep s i next hinv hnext) (hone.2 hok) hrest
        rw [hmore]
        constructor
        · intro halong
          refine ⟨hok, fun other hother => ?_⟩
          obtain rfl := Option.some.inj (hnext.symm.trans hother)
          exact halong
        · exact fun halong => halong.2 next hnext
      · refine iff_of_false ?_ fun halong => hok halong.1
        exact run_invariant (fun s => ¬ good s) hlost (fun hnext => hok (hone.1 hnext)) hrest

/-- A machine that stops before other steps. -/
def guarded (step : σ → ι → Option σ) (ok : σ → ι → Prop) [∀ s i, Decidable (ok s i)] (s : σ)
    (i : ι) : Option σ :=
  if ok s i then step s i else none

theorem reachableBy_of_run {ok : σ → ι → Prop} [∀ s i, Decidable (ok s i)] {init : σ}
    (h : ReachableBy step ok init s) (hrun : run (guarded step ok) s is = some s') :
    ReachableBy step ok init s' := by
  induction is generalizing s with
  | nil =>
      obtain rfl := Option.some.inj hrun
      exact h
  | cons i is ih =>
      obtain ⟨next, hnext, hrest⟩ := run_cons_eq_some.1 hrun
      unfold guarded at hnext
      split_ifs at hnext with hok
      exact ih (h.step hok hnext) hrest

end BigtableClient.ProofSupport.Transition
