import BigtableClient.ProofSupport.Transition

/-!
# Runs over a clock

A machine some of whose inputs read a clock.  In a run over a clock every input is
taken at one instant, the instants never go back, and whoever was put to sleep is not
woken before the time is up.
-/

namespace BigtableClient.ProofSupport.Clock

open ProofSupport.Transition

/-- How the inputs of a machine use the clock. -/
structure ClockedMachine (σ ι κ : Type*) where
  step : σ → ι → Option σ
  /-- every clock reading in the input is this instant -/
  reads : ι → Nat → Bool
  /-- whose sleep is over with the input -/
  wakes : ι → Option κ
  /-- who falls asleep with the input, which led to this state, and for how long -/
  sleeps : ι → σ → Option (κ × Nat)

structure Timed (σ κ : Type*) where
  state : σ
  now : Nat
  /-- when a sleep can be over at the earliest -/
  wakeAt : κ → Nat

def Timed.start {σ κ : Type*} (state : σ) (now : Nat) : Timed σ κ where
  state := state
  now := now
  wakeAt := fun _ => now

namespace ClockedMachine

variable {σ ι κ : Type*} [DecidableEq κ] (machine : ClockedMachine σ ι κ)
  {timed timed' : Timed σ κ} {input : ι} {now : Nat}

def setAlarm (wakeAt : κ → Nat) (now : Nat) : Option (κ × Nat) → κ → Nat
  | none => wakeAt
  | some (sleeper, delay) => Function.update wakeAt sleeper (now + delay)

def tick (timed : Timed σ κ) (input : Nat × ι) : Option (Timed σ κ) :=
  if timed.now ≤ input.1 ∧ machine.reads input.2 input.1 ∧
      ∀ sleeper ∈ machine.wakes input.2, timed.wakeAt sleeper ≤ input.1 then
    (machine.step timed.state input.2).map fun next =>
      { state := next
        now := input.1
        wakeAt := setAlarm timed.wakeAt input.1 (machine.sleeps input.2 next) }
  else
    none

variable {machine}

structure Ticks (machine : ClockedMachine σ ι κ) (timed : Timed σ κ) (now : Nat) (input : ι)
    (timed' : Timed σ κ) : Prop where
  now_le : timed.now ≤ now
  now_eq : timed'.now = now
  reads : machine.reads input now
  wakes : ∀ sleeper, machine.wakes input = some sleeper → timed.wakeAt sleeper ≤ now
  step : machine.step timed.state input = some timed'.state
  asleep : ∀ sleeper delay, machine.sleeps input timed'.state = some (sleeper, delay) →
    timed'.wakeAt sleeper = now + delay
  others : ∀ sleeper, (∀ delay, machine.sleeps input timed'.state ≠ some (sleeper, delay)) →
    timed'.wakeAt sleeper = timed.wakeAt sleeper

theorem ticks_of_tick (h : machine.tick timed (now, input) = some timed') :
    machine.Ticks timed now input timed' := by
  unfold tick at h
  split_ifs at h with hguard
  obtain ⟨hnow, hreads, hwakes⟩ := hguard
  obtain ⟨next, hstep, rfl⟩ := Option.map_eq_some_iff.1 h
  refine ⟨hnow, rfl, hreads, hwakes, hstep, fun sleeper delay hsleeps => ?_,
    fun sleeper hnone => ?_⟩
  · show setAlarm timed.wakeAt now (machine.sleeps input next) sleeper = _
    rw [show machine.sleeps input next = some (sleeper, delay) from hsleeps]
    exact Function.update_self _ _ _
  · show setAlarm timed.wakeAt now (machine.sleeps input next) sleeper = _
    cases hsleeps : machine.sleeps input next with
    | none => rfl
    | some sleep =>
        obtain ⟨other, delay⟩ := sleep
        refine Function.update_of_ne ?_ _ _
        rintro rfl
        exact hnone delay hsleeps

/-! ## Runs -/

/-- From here on, nothing of this kind happens before the bound. -/
def NotBefore (machine : ClockedMachine σ ι κ) (Acts : σ → σ → Prop) (bound : Nat)
    (timed : Timed σ κ) : Prop :=
  ∀ late final now input, Reachable machine.tick timed late →
    machine.tick late (now, input) = some final → Acts late.state final.state → bound ≤ now

section Sleep

/-! ## Sleeping

A party that sleeps does nothing before it is woken, and one that is done does nothing more. -/

variable {Acts : σ → σ → Prop} (Asleep Over : σ → Prop) (sleeper : κ) {bound : Nat}

def Rests (bound : Nat) (timed : Timed σ κ) : Prop :=
  Over timed.state ∨ (Asleep timed.state ∧ bound ≤ timed.wakeAt sleeper) ∨ bound ≤ timed.now

variable
  (hover : ∀ s i s', Over s → machine.step s i = some s' → Over s' ∧ ¬ Acts s s')
  (hasleep : ∀ s i s', Asleep s → machine.wakes i ≠ some sleeper →
    machine.step s i = some s' → ¬ Acts s s' ∧
      (Over s' ∨ (Asleep s' ∧ ∀ delay, machine.sleeps i s' ≠ some (sleeper, delay))))

include hover hasleep

theorem rests_tick (h : Rests Asleep Over sleeper bound timed)
    (htick : machine.tick timed (now, input) = some timed') :
    Rests Asleep Over sleeper bound timed' := by
  have hticks := ticks_of_tick htick
  rcases h with hdone | ⟨hsleep, hbound⟩ | hbound
  · exact Or.inl (hover _ _ _ hdone hticks.step).1
  · by_cases hwakes : machine.wakes input = some sleeper
    · have hnow := hticks.wakes sleeper hwakes
      refine Or.inr (Or.inr ?_)
      rw [hticks.now_eq]
      omega
    · rcases (hasleep _ _ _ hsleep hwakes hticks.step).2 with hdone | ⟨hstill, hnone⟩
      · exact Or.inl hdone
      · refine Or.inr (Or.inl ⟨hstill, ?_⟩)
        rw [hticks.others sleeper hnone]
        exact hbound
  · refine Or.inr (Or.inr ?_)
    have hnow := hticks.now_le
    rw [hticks.now_eq]
    omega

/-- Whoever sleeps until the bound does nothing before it. -/
theorem notBefore_of_rests (h : Rests Asleep Over sleeper bound timed) :
    machine.NotBefore Acts bound timed := by
  intro late final now input hreach htick hacts
  have hlate := hreach.invariant (Rests Asleep Over sleeper bound) h
    fun _ _ _ hrests hnext => rests_tick Asleep Over sleeper hover hasleep hrests hnext
  have hticks := ticks_of_tick htick
  rcases hlate with hdone | ⟨hsleep, hbound⟩ | hbound
  · exact absurd hacts (hover _ _ _ hdone hticks.step).2
  · by_cases hwakes : machine.wakes input = some sleeper
    · exact Nat.le_trans hbound (hticks.wakes sleeper hwakes)
    · exact absurd hacts (hasleep _ _ _ hsleep hwakes hticks.step).1
  · exact Nat.le_trans hbound hticks.now_le

end Sleep

end ClockedMachine

end BigtableClient.ProofSupport.Clock
