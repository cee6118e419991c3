import BigtableClient.ProofSupport.Clock

/-!
# Machines that are driven by timers

Some things happen before time goes on, and the timers that are set fire at most so
much too late.  What the environment sends comes at its own time: an answer that is
ready goes before a timer that is due.  But as long as none does, a machine that always
has a timer to wait for, up to a bound, is over soon after the bound.
-/

namespace BigtableClient.ProofSupport.Timers

open ProofSupport.Clock ProofSupport.Transition

/-- What a machine waits for, besides its environment. -/
structure Drive (σ ι κ : Type*) where
  /-- something happens before time goes on -/
  urgent : σ → Prop
  /-- a timer is set to this instant -/
  alarm : Timed σ κ → Nat → Prop
  /-- the environment sends it -/
  answer : ι → Bool

variable {σ ι κ : Type*} {drive : Drive σ ι κ} {lag bound : Nat} {timed timed' : Timed σ κ}

/-- Nothing urgent is left behind, and no timer fires too late. -/
structure Prompt (drive : Drive σ ι κ) (lag : Nat) (timed : Timed σ κ) (input : Nat × ι) :
    Prop where
  urgent : drive.urgent timed.state → input.1 ≤ timed.now
  fires : drive.answer input.2 = false → ∀ instant, drive.alarm timed instant →
    input.1 ≤ instant + lag

/-- No answer is ready behind a timer that is set. -/
def NoneBehind (drive : Drive σ ι κ) (lag : Nat) (timed : Timed σ κ) (input : Nat × ι) : Prop :=
  drive.answer input.2 = true → ∀ instant, drive.alarm timed instant → input.1 ≤ instant + lag

def OnTime (drive : Drive σ ι κ) (lag : Nat) (timed : Timed σ κ) (input : Nat × ι) : Prop :=
  Prompt drive lag timed input ∧ NoneBehind drive lag timed input

def Timely (drive : Drive σ ι κ) (lag : Nat) (timed : Timed σ κ) : Prop :=
  ∀ instant, drive.alarm timed instant → timed.now ≤ instant + lag

/-- There is something urgent, or a timer that is set to an instant up to the bound. -/
def Driven (drive : Drive σ ι κ) (bound : Nat) (timed : Timed σ κ) : Prop :=
  drive.urgent timed.state ∨ ∃ instant, drive.alarm timed instant ∧ instant ≤ bound

theorem OnTime.le_alarm {input : Nat × ι} (h : OnTime drive lag timed input) {instant : Nat}
    (halarm : drive.alarm timed instant) : input.1 ≤ instant + lag := by
  cases hanswer : drive.answer input.2 with
  | false => exact h.1.fires hanswer instant halarm
  | true => exact h.2 hanswer instant halarm

theorem OnTime.le_of_driven {input : Nat × ι} (h : OnTime drive lag timed input)
    (hdriven : Driven drive bound timed) (hnow : timed.now ≤ bound + lag) :
    input.1 ≤ bound + lag := by
  rcases hdriven with hurgent | ⟨instant, halarm, hinstant⟩
  · exact (h.1.urgent hurgent).trans hnow
  · exact (h.le_alarm halarm).trans (Nat.add_le_add_right hinstant lag)

section Run

variable [DecidableEq κ] {machine : ClockedMachine σ ι κ} {now : Nat} {input : ι}

/-- A timer that is set is set to an instant to come. -/
theorem timely_tick (htime : OnTime drive lag timed (now, input))
    (htick : machine.tick timed (now, input) = some timed')
    (hset : ∀ instant, drive.alarm timed' instant → drive.alarm timed instant ∨ now ≤ instant) :
    Timely drive lag timed' := by
  intro instant halarm
  rw [(ClockedMachine.ticks_of_tick htick).now_eq]
  rcases hset instant halarm with hold | hnew
  · exact htime.le_alarm hold
  · exact hnew.trans (Nat.le_add_right _ _)

/-- A machine that goes on in time takes no step long after the bound. -/
theorem inTime_of_reachable {init : Timed σ κ} (Inv : Timed σ κ → Prop)
    (hstep : ∀ timed input timed', Inv timed → machine.tick timed input = some timed' → Inv timed')
    (hset : ∀ timed now input timed', Inv timed →
      machine.tick timed (now, input) = some timed' →
      ∀ instant, drive.alarm timed' instant → drive.alarm timed instant ∨ now ≤ instant)
    (hdriven : ∀ timed input timed', Inv timed → machine.tick timed input = some timed' →
      Driven drive bound timed)
    (hinit : Inv init) (htimely : Timely drive lag init) (hnow : init.now ≤ bound + lag)
    (hreach : ReachableBy machine.tick (OnTime drive lag) init timed) :
    Inv timed ∧ Timely drive lag timed ∧ timed.now ≤ bound + lag := by
  induction hreach with
  | start => exact ⟨hinit, htimely, hnow⟩
  | @step before after input _ htime htick ih =>
      obtain ⟨now, input⟩ := input
      obtain ⟨hinv, hbefore, hle⟩ := ih
      refine ⟨hstep _ _ _ hinv htick, ?_, ?_⟩
      · exact timely_tick htime htick (hset _ _ _ _ hinv htick)
      · rw [(ClockedMachine.ticks_of_tick htick).now_eq]
        exact htime.le_of_driven (hdriven _ _ _ hinv htick) hle

/-- Time can always go on: what is urgent happens now, and else the first timer fires. -/
theorem exists_onTime (Own : ι → Prop) (htimely : Timely drive lag timed)
    (hdriven : Driven drive bound timed)
    (hurgent : drive.urgent timed.state →
      ∃ input, Own input ∧ (machine.tick timed (timed.now, input)).isSome)
    (halarm : ∀ instant now, drive.alarm timed instant → timed.now ≤ now → instant ≤ now →
      ∃ input, Own input ∧ (machine.tick timed (now, input)).isSome) :
    ∃ now input, Own input ∧ OnTime drive lag timed (now, input) ∧
      (machine.tick timed (now, input)).isSome := by
  classical
  by_cases hnow : drive.urgent timed.state
  · obtain ⟨input, hown, htick⟩ := hurgent hnow
    exact ⟨timed.now, input, hown, ⟨⟨fun _ => Nat.le_refl _, fun _ => htimely⟩, fun _ => htimely⟩,
      htick⟩
  · have hset : ∃ instant, drive.alarm timed instant := by
      rcases hdriven with hurgent | ⟨instant, halarm, -⟩
      · exact absurd hurgent hnow
      · exact ⟨instant, halarm⟩
    have hfirst := Nat.find_spec hset
    obtain ⟨input, hown, htick⟩ := halarm _ (max timed.now (Nat.find hset)) hfirst
      (Nat.le_max_left _ _) (Nat.le_max_right _ _)
    have hle : ∀ instant, drive.alarm timed instant →
        max timed.now (Nat.find hset) ≤ instant + lag := by
      intro instant hinstant
      have hmin := Nat.find_min' hset hinstant
      have hbehind := htimely instant hinstant
      omega
    exact ⟨_, input, hown, ⟨⟨fun hurgent => absurd hurgent hnow, fun _ => hle⟩, fun _ => hle⟩,
      htick⟩

end Run

end BigtableClient.ProofSupport.Timers
