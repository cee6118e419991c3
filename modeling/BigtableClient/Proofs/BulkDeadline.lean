import BigtableClient.ProofSupport.Timers
import BigtableClient.Proofs.Outcome
import BigtableClient.Proofs.Pacing
import BigtableClient.Proofs.Resume

/-!
# The deadline of a bulk mutation

Every await point of a batch is guarded by a timer that is set to the deadline of the
operation at the latest.  So while timers fire in time, no answer is ready behind one
and the window is filled at once, a bulk mutation is over soon after its deadline.
-/

namespace BigtableClient

open ProofSupport.Clock ProofSupport.Timers ProofSupport.Transition

/-! ## Timers of one batch -/

namespace BatchRun

variable {codec : Codec} {run run' : BatchRun} {shared shared' : OperationState}
  {input : BatchInput} {now wakeAt wakeAt' : Instant}

def attemptDeadline? (run : BatchRun) : Option Instant :=
  match run.phase with
  | .calling _ deadline _ _ => some deadline
  | .streaming _ deadline _ _ _ => some deadline
  | _ => none

/-- When the timer at the await point of the batch fires, if its sleep is over at that instant. -/
def alarm? (wakeAt : Instant) (run : BatchRun) : Option Instant :=
  match run.phase with
  | .sleeping _ => some (min wakeAt run.operation.deadline)
  | _ => run.attemptDeadline?

theorem le_attemptDeadline {operation : BatchOperation} (h : now ≤ operation.deadline) :
    now ≤ operation.attemptDeadline now := by
  unfold BatchOperation.attemptDeadline Instant.checkedAdd
  split_ifs
  · exact le_min (Nat.le_add_right _ _) h
  · exact h

theorem alarm?_of_attemptDeadline? (wakeAt : Instant) {deadline : Instant}
    (h : run.attemptDeadline? = some deadline) : run.alarm? wakeAt = some deadline := by
  unfold alarm?
  cases hphase : run.phase with
  | sleeping delay =>
      rw [attemptDeadline?, hphase] at h
      cases h
  | _ => exact h

theorem le_alarm?_loop {turn : AttemptTurn} (hturn : turn.isAt now) {instant : Instant}
    (halarm : (run.loop codec shared turn).1.alarm? wakeAt = some instant) : now ≤ instant := by
  obtain ⟨htop, harm, -, -⟩ := of_decide_eq_true hturn
  unfold loop at halarm
  rw [call_eq] at halarm
  split_ifs at halarm with hpending hlate htakes
  · cases halarm
  · cases halarm
  · have hdeadline : (run.issue shared turn).1.alarm? wakeAt =
        some (run.operation.attemptDeadline turn.arm) := rfl
    obtain rfl := Option.some.inj (hdeadline.symm.trans halarm)
    rw [harm]
    rw [htop, ge_iff_le, not_le] at hlate
    exact le_attemptDeadline hlate.le
  · cases halarm

/-- A sleep begins before the deadline, and so does the time it is guarded by. -/
theorem le_alarm?_reschedule {outcome : AttemptOutcome} {turn : RetryTurn} (hturn : turn.now = now)
    (hphase : run.phase = .finished)
    (hwake : ∀ delay, (run.reschedule codec shared outcome turn).1.phase = .sleeping delay →
      now ≤ wakeAt)
    {instant : Instant}
    (halarm : (run.reschedule codec shared outcome turn).1.alarm? wakeAt = some instant) :
    now ≤ instant := by
  rw [fst_reschedule] at halarm hwake
  by_cases hpending : run.operation.pending = []
  · rw [if_pos hpending, alarm?, hphase, attemptDeadline?, hphase] at halarm
    cases halarm
  · rw [if_neg hpending] at halarm hwake
    cases hbackoff : backoff codec run.operation.options.retry
        (((run.operation.pending.map PendingEntry.attempts).max?).getD 1) turn.draw with
    | none =>
        rw [hbackoff] at halarm
        cases halarm
    | some drawn =>
        rw [hbackoff] at halarm hwake
        dsimp only at halarm hwake
        split_ifs at halarm hwake with hlong
        · cases halarm
        · obtain rfl := Option.some.inj halarm
          rw [hturn, not_le] at hlong
          refine le_min (hwake _ rfl) ?_
          exact (Nat.lt_of_sub_pos (Nat.zero_lt_of_lt hlong)).le

theorem underWay_of_isResting (h : run.phase.isResting) : run.underWay = none := by
  unfold underWay
  cases hphase : run.phase with
  | calling current deadline telemetry attempt =>
      rw [hphase] at h
      cases h
  | streaming current deadline telemetry attempt progress =>
      rw [hphase] at h
      cases h
  | _ => rfl

/-- A timer that a step leaves behind was set before, or is set to an instant to come. -/
theorem alarm?_step (wakeAt : Instant) (hat : input.isAt now)
    (h : run.step codec shared input = some (run', shared'))
    (hwake : ∀ delay, run'.phase = .sleeping delay → now ≤ wakeAt') {instant : Instant}
    (halarm : run'.alarm? wakeAt' = some instant) :
    run.alarm? wakeAt = some instant ∨ now ≤ instant := by
  cases paces_step h with
  | looped hturn hresting =>
      have hturnAt := (Option.all_eq_true _ _).1 (of_decide_eq_true hat).1 _ hturn
      exact Or.inr (le_alarm?_loop hturnAt halarm)
  | settled hturn hends =>
      have hturnAt := (Option.all_eq_true _ _).1 (of_decide_eq_true hat).2 _ hturn
      exact Or.inr (le_alarm?_reschedule (of_decide_eq_true hturnAt) rfl hwake halarm)
  | expired hresting => cases halarm
  | waits hunderWay hresting hpast hattempts hfailures =>
      have hidle : run.phase.isResting → False :=
        fun hrests => hunderWay (underWay_of_isResting hrests)
      refine Or.inl ?_
      cases move_of_step h with
      | exhausted _ hrests hpending => cases halarm
      | expired _ hrests => cases halarm
      | called _ turn hrests hpending => exact (hidle hrests).elim
      | crashed _ hrests hpending => cases halarm
      | opened hphase =>
          apply alarm?_of_attemptDeadline?
          rw [attemptDeadline?, hphase]
          exact halarm
      | received turn hphase hresponse =>
          apply alarm?_of_attemptDeadline?
          rw [attemptDeadline?, hphase]
          exact halarm
      | settled _ hends hheard hreschedules =>
          cases hreschedules with
          | done hpending => cases halarm
          | crashed hpending => cases halarm
          | expired hpending => cases halarm
          | sleeping delay hpending => cases hresting
      | panicked _ hphase houtcome => cases halarm

def InDeadline (run : BatchRun) : Prop :=
  ∀ deadline, run.attemptDeadline? = some deadline → deadline ≤ run.operation.deadline

theorem inDeadline_step (hin : run.InDeadline)
    (h : run.step codec shared input = some (run', shared')) : run'.InDeadline := by
  intro deadline hdeadline
  cases move_of_step h with
  | exhausted _ hrests hpending => cases hdeadline
  | expired _ hrests => cases hdeadline
  | called _ turn hrests hpending =>
      obtain rfl := Option.some.inj hdeadline
      exact attemptDeadline_le run.operation turn.arm
  | crashed _ hrests hpending => cases hdeadline
  | opened hphase =>
      apply hin
      rw [attemptDeadline?, hphase]
      exact hdeadline
  | received turn hphase hresponse =>
      apply hin
      rw [attemptDeadline?, hphase]
      exact hdeadline
  | settled _ hends hheard hreschedules =>
      cases hreschedules with
      | done hpending => cases hdeadline
      | crashed hpending => cases hdeadline
      | expired hpending => cases hdeadline
      | sleeping delay hpending => cases hdeadline
  | panicked _ hphase houtcome => cases hdeadline

theorem InDeadline.alarm?_le (h : run.InDeadline) {instant : Instant}
    (halarm : run.alarm? wakeAt = some instant) : instant ≤ run.operation.deadline := by
  unfold alarm? at halarm
  split at halarm
  · obtain rfl := Option.some.inj halarm
    exact min_le_right _ _
  · exact h instant halarm

/-- A batch in flight waits for a timer. -/
theorem exists_alarm (wakeAt : Instant) (hwaiting : run.phase.isWaiting = false)
    (hfinished : run.phase.isFinished = false) (hpanicked : run.phase.isPanicked = false) :
    ∃ instant, run.alarm? wakeAt = some instant := by
  unfold alarm? attemptDeadline?
  cases hphase : run.phase with
  | waiting =>
      rw [hphase] at hwaiting
      cases hwaiting
  | finished =>
      rw [hphase] at hfinished
      cases hfinished
  | panicked how =>
      rw [hphase] at hpanicked
      cases hpanicked
  | _ => exact ⟨_, rfl⟩

end BatchRun

/-! ## Timers of all batches -/

def BatchInput.isAnswer : BatchInput → Bool
  | .opened => true
  | .refused _ _ => true
  | .message _ _ => true
  | .streamClosed .ended _ => true
  | .streamClosed (.broke _) _ => true
  | _ => false

def BulkInput.isAnswer : BulkInput → Bool
  | .batch _ input => input.isAnswer
  | .dropped _ => false

def BulkInput.isOwn : BulkInput → Bool
  | .batch _ input => !input.isAnswer
  | .dropped _ => false

namespace BatchRun

variable {codec : Codec} {run : BatchRun} {now wakeAt : Instant}

theorem isWaiting_of_alarm? {instant : Instant} (halarm : run.alarm? wakeAt = some instant) :
    run.phase.isWaiting = false := by
  cases hphase : run.phase with
  | waiting =>
      rw [alarm?, hphase, attemptDeadline?, hphase] at halarm
      cases halarm
  | _ => rfl

/-- What comes in when the timer fires. -/
theorem exists_fires (codec : Codec) (shared : OperationState) {instant : Instant}
    (halarm : run.alarm? wakeAt = some instant) (hnow : instant ≤ now) :
    ∃ input : BatchInput, input.isAnswer = false ∧ input.isAt now ∧ (input.isWoke → wakeAt ≤ now) ∧
      (run.step codec shared input).isSome := by
  let retryTurn : RetryTurn := { draw := 0, now := now }
  let attemptTurn : AttemptTurn := { top := now, arm := now, start := now, send := now }
  unfold alarm? attemptDeadline? at halarm
  cases hphase : run.phase with
  | calling current deadline telemetry attempt =>
      exact ⟨.callTimedOut retryTurn, rfl, by simp [BatchInput.isAt, BatchInput.attemptTurn?,
        BatchInput.retryTurn?, retryTurn], (by intro hwoke; cases hwoke), by simp [step, hphase]⟩
  | streaming current deadline telemetry attempt progress =>
      exact ⟨.streamClosed .timedOut retryTurn, rfl, by simp [BatchInput.isAt,
        BatchInput.attemptTurn?, BatchInput.retryTurn?, retryTurn], (by intro hwoke; cases hwoke),
        by simp [step, hphase]⟩
  | sleeping delay =>
      rw [hphase] at halarm
      obtain rfl := Option.some.inj halarm
      rcases min_le_iff.1 hnow with hwake | hlate
      · exact ⟨.woke attemptTurn, rfl, by simp [BatchInput.isAt, BatchInput.attemptTurn?,
          BatchInput.retryTurn?, AttemptTurn.isAt, attemptTurn], fun _ => hwake,
          by simp [step, hphase]⟩
      · exact ⟨.sleepTimedOut, rfl, by simp [BatchInput.isAt, BatchInput.attemptTurn?,
          BatchInput.retryTurn?], (by intro hwoke; cases hwoke), by simp [step, hphase]⟩
  | _ =>
      rw [hphase] at halarm
      cases halarm

end BatchRun

namespace BulkState

variable {codec : Codec} {initials : List BatchOperation} {state : BulkState}
  {timed timed' : Timed BulkState Nat} {number : Nat} {now lag : Nat} {input : BulkInput}

/-- A batch that may start is polled at once, a panic unwinds at once, and every batch in flight has
its timer. -/
def drive : Drive BulkState BulkInput Nat where
  urgent state := state.panics ∨ ∃ number run, state.batches[number]? = some run ∧
    run.phase.isWaiting ∧ state.mayStart number
  alarm timed instant := ∃ (number : Nat) (run : BatchRun),
    timed.state.batches[number]? = some run ∧ run.alarm? (timed.wakeAt number) = some instant
  answer := BulkInput.isAnswer

theorem running_of_step {next : BulkState} (h : state.step codec input = some next) :
    state.phase = .running := by
  cases step_of_step h with
  | batch _ hrunning hcalm hrun hstart hbatch => exact hrunning
  | dropped hrunning horder => exact hrunning

theorem exists_run_of_step {batchInput : BatchInput} {next : BulkState}
    (h : state.step codec (.batch number batchInput) = some next) :
    ∃ run, state.batches[number]? = some run := by
  cases step_of_step h with
  | batch _ hrunning hcalm hrun hstart hbatch => exact ⟨_, hrun⟩

theorem wakeAt_of_other (hticks : (clocked codec).Ticks timed now input timed')
    (hother : ∀ batchInput, input ≠ .batch number batchInput) :
    timed'.wakeAt number = timed.wakeAt number := by
  apply hticks.others number
  intro delay hsleeps
  cases input with
  | dropped order => cases hsleeps
  | batch sleeper batchInput =>
      obtain ⟨_, -, heq⟩ := Option.map_eq_some_iff.1 hsleeps
      obtain ⟨rfl, -⟩ := Prod.mk.inj heq
      exact hother batchInput rfl

/-- Only the batch that moves sets a timer, and it sets it to an instant to come. -/
theorem alarm_of_tick (htick : (clocked codec).tick timed (now, input) = some timed')
    {instant : Nat} (halarm : drive.alarm timed' instant) :
    drive.alarm timed instant ∨ now ≤ instant := by
  obtain ⟨number, run', hrun', hinstant⟩ := halarm
  have hticks := ClockedMachine.ticks_of_tick htick
  by_cases hinput : ∃ batchInput, input = .batch number batchInput
  · obtain ⟨batchInput, rfl⟩ := hinput
    obtain ⟨run, hrun⟩ := exists_run_of_step hticks.step
    obtain ⟨hat, -, hwakeAt⟩ := moved_of_tick htick hrun hrun'
    obtain ⟨other, shared, hbatch, hbatches⟩ := exists_batch_step hticks.step hrun
    have hother : timed'.state.batches[number]? = some other := by
      rw [hbatches, getElem?_set_run hrun, if_pos rfl]
    obtain rfl := Option.some.inj (hother.symm.trans hrun')
    have hwake : ∀ delay, other.phase = .sleeping delay → now ≤ timed'.wakeAt number := by
      intro delay hphase
      rw [hwakeAt delay hphase]
      exact Nat.le_add_right _ _
    rcases BatchRun.alarm?_step (timed.wakeAt number) hat hbatch hwake hinstant with
      hold | hnew
    · exact Or.inl ⟨number, run, hrun, hold⟩
    · exact Or.inr hnew
  · have hother : ∀ batchInput, input ≠ .batch number batchInput :=
      fun batchInput heq => hinput ⟨batchInput, heq⟩
    rw [getElem?_of_step hticks.step hother] at hrun'
    rw [wakeAt_of_other hticks hother] at hinstant
    exact Or.inl ⟨number, run', hrun', hinstant⟩

/-! ## Runs -/

structure DeadlineInv (codec : Codec) (initials : List BatchOperation) (state : BulkState) :
    Prop where
  inv : Inv codec initials state
  inDeadline : ∀ run ∈ state.batches, run.InDeadline
  maxInFlight_pos : 0 < state.maxInFlight
  batches_ne : state.batches ≠ []

theorem deadlineInv_step {next : BulkState} (h : DeadlineInv codec initials state)
    (hstep : state.step codec input = some next) : DeadlineInv codec initials next := by
  have hsizes : SameSizes state next := sameSizes_step ⟨rfl, rfl⟩ hstep
  refine ⟨inv_step h.inv hstep, ?_, hsizes.2 ▸ h.maxInFlight_pos, ?_⟩
  · cases step_of_step hstep with
    | batch batchInput hrunning hcalm hrun hstart hbatch =>
        intro run' hrun'
        rw [batches_collect] at hrun'
        rcases List.mem_or_eq_of_mem_set hrun' with hold | rfl
        · exact h.inDeadline run' hold
        · exact BatchRun.inDeadline_step (h.inDeadline _ (List.mem_of_getElem? hrun)) hbatch
    | dropped hrunning horder => exact h.inDeadline
  · cases step_of_step hstep with
    | batch batchInput hrunning hcalm hrun hstart hbatch =>
        rw [batches_collect]
        exact fun hnil => h.batches_ne ((List.set_eq_nil_iff _ _).1 hnil)
    | dropped hrunning horder => exact h.batches_ne

/-- As long as a bulk mutation is running, a batch may start or waits for a timer. -/
theorem driven_of_running {deadline : Instant} (h : DeadlineInv codec initials timed.state)
    (hrunning : timed.state.phase = .running)
    (hdeadline : ∀ initial ∈ initials, initial.deadline = deadline) :
    Driven drive deadline timed := by
  by_cases hpanics : timed.state.panics = true
  · exact Or.inl (Or.inl hpanics)
  rw [Bool.not_eq_true] at hpanics
  by_cases hflight : ∃ run ∈ timed.state.batches,
      run.phase.isWaiting = false ∧ run.phase.isFinished = false
  · obtain ⟨run, hrun, hwaiting, hfinished⟩ := hflight
    obtain ⟨number, hnumber⟩ := List.mem_iff_getElem?.1 hrun
    obtain ⟨initial, hinitial, hinv⟩ := exists_of_forall₂ h.inv.batches hrun
    obtain ⟨instant, halarm⟩ := BatchRun.exists_alarm (timed.wakeAt number) hwaiting hfinished
      (by simpa using List.any_eq_false.1 hpanics run hrun)
    refine Or.inr ⟨instant, ⟨number, run, hnumber, halarm⟩, ?_⟩
    rw [← hdeadline initial hinitial, ← hinv.books.config.deadline]
    exact (h.inDeadline run hrun).alarm?_le halarm
  · have hidle : ∀ run ∈ timed.state.batches, run.phase.isWaiting ∨ run.phase.isFinished := by
      intro run hrun
      by_contra hnot
      rw [not_or, Bool.not_eq_true, Bool.not_eq_true] at hnot
      exact hflight ⟨run, hrun, hnot⟩
    obtain ⟨unfinished, hunfinished, hnot⟩ := h.inv.running hrunning h.batches_ne
    exact Or.inl (Or.inr (exists_mayStart h.maxInFlight_pos hidle
      ⟨unfinished, hunfinished, (hidle unfinished hunfinished).resolve_right (by simp [hnot])⟩))

/-- What becomes of a bulk mutation over time: nothing happens to it long after its deadline, and
while it is running and did not panic something is to happen by then, for which it does not need
the server. -/
structure OverInTime (codec : Codec) (lag : Nat) (deadline : Instant)
    (timed : Timed BulkState Nat) :
    Prop where
  now_le : timed.now ≤ deadline + lag
  next_le : timed.state.phase = .running →
    ∀ input : Nat × BulkInput, OnTime drive lag timed input → input.1 ≤ deadline + lag
  goes_on : timed.state.phase = .running → timed.state.panics = false →
    ∃ now input, BulkInput.isOwn input ∧ OnTime drive lag timed (now, input) ∧
      ((clocked codec).tick timed (now, input)).isSome

theorem tick_isSome {batchInput : BatchInput} {run : BatchRun} (hnow : timed.now ≤ now)
    (hrunning : timed.state.phase = .running) (hcalm : timed.state.panics = false)
    (hrun : timed.state.batches[number]? = some run)
    (hstart : run.phase.isWaiting → timed.state.mayStart number) (hat : batchInput.isAt now)
    (hwoke : batchInput.isWoke → timed.wakeAt number ≤ now)
    (hstep : (run.step codec timed.state.telemetry.state batchInput).isSome) :
    ((clocked codec).tick timed (now, .batch number batchInput)).isSome := by
  have hguard : timed.now ≤ now ∧ (clocked codec).reads (.batch number batchInput) now ∧
      ∀ sleeper ∈ (clocked codec).wakes (.batch number batchInput),
        timed.wakeAt sleeper ≤ now := by
    refine ⟨hnow, hat, fun sleeper hwakes => ?_⟩
    cases batchInput with
    | woke turn =>
        obtain rfl := Option.some.inj hwakes
        exact hwoke rfl
    | _ => cases hwakes
  unfold ClockedMachine.tick
  rw [if_pos hguard, Option.isSome_map]
  exact step_batch_isSome hrunning hcalm hrun hstart hstep

theorem exists_own_onTime {deadline : Instant} (hrunning : timed.state.phase = .running)
    (hcalm : timed.state.panics = false) (htimely : Timely drive lag timed)
    (hdriven : Driven drive deadline timed) :
    ∃ now input, BulkInput.isOwn input ∧ OnTime drive lag timed (now, input) ∧
      ((clocked codec).tick timed (now, input)).isSome := by
  refine exists_onTime (fun input => BulkInput.isOwn input) htimely hdriven ?_ ?_
  · rintro (hpanics | ⟨number, run, hrun, hwaiting, hmay⟩)
    · rw [hcalm] at hpanics
      cases hpanics
    let turn : AttemptTurn :=
      { top := timed.now, arm := timed.now, start := timed.now, send := timed.now }
    refine ⟨.batch number (.polled turn), rfl, tick_isSome (Nat.le_refl _) hrunning hcalm hrun
      (fun _ => hmay) ?_ nofun ?_⟩
    · simp [BatchInput.isAt, BatchInput.attemptTurn?, BatchInput.retryTurn?, AttemptTurn.isAt, turn]
    · cases hphase : run.phase with
      | waiting => simp [BatchRun.step, hphase]
      | _ =>
          rw [hphase] at hwaiting
          cases hwaiting
  · rintro instant now ⟨number, run, hrun, halarm⟩ hnow hinstant
    obtain ⟨input, hanswer, hat, hwoke, hstep⟩ :=
      BatchRun.exists_fires codec timed.state.telemetry.state halarm hinstant
    refine ⟨.batch number input, congrArg Bool.not hanswer,
      tick_isSome hnow hrunning hcalm hrun ?_ hat hwoke hstep⟩
    intro hwaiting
    rw [BatchRun.isWaiting_of_alarm? halarm] at hwaiting
    cases hwaiting

theorem started_of_executeBulk {encodedLen : EncodedLen} {parse : MetadataParser}
    {config : ClientConfig} {bulk : BulkMutation} {options : BulkMutationOptions}
    {init : BulkState}
    (h : executeBulk encodedLen parse config bulk options now = .ok (.started init)) :
    validateOptions options = .ok () ∧ bulk.entries ≠ [] ∧
      init = .start encodedLen config bulk options (now + options.deadlines.operationTimeout) := by
  unfold executeBulk at h
  split at h
  · cases h
  · next hvalid =>
    unfold Instant.checkedAdd at h
    split_ifs at h with hempty hmax
    · cases h
    · dsimp only at h
      split at h
      · cases h
      · refine ⟨hvalid, fun hnil => hempty (by rw [hnil, List.length_nil]), ?_⟩
        exact (BulkStart.started.inj (Except.ok.inj h)).symm

section Start

variable (encodedLen : EncodedLen) (config : ClientConfig) (bulk : BulkMutation)
  (options : BulkMutationOptions) (deadline : Instant)

theorem alarm?_of_mem_start {run : BatchRun} (wakeAt : Instant)
    (h : run ∈ (start encodedLen config bulk options deadline).batches) :
    run.attemptDeadline? = none ∧ run.alarm? wakeAt = none := by
  obtain ⟨entries, -, number, rfl⟩ := mem_start encodedLen config bulk options deadline h
  exact ⟨rfl, rfl⟩

theorem deadlineInv_start (hoptions : options.Valid) (hbulk : bulk.entries ≠ []) :
    DeadlineInv codec (initialOperations encodedLen config bulk options deadline)
      (start encodedLen config bulk options deadline) where
  inv := inv_start encodedLen config bulk options deadline hoptions
  inDeadline run hrun instant hinstant := by
    rw [(alarm?_of_mem_start encodedLen config bulk options deadline 0 hrun).1] at hinstant
    cases hinstant
  maxInFlight_pos := hoptions.inFlight_pos
  batches_ne := by
    have hinv : Inv codec _ _ := inv_start encodedLen config bulk options deadline hoptions
    exact batches_ne_nil encodedLen config bulk options deadline hoptions hbulk hinv

theorem timely_start : Timely drive lag
    (.start (start encodedLen config bulk options deadline) now) := by
  rintro instant ⟨number, run, hrun, halarm⟩
  have hnone := alarm?_of_mem_start encodedLen config bulk options deadline now
    (List.mem_of_getElem? hrun)
  cases hnone.2.symm.trans halarm

end Start

/-- A bulk mutation is over soon after its deadline: while a batch that may start is polled at once,
timers fire at most a lag too late and no answer of the server is ready behind a timer, it takes no
step later than that after its deadline, and as long as it is running and did not panic it has one
to take by then without the server. -/
theorem over_in_time {encodedLen : EncodedLen} {parse : MetadataParser} {config : ClientConfig}
    {bulk : BulkMutation} {options : BulkMutationOptions} {init : BulkState}
    (hstarted : executeBulk encodedLen parse config bulk options now = .ok (.started init))
    (hreach : ReachableBy (clocked codec).tick (OnTime drive lag) (.start init now) timed) :
    OverInTime codec lag (now + options.deadlines.operationTimeout) timed := by
  obtain ⟨hvalidated, hbulk, rfl⟩ := started_of_executeBulk hstarted
  have hvalid := BulkMutationOptions.valid_of_validateOptions hvalidated
  have hdriven : ∀ timed : Timed BulkState Nat,
      DeadlineInv codec (initialOperations encodedLen config bulk options
        (now + options.deadlines.operationTimeout)) timed.state →
      timed.state.phase = .running →
        Driven drive (now + options.deadlines.operationTimeout) timed := by
    intro timed hinv hrunning
    apply driven_of_running hinv hrunning
    intro initial hinitial
    exact (config_of_mem encodedLen config bulk options _ hinitial).2
  obtain ⟨hinv, htimely, hle⟩ := inTime_of_reachable
    (fun timed => DeadlineInv codec (initialOperations encodedLen config bulk options
      (now + options.deadlines.operationTimeout)) timed.state)
    (fun _ _ _ hinv htick => deadlineInv_step hinv (ClockedMachine.ticks_of_tick htick).step)
    (fun _ _ _ _ _ htick _ halarm => alarm_of_tick htick halarm)
    (fun _ _ _ hinv htick =>
      hdriven _ hinv (running_of_step (ClockedMachine.ticks_of_tick htick).step))
    (deadlineInv_start encodedLen config bulk options _ hvalid hbulk)
    (timely_start encodedLen config bulk options _)
    ((Nat.le_add_right _ _).trans (Nat.le_add_right _ lag)) hreach
  exact ⟨hle, fun hrunning input htime => htime.le_of_driven (hdriven _ hinv hrunning) hle,
    fun hrunning hcalm => exists_own_onTime hrunning hcalm htimely (hdriven _ hinv hrunning)⟩

end BulkState

/-! ### Both batches are polled -/

theorem BulkState.over_in_time_pacedBulk :
    ∃ timed : Timed BulkState Nat, timed.state.inFlight = 2 ∧
      OverInTime plainCodec 5 (0 + 600000000000) timed := by
  have hstart : executeBulk wireLen printableHeader bulkConfig sampleBulk pairOptions 0 =
      .ok (.started (.start wireLen bulkConfig sampleBulk pairOptions 600000000000)) := by
    unfold executeBulk
    rw [validateOptions_pair]
    rfl
  have hruns : ((run (BulkState.clocked plainCodec).tick
      (.start (.start wireLen bulkConfig sampleBulk pairOptions 600000000000) 0)
      (pacedBulk.take 2)).any fun timed => timed.state.inFlight = 2) = true := by decide +kernel
  obtain ⟨timed, hrun, hflight⟩ := (Option.any_eq_true _ _).1 hruns
  obtain ⟨first, hfirst, hrest⟩ := run_cons_eq_some.1 hrun
  obtain ⟨second, hsecond, hlast⟩ := run_cons_eq_some.1 hrest
  obtain rfl := Option.some.inj hlast
  have htime : ∀ (timed : Timed BulkState Nat) (input : BulkInput),
      OnTime drive 5 timed (0, input) := fun _ _ =>
    ⟨⟨fun _ => Nat.zero_le _, fun _ _ _ => Nat.zero_le _⟩, fun _ _ _ => Nat.zero_le _⟩
  exact ⟨second, of_decide_eq_true hflight, BulkState.over_in_time hstart
    ((ReachableBy.start.step (htime _ _) hfirst).step (htime _ _) hsecond)⟩

end BigtableClient
