import BigtableClient.Write

/-!
# What one step of a batch can do

Each step of a batch is one of a few moves.  The invariants of a batch are derived
from the moves, and look at `BatchRun.step` no more.
-/

namespace BigtableClient

open Proto (MutateRowsResponse)

/-- The phases in which no attempt is under way and the loop can go on. -/
def BatchPhase.isResting : BatchPhase → Bool
  | .waiting => true
  | .sleeping _ => true
  | _ => false

def BatchPhase.isDone : BatchPhase → Bool
  | .finished => true
  | .panicked _ => true
  | _ => false

namespace BatchRun

def issue (run : BatchRun) (shared : OperationState) (turn : AttemptTurn) :
    BatchRun × OperationState :=
  let operation := run.operation
  let rpcAttempts := saturatingAdd operation.rpcAttempts 1
  let current := operation.pending.map PendingEntry.countAttempt
  let attemptDeadline := operation.attemptDeadline turn.arm
  let attempt : WriteAttempt :=
    { indexes := current.map PendingEntry.originalIndex
      request := mutateRowsRequest operation.tableName operation.appProfileId current
      timeout := Instant.checkedDurationSince attemptDeadline turn.send
      messages := []
      ending := none }
  let (telemetry, shared) :=
    shared.attempt (some operation.batch) rpcAttempts current.length
      ((Instant.checkedDurationSince attemptDeadline turn.start).getD 0)
  ({ run with
      operation := { operation with rpcAttempts := rpcAttempts, pending := [] }
      phase := .calling current attemptDeadline telemetry attempt }, shared)

abbrev TakesTimeout (codec : Codec) (run : BatchRun) (turn : AttemptTurn) : Prop :=
  ∀ timeout ∈ Instant.checkedDurationSince (run.operation.attemptDeadline turn.arm) turn.send,
    codec.takesTimeout timeout

theorem attemptDeadline_le (operation : BatchOperation) (now : Instant) :
    operation.attemptDeadline now ≤ operation.deadline := by
  unfold BatchOperation.attemptDeadline
  split
  · exact Nat.le_refl _
  · exact min_le_right _ _

theorem TakesTimeout.of_le {codec : Codec} {run : BatchRun} {turn : AttemptTurn}
    (h : ∀ timeout ≤ run.operation.deadline, codec.takesTimeout timeout) :
    run.TakesTimeout codec turn := by
  intro timeout htimeout
  unfold Instant.checkedDurationSince at htimeout
  split_ifs at htimeout
  · obtain rfl := Option.mem_some_iff.1 htimeout
    exact h _ ((Nat.sub_le _ _).trans (attemptDeadline_le _ _))
  · cases htimeout

inductive Ends (codec : Codec) (run : BatchRun) :
    List PendingEntry → WriteAttempt → AttemptEnd → AttemptOutcome → Prop
  | refused {current : List PendingEntry} {deadline : Instant} {telemetry : AttemptTracker}
      {attempt : WriteAttempt} (status : Status)
      (hphase : run.phase = .calling current deadline telemetry attempt) :
      Ends codec run current attempt (.refused status)
        (rpcFailure codec run.operation.maxAttempts current status)
  | malformed {current : List PendingEntry} {deadline : Instant} {telemetry : AttemptTracker}
      {attempt : WriteAttempt} {progress : StreamProgress} {response : MutateRowsResponse}
      {issue : MutateRowsResponseIssue}
      (hphase : run.phase = .streaming current deadline telemetry attempt progress)
      (hresponse : recordResponse codec current.length progress response = .error issue) :
      Ends codec run current { attempt with messages := attempt.messages ++ [response] }
        (.malformed issue) (invalidResponseOutcome current issue)
  | closed {current : List PendingEntry} {deadline : Instant} {telemetry : AttemptTracker}
      {attempt : WriteAttempt} {progress : StreamProgress} {outcome : AttemptOutcome}
      (streamEnd : StreamEnd)
      (hphase : run.phase = .streaming current deadline telemetry attempt progress)
      (houtcome : streamOutcome codec run.operation.maxAttempts current progress
        streamEnd.failure = some outcome) :
      Ends codec run current attempt (.closed streamEnd) outcome

/-- The tracker of the attempt and the shared state, after a message or without one. -/
inductive Heard (run : BatchRun) (shared : OperationState) :
    AttemptTracker → OperationState → Prop
  | nothing {telemetry : AttemptTracker} (htelemetry : run.phase.telemetry = some telemetry) :
      Heard run shared telemetry shared
  | message {telemetry : AttemptTracker} (htelemetry : run.phase.telemetry = some telemetry) :
      Heard run shared (telemetry.recordFirstResponse shared).1
        (telemetry.recordFirstResponse shared).2

inductive Reschedules (run : BatchRun) (shared : OperationState) (outcome : AttemptOutcome) :
    BatchRun → OperationState → Prop
  | done (hpending : run.operation.pending = []) : Reschedules run shared outcome run shared
  | crashed (hpending : run.operation.pending ≠ []) :
      Reschedules run shared outcome { run with phase := .panicked .backoff } shared
  | expired (hpending : run.operation.pending ≠ []) :
      Reschedules run shared outcome run.expire shared
  | sleeping (delay : Duration) (hpending : run.operation.pending ≠ []) :
      Reschedules run shared outcome { run with phase := .sleeping delay }
        (shared.retry (some run.operation.batch)
          (((run.operation.pending.map PendingEntry.attempts).max?).getD 1) outcome.code delay
          run.operation.pending.length)

inductive Move (codec : Codec) (run : BatchRun) (shared : OperationState) :
    BatchInput → BatchRun → OperationState → Prop
  | exhausted (input : BatchInput) (hresting : run.phase.isResting)
      (hpending : run.operation.pending = []) :
      Move codec run shared input { run with phase := .finished } shared
  | expired (input : BatchInput) (hresting : run.phase.isResting) :
      Move codec run shared input run.expire shared
  | called (input : BatchInput) (turn : AttemptTurn) (hresting : run.phase.isResting)
      (hpending : run.operation.pending ≠ []) :
      Move codec run shared input (run.issue shared turn).1 (run.issue shared turn).2
  | crashed (input : BatchInput) (hresting : run.phase.isResting)
      (hpending : run.operation.pending ≠ []) :
      Move codec run shared input { run with phase := .panicked .timeout } shared
  | opened {current : List PendingEntry} {deadline : Instant} {telemetry : AttemptTracker}
      {attempt : WriteAttempt}
      (hphase : run.phase = .calling current deadline telemetry attempt) :
      Move codec run shared .opened
        { run with
          phase := .streaming current deadline telemetry attempt (.new current.length) } shared
  | received {current : List PendingEntry} {deadline : Instant} {telemetry : AttemptTracker}
      {attempt : WriteAttempt} {progress progress' : StreamProgress}
      {response : MutateRowsResponse} (turn : RetryTurn)
      (hphase : run.phase = .streaming current deadline telemetry attempt progress)
      (hresponse : recordResponse codec current.length progress response = .ok progress') :
      Move codec run shared (.message response turn)
        { run with
          phase := .streaming current deadline (telemetry.recordFirstResponse shared).1
            { attempt with messages := attempt.messages ++ [response] } progress' }
        (telemetry.recordFirstResponse shared).2
  | settled {current : List PendingEntry} {attempt : WriteAttempt} {ending : AttemptEnd}
      {outcome : AttemptOutcome} {telemetry : AttemptTracker} {heard shared' : OperationState}
      {next : BatchRun} (input : BatchInput) (hends : Ends codec run current attempt ending outcome)
      (hheard : Heard run shared telemetry heard)
      (hreschedules : Reschedules (run.book attempt ending outcome)
        (telemetry.finish heard outcome.code
          { successfulEntries := outcome.successful
            failedEntries := outcome.failures.length + outcome.retry.length }).2 outcome next
        shared') :
      Move codec run shared input next shared'
  | panicked {current : List PendingEntry} {deadline : Instant} {telemetry : AttemptTracker}
      {attempt : WriteAttempt} {progress : StreamProgress} {streamEnd : StreamEnd}
      (input : BatchInput)
      (hphase : run.phase = .streaming current deadline telemetry attempt progress)
      (houtcome : streamOutcome codec run.operation.maxAttempts current progress
        streamEnd.failure = none) :
      Move codec run shared input { run with phase := .panicked .unreachable } shared

/-! ## Inversion -/

variable {codec : Codec} {run run' : BatchRun} {shared shared' : OperationState}
  {input : BatchInput}

theorem call_eq (codec : Codec) (run : BatchRun) (shared : OperationState) (turn : AttemptTurn) :
    run.call codec shared turn =
      if run.TakesTimeout codec turn then run.issue shared turn
      else ({ run with phase := .panicked .timeout }, shared) := by
  have hiff : ((Instant.checkedDurationSince (run.operation.attemptDeadline turn.arm)
      turn.send).any fun timeout => ¬ codec.takesTimeout timeout) = true ↔
        ¬ run.TakesTimeout codec turn := by
    simp [Option.any_eq_true, TakesTimeout]
  unfold call
  by_cases htakes : run.TakesTimeout codec turn
  · rw [if_pos htakes]
    exact if_neg (hiff.not.2 (not_not.2 htakes))
  · rw [if_neg htakes]
    exact if_pos (hiff.2 htakes)

theorem reschedules_of_reschedule {outcome : AttemptOutcome} {turn : RetryTurn}
    (h : run.reschedule codec shared outcome turn = (run', shared')) :
    Reschedules run shared outcome run' shared' := by
  unfold reschedule at h
  dsimp only at h
  split_ifs at h with hpending
  · obtain ⟨rfl, rfl⟩ := Prod.mk.inj h
    exact .done hpending
  · split at h
    · obtain ⟨rfl, rfl⟩ := Prod.mk.inj h
      exact .crashed hpending
    · split at h
      · obtain ⟨rfl, rfl⟩ := Prod.mk.inj h
        exact .expired hpending
      · split_ifs at h
        · obtain ⟨rfl, rfl⟩ := Prod.mk.inj h
          exact .expired hpending
        · obtain ⟨rfl, rfl⟩ := Prod.mk.inj h
          exact .sleeping _ hpending

/-- A batch sleeps when there is something to send again, and time left for it. -/
theorem fst_reschedule (codec : Codec) (run : BatchRun) (shared : OperationState)
    (outcome : AttemptOutcome) (turn : RetryTurn) : (run.reschedule codec shared outcome turn).1 =
      if run.operation.pending = [] then run
      else
        match backoff codec run.operation.options.retry
            (((run.operation.pending.map PendingEntry.attempts).max?).getD 1) turn.draw with
        | none => { run with phase := .panicked .backoff }
        | some drawn =>
            if run.operation.deadline - turn.now ≤ max drawn outcome.retryDelay then run.expire
            else { run with phase := .sleeping (max drawn outcome.retryDelay) } := by
  unfold reschedule Instant.checkedDurationSince
  dsimp only
  split_ifs with hpending hnow
  · rfl
  · cases backoff codec run.operation.options.retry
        (((run.operation.pending.map PendingEntry.attempts).max?).getD 1) turn.draw with
    | none => rfl
    | some drawn =>
        dsimp only
        split_ifs <;> rfl
  · have hzero : run.operation.deadline - turn.now = 0 :=
      Nat.sub_eq_zero_of_le (Nat.le_of_not_le hnow)
    cases backoff codec run.operation.options.retry
        (((run.operation.pending.map PendingEntry.attempts).max?).getD 1) turn.draw with
    | none => rfl
    | some drawn =>
        dsimp only
        rw [hzero, if_pos (Nat.zero_le _)]

theorem fst_reschedule_of_backoff {outcome : AttemptOutcome} {turn : RetryTurn}
    {drawn : Duration} (hpending : run.operation.pending ≠ [])
    (hbackoff : backoff codec run.operation.options.retry
      (((run.operation.pending.map PendingEntry.attempts).max?).getD 1) turn.draw = some drawn)
    (hleft : ¬ run.operation.deadline - turn.now ≤ max drawn outcome.retryDelay) :
    (run.reschedule codec shared outcome turn).1 =
      { run with phase := .sleeping (max drawn outcome.retryDelay) } := by
  rw [fst_reschedule, if_neg hpending, hbackoff]
  exact if_neg hleft

theorem move_of_settle {current : List PendingEntry} {attempt : WriteAttempt}
    {ending : AttemptEnd} {outcome : AttemptOutcome} {telemetry : AttemptTracker}
    {heard : OperationState} {turn : RetryTurn}
    (h : run.settle codec heard telemetry attempt ending outcome turn = (run', shared'))
    (hends : Ends codec run current attempt ending outcome)
    (hheard : Heard run shared telemetry heard) : Move codec run shared input run' shared' :=
  .settled input hends hheard (reschedules_of_reschedule h)

theorem move_of_loop {turn : AttemptTurn} (hresting : run.phase.isResting)
    (h : run.loop codec shared turn = (run', shared')) :
    Move codec run shared input run' shared' := by
  unfold loop at h
  split_ifs at h with hpending htop
  · obtain ⟨rfl, rfl⟩ := Prod.mk.inj h
    exact .exhausted input hresting hpending
  · obtain ⟨rfl, rfl⟩ := Prod.mk.inj h
    exact .expired input hresting
  · rw [call_eq] at h
    split_ifs at h
    · obtain ⟨rfl, rfl⟩ := Prod.mk.inj h
      exact .called input turn hresting hpending
    · obtain ⟨rfl, rfl⟩ := Prod.mk.inj h
      exact .crashed input hresting hpending

theorem move_of_receive {current : List PendingEntry} {deadline : Instant}
    {telemetry : AttemptTracker} {attempt : WriteAttempt} {progress : StreamProgress}
    {response : MutateRowsResponse} {turn : RetryTurn}
    (hphase : run.phase = .streaming current deadline telemetry attempt progress)
    (h : run.receive codec shared current deadline telemetry attempt progress response turn =
      (run', shared')) : Move codec run shared (.message response turn) run' shared' := by
  have htelemetry : run.phase.telemetry = some telemetry := by rw [hphase]; rfl
  unfold receive at h
  dsimp only at h
  split at h
  · next issue hresponse =>
    exact move_of_settle h (.malformed hphase hresponse) (.message htelemetry)
  · next progress' hresponse =>
    obtain ⟨rfl, rfl⟩ := Prod.mk.inj h
    exact .received turn hphase hresponse

theorem move_of_close {current : List PendingEntry} {deadline : Instant}
    {telemetry : AttemptTracker} {attempt : WriteAttempt} {progress : StreamProgress}
    {streamEnd : StreamEnd} {turn : RetryTurn}
    (hphase : run.phase = .streaming current deadline telemetry attempt progress)
    (h : run.close codec shared current telemetry attempt progress streamEnd turn =
      (run', shared')) : Move codec run shared input run' shared' := by
  have htelemetry : run.phase.telemetry = some telemetry := by rw [hphase]; rfl
  unfold close at h
  split at h
  · next outcome houtcome =>
    exact move_of_settle h (.closed streamEnd hphase houtcome) (.nothing htelemetry)
  · next houtcome =>
    obtain ⟨rfl, rfl⟩ := Prod.mk.inj h
    exact .panicked input hphase houtcome

/-- Every step is a move. -/
theorem move_of_step (h : run.step codec shared input = some (run', shared')) :
    Move codec run shared input run' shared' := by
  unfold step at h
  split at h
  · next hphase =>
    exact move_of_loop (by rw [hphase]; rfl) (Option.some.inj h)
  · next hphase =>
    obtain ⟨rfl, rfl⟩ := Prod.mk.inj (Option.some.inj h)
    exact .opened hphase
  · next status turn hphase =>
    exact move_of_settle (Option.some.inj h) (.refused status hphase)
      (.nothing (by rw [hphase]; rfl))
  · next turn hphase =>
    exact move_of_settle (Option.some.inj h) (.refused attemptDeadlineStatus hphase)
      (.nothing (by rw [hphase]; rfl))
  · next hphase => exact move_of_receive hphase (Option.some.inj h)
  · next hphase => exact move_of_close hphase (Option.some.inj h)
  · next hphase =>
    exact move_of_loop (by rw [hphase]; rfl) (Option.some.inj h)
  · next hphase =>
    obtain ⟨rfl, rfl⟩ := Prod.mk.inj (Option.some.inj h)
    exact .expired .sleepTimedOut (by rw [hphase]; rfl)
  · cases h

end BatchRun

end BigtableClient
