import BigtableClient.Read
import BigtableClient.ProofSupport.Transition

/-!
# What one step of a read can do

Each step of a read is of one of a few kinds, told apart by what happens to the attempt
that is under way.  The invariants about attempts and diagnostics are derived from
these, and look at `ReadState.step` no more.
-/

namespace BigtableClient

open Proto

/-- The tracker of the attempt that is under way, and the rows it counted. -/
def ReadPhase.underWay : ReadPhase → Option (AttemptTracker × Nat)
  | .calling _ _ _ telemetry => some (telemetry, 0)
  | .streaming active => some (active.telemetry, active.rows)
  | .sending active _ _ _ => some (active.telemetry, active.rows)
  | _ => none

/-- Whether `run` called `open`. -/
def ReadPhase.sender : ReadPhase → Bool
  | .starting => false
  | .backingOff sender _ => sender
  | .calling sender _ _ _ => sender
  | _ => true

def ReadInput.failure : ReadInput → Option (Status × ReadTurn)
  | .refused status turn => some (status, turn)
  | .openTimedOut turn => some (.deadlineExceeded attemptDeadlineMessage, turn)
  | .streamBroke status turn => some (status, turn)
  | .streamTimedOut turn => some (.deadlineExceeded attemptDeadlineMessage, turn)
  | _ => none

def ReadInput.isGone : ReadInput → Bool
  | .sendFailed => true
  | .closed => true
  | _ => false

namespace ReadState

/-! ## Parts of a step -/

/-- The attempt under way is over. -/
def finishAttempt (state : ReadState) (telemetry : AttemptTracker) (code : Code) (rows : Nat) :
    ReadState :=
  { state with
    operation := state.operation.report fun shared =>
      (telemetry.finish shared code { rows := rows }).2 }

def setMerger (state : ReadState) (merger : RowMerger) : ReadState :=
  { state with operation := { state.operation with merger := merger } }

def issue (state : ReadState) (sender : Bool) (instant : Instant) (timeout : Duration)
    (deadline : Instant) (request : ReadRowsRequest) : ReadState :=
  let attempts := state.operation.attempts + 1
  let (telemetry, shared) := state.operation.telemetry.state.attempt none attempts 0 timeout
  { state with
    operation := { state.operation with attempts := attempts }.report fun _ => shared
    phase := .calling sender deadline request telemetry
    log := { state.log with
      requests := state.log.requests ++
        [{ instant := instant, timeout := timeout, request := request }] } }

def backOff (state : ReadState) (sender : Bool) (status : Status) (delay : Duration) : ReadState :=
  { state with
    operation := state.operation.report fun shared =>
      shared.retry none state.operation.attempts status.code delay 0
    phase := .backingOff sender delay }

/-- What the part of `open` that issues a request can lead to. -/
inductive Calls (codec : Codec) (state : ReadState) (sender : Bool) (turn : ReadTurn) :
    ReadState → Prop
  | exhausted
      (hrequest : resumeRequest state.operation.original state.operation.progress
        state.operation.rowsReturned = none) :
      Calls codec state sender turn (state.concludeWith .ok .completed)
  | late (hremaining : state.operation.remaining turn.call = none) :
      Calls codec state sender turn
        (state.failWith sender .deadlineExceeded state.operation.deadlineError)
  | tooLarge {request : ReadRowsRequest} {remaining : Duration}
      (hrequest : resumeRequest state.operation.original state.operation.progress
        state.operation.rowsReturned = some request)
      (hremaining : state.operation.remaining turn.call = some remaining)
      (hdeadline : Instant.checkedAdd turn.arm
        (min state.operation.options.deadlines.attemptTimeout remaining) = none) :
      Calls codec state sender turn (state.fail sender .deadlineTooLarge)
  | panicked {request : ReadRowsRequest} {remaining : Duration} {deadline : Instant}
      (hrequest : resumeRequest state.operation.original state.operation.progress
        state.operation.rowsReturned = some request)
      (hremaining : state.operation.remaining turn.call = some remaining)
      (hdeadline : Instant.checkedAdd turn.arm
        (min state.operation.options.deadlines.attemptTimeout remaining) = some deadline)
      (htakes : codec.takesTimeout
        (min state.operation.options.deadlines.attemptTimeout remaining) = false) :
      Calls codec state sender turn (state.conclude .panicked)
  | issued {request : ReadRowsRequest} {remaining : Duration} {deadline : Instant}
      (hrequest : resumeRequest state.operation.original state.operation.progress
        state.operation.rowsReturned = some request)
      (hremaining : state.operation.remaining turn.call = some remaining)
      (hdeadline : Instant.checkedAdd turn.arm
        (min state.operation.options.deadlines.attemptTimeout remaining) = some deadline)
      (htakes : codec.takesTimeout
        (min state.operation.options.deadlines.attemptTimeout remaining)) :
      Calls codec state sender turn
        (state.issue sender turn.arm
          (min state.operation.options.deadlines.attemptTimeout remaining) deadline request)

/-- What the part of `open` after a failure can lead to. -/
inductive Retries (codec : Codec) (state : ReadState) (sender : Bool) (status : Status)
    (turn : ReadTurn) : ReadState → Prop
  | late (hbacksOff : state.BacksOff codec status turn) :
      Retries codec state sender status turn
        (state.failWith sender .deadlineExceeded state.operation.deadlineError)
  | refused (htop : turn.top < state.operation.deadline)
      (hrefused : ¬ isRetryable status ∨
        state.operation.options.retry.maxAttempts.toNat ≤ state.operation.attempts) :
      Retries codec state sender status turn
        (state.failWith sender status.code (.readRows state.operation.attempts status))
  | panicked (htop : turn.top < state.operation.deadline) (hretryable : isRetryable status)
      (hbudget : state.operation.attempts < state.operation.options.retry.maxAttempts.toNat)
      (hbackoff : backoff codec state.operation.options.retry state.operation.attempts
        turn.draw = none) :
      Retries codec state sender status turn (state.conclude .panicked)
  | backedOff {drawn remaining : Duration} (hretryable : isRetryable status)
      (hbudget : state.operation.attempts < state.operation.options.retry.maxAttempts.toNat)
      (hbackoff : backoff codec state.operation.options.retry state.operation.attempts
        turn.draw = some drawn)
      (hremaining : state.operation.remaining turn.retry = some remaining)
      (hdelay : max drawn ((retryDelay codec status).getD 0) < remaining) :
      Retries codec state sender status turn
        (state.backOff sender status (max drawn ((retryDelay codec status).getD 0)))

inductive TakesChunks (state : ReadState) (active : ActiveAttempt) (before : Int)
    (chunks : List CellChunk) : ReadState → Prop
  | rejected {merger : RowMerger} {issue : RowMergeIssue}
      (hpush : pushUntilRow state.operation.merger chunks = (merger, .error issue)) :
      TakesChunks state active before chunks ((state.setMerger merger).rejectResponse active issue)
  | row {merger : RowMerger} {row : Row} {rest : List CellChunk}
      (hpush : pushUntilRow state.operation.merger chunks = (merger, .ok (some (row, rest)))) :
      TakesChunks state active before chunks
        { state.setMerger merger with
          operation :=
            { (state.setMerger merger).operation with
              rowsReturned := state.operation.rowsReturned + 1
              progress := some row.key }
          phase := .sending active before row rest
          log := { state.log with accepted := state.log.accepted ++ [.row row] } }
  | full {merger : RowMerger}
      (hpush : pushUntilRow state.operation.merger chunks = (merger, .ok none))
      (hlimit : state.operation.limitReached) :
      TakesChunks state active before chunks
        (((state.setMerger merger).finishAttempt active.telemetry .ok
          (active.rows + (state.operation.rowsReturned - before).toNat)).concludeWith .ok
            .completed)
  | drained {merger : RowMerger}
      (hpush : pushUntilRow state.operation.merger chunks = (merger, .ok none))
      (hlimit : state.operation.limitReached = false) :
      TakesChunks state active before chunks
        { state.setMerger merger with
          phase := .streaming
            { active with
              rows := active.rows + (state.operation.rowsReturned - before).toNat } }

def hear (state : ReadState) (active : ActiveAttempt) : ReadState :=
  { state with
    operation := state.operation.report fun shared =>
      (active.telemetry.recordFirstResponse shared).2 }

def hearing (state : ReadState) (active : ActiveAttempt) : ActiveAttempt :=
  { active with
    telemetry := (active.telemetry.recordFirstResponse state.operation.telemetry.state).1 }

def mark (state : ReadState) (merger : RowMerger) (key : Bytes) : ReadState :=
  { state with
    operation := { state.operation with merger := merger, progress := some key }
    log := { state.log with accepted := state.log.accepted ++ [.marker key] } }

inductive TakesMessage (state : ReadState) (active : ActiveAttempt) (response : ReadRowsResponse) :
    ReadState → Prop
  | misplaced {merger : RowMerger} {issue : RowMergeIssue}
      (hkey : response.lastScannedRowKey ≠ [])
      (hscan : state.operation.merger.scanMarker response.lastScannedRowKey =
        (merger, .error issue)) :
      TakesMessage state active response
        (((state.hear active).setMerger merger).rejectResponse (state.hearing active) issue)
  | unmarked {next : ReadState} (hkey : response.lastScannedRowKey = [])
      (hchunks : TakesChunks (state.hear active) (state.hearing active)
        state.operation.rowsReturned response.chunks next) :
      TakesMessage state active response next
  | marked {next : ReadState} {merger : RowMerger} (hkey : response.lastScannedRowKey ≠ [])
      (hscan : state.operation.merger.scanMarker response.lastScannedRowKey = (merger, .ok ()))
      (hchunks : TakesChunks ((state.hear active).mark merger response.lastScannedRowKey)
        (state.hearing active) state.operation.rowsReturned response.chunks next) :
      TakesMessage state active response next

/-! ## Steps -/

/-- The kinds of steps of a read. -/
inductive Step (codec : Codec) (state : ReadState) : ReadInput → ReadState → Prop
  | expired {turn : ReadTurn} (hphase : state.phase = .starting)
      (htop : state.operation.deadline ≤ turn.top) :
      Step codec state (.begin turn)
        (state.failWith false .deadlineExceeded state.operation.deadlineError)
  | begun {turn : ReadTurn} {next : ReadState} (hphase : state.phase = .starting)
      (hcalls : Calls codec state false turn next) (htop : turn.top < state.operation.deadline) :
      Step codec state (.begin turn) next
  | woken {sender : Bool} {delay : Duration} {turn : ReadTurn} {next : ReadState}
      (hphase : state.phase = .backingOff sender delay)
      (hcalls : Calls codec state sender turn next) : Step codec state (.wake turn) next
  | opened {sender : Bool} {deadline : Instant} {request : ReadRowsRequest}
      {telemetry : AttemptTracker}
      (hphase : state.phase = .calling sender deadline request telemetry) :
      Step codec state .opened
        { state with
          phase := .streaming { deadline := deadline, rows := 0, telemetry := telemetry } }
  | failed {input : ReadInput} {telemetry : AttemptTracker} {rows : Nat} {status : Status}
      {turn : ReadTurn} {next : ReadState} (merger : RowMerger)
      (hunderWay : state.phase.underWay = some (telemetry, rows))
      (hfailure : input.failure = some (status, turn))
      (hretries : Retries codec
        ((state.finishAttempt telemetry status.code rows).setMerger merger) state.phase.sender
        status turn next) :
      Step codec state input next
  | message {active : ActiveAttempt} {response : ReadRowsResponse} {next : ReadState}
      (hphase : state.phase = .streaming active)
      (htakes : TakesMessage state active response next) :
      Step codec state (.message response) next
  | sent {active : ActiveAttempt} {before : Int} {row : Row} {chunks : List CellChunk}
      {next : ReadState} (hphase : state.phase = .sending active before row chunks)
      (htakes : TakesChunks
        { state with log := { state.log with items := state.log.items ++ [Except.ok row] } }
        active before chunks next) :
      Step codec state .sent next
  | ended {active : ActiveAttempt} (hphase : state.phase = .streaming active)
      (hfinish : state.operation.merger.finish = .ok ()) :
      Step codec state .streamEnded
        ((state.finishAttempt active.telemetry .ok active.rows).concludeWith .ok .completed)
  | endedEarly {active : ActiveAttempt} {issue : RowMergeIssue}
      (hphase : state.phase = .streaming active)
      (hfinish : state.operation.merger.finish = .error issue) :
      Step codec state .streamEnded
        ((state.finishAttempt active.telemetry .ok active.rows).failWith true .unknown
          (.invalidReadRowsResponse issue))
  | deserted {input : ReadInput} {sender : Bool} {delay : Duration}
      (hphase : state.phase = .backingOff sender delay) (hgone : input.isGone) :
      Step codec state input (state.concludeWith .cancelled .cancelled)
  | abandoned {input : ReadInput} {telemetry : AttemptTracker} {rows : Nat}
      (hunderWay : state.phase.underWay = some (telemetry, rows)) (hgone : input.isGone) :
      Step codec state input
        ((state.finishAttempt telemetry .cancelled rows).concludeWith .cancelled .cancelled)
  | dropped (hlive : ∀ how, state.phase ≠ .finished how) :
      Step codec state .dropped (state.drop (state.phase.underWay.map Prod.fst))
  | reported {error : ReadError} (hphase : state.phase = .terminating error) :
      Step codec state .sent
        ({ state with
          log := { state.log with items := state.log.items ++ [Except.error error] } }.conclude
            (.failed error))
  | unreported {error : ReadError} (hphase : state.phase = .terminating error) :
      Step codec state .sendFailed (state.conclude .cancelled)

/-! ## Inversion -/

variable {codec : Codec} {state next : ReadState} {input : ReadInput}

theorem calls_call (codec : Codec) (state : ReadState) (sender : Bool) (turn : ReadTurn) :
    Calls codec state sender turn (state.call codec sender turn) := by
  cases hrequest : resumeRequest state.operation.original state.operation.progress
      state.operation.rowsReturned with
  | none =>
      simp only [call, hrequest]
      exact .exhausted hrequest
  | some request =>
      cases hremaining : state.operation.remaining turn.call with
      | none =>
          simp only [call, hrequest, hremaining]
          exact .late hremaining
      | some remaining =>
          cases hdeadline : Instant.checkedAdd turn.arm
              (min state.operation.options.deadlines.attemptTimeout remaining) with
          | none =>
              simp only [call, hrequest, hremaining, hdeadline]
              exact .tooLarge hrequest hremaining hdeadline
          | some deadline =>
              simp only [call, hrequest, hremaining, hdeadline]
              split_ifs with htakes
              · exact .issued hrequest hremaining hdeadline htakes
              · exact .panicked hrequest hremaining hdeadline (Bool.not_eq_true _ ▸ htakes)

theorem retries_retry (codec : Codec) (state : ReadState) (sender : Bool) (status : Status)
    (turn : ReadTurn) :
    Retries codec state sender status turn (state.retry codec sender status turn) := by
  simp only [retry]
  split_ifs with htop hrefused
  · exact .late fun hearly => absurd hearly (not_lt.2 htop)
  · exact .refused (not_le.1 htop) hrefused
  · obtain ⟨hretryable, hbudget⟩ := not_or.1 hrefused
    cases hbackoff : backoff codec state.operation.options.retry state.operation.attempts
        turn.draw with
    | none => exact .panicked (not_le.1 htop) (not_not.1 hretryable) (not_le.1 hbudget) hbackoff
    | some drawn =>
        have hbacksOff : state.BacksOff codec status turn := by
          intro _ _ _
          rw [hbackoff]
          rfl
        cases hremaining : state.operation.remaining turn.retry with
        | none => exact .late hbacksOff
        | some remaining =>
            simp only
            split_ifs with hdelay
            · exact .late hbacksOff
            · exact .backedOff (not_not.1 hretryable) (not_le.1 hbudget) hbackoff hremaining
                (not_le.1 hdelay)

theorem retry_eq_backOff {sender : Bool} {status : Status} {turn : ReadTurn}
    {drawn remaining : Duration} (htop : turn.top < state.operation.deadline)
    (hretryable : isRetryable status)
    (hbudget : state.operation.attempts < state.operation.options.retry.maxAttempts.toNat)
    (hbackoff : backoff codec state.operation.options.retry state.operation.attempts
      turn.draw = some drawn)
    (hremaining : state.operation.remaining turn.retry = some remaining)
    (hdelay : max drawn ((retryDelay codec status).getD 0) < remaining) :
    state.retry codec sender status turn =
      state.backOff sender status (max drawn ((retryDelay codec status).getD 0)) := by
  unfold retry
  simp only [if_neg (not_le.2 htop), hretryable, not_true_eq_false, false_or,
    if_neg (not_le.2 hbudget), hbackoff, hremaining, if_neg (not_le.2 hdelay)]
  rfl

theorem retry_eq_panicked {sender : Bool} {status : Status} {turn : ReadTurn}
    (htop : turn.top < state.operation.deadline) (hretryable : isRetryable status)
    (hbudget : state.operation.attempts < state.operation.options.retry.maxAttempts.toNat)
    (hbackoff : backoff codec state.operation.options.retry state.operation.attempts
      turn.draw = none) :
    state.retry codec sender status turn = state.conclude .panicked := by
  unfold retry
  simp only [if_neg (not_le.2 htop), hretryable, not_true_eq_false, false_or,
    if_neg (not_le.2 hbudget), hbackoff]

theorem takesChunks_handleChunks (state : ReadState) (active : ActiveAttempt) (before : Int)
    (chunks : List CellChunk) :
    TakesChunks state active before chunks (state.handleChunks active before chunks) := by
  unfold handleChunks
  rcases hpush : pushUntilRow state.operation.merger chunks with ⟨merger, issue | taken⟩
  · exact .rejected hpush
  · cases taken with
    | some taken => exact .row hpush
    | none =>
        simp only
        split_ifs with hlimit
        · exact .full hpush hlimit
        · exact .drained hpush (Bool.not_eq_true _ ▸ hlimit)

theorem takesMessage_handleResponse (state : ReadState) (active : ActiveAttempt)
    (response : ReadRowsResponse) :
    TakesMessage state active response (state.handleResponse active response) := by
  unfold handleResponse
  by_cases hkey : response.lastScannedRowKey = []
  · simp only [if_pos hkey]
    exact .unmarked hkey (takesChunks_handleChunks _ _ _ _)
  · simp only [if_neg hkey]
    rcases hscan : state.operation.merger.scanMarker response.lastScannedRowKey with
      ⟨merger, issue | ⟨⟩⟩
    · simp only [ReadOperation.report, hscan]
      exact .misplaced hkey hscan
    · simp only [ReadOperation.report, hscan]
      exact .marked hkey hscan (takesChunks_handleChunks _ _ _ _)

theorem step_begin (turn : ReadTurn) (hphase : state.phase = .starting) :
    Step codec state (.begin turn) (state.begin codec turn) := by
  unfold begin
  split_ifs with htop
  · exact .expired hphase htop
  · exact .begun hphase (calls_call _ _ _ _) (not_le.1 htop)

theorem step_refuse {sender : Bool} {deadline : Instant} {request : ReadRowsRequest}
    {telemetry : AttemptTracker} {status : Status} {turn : ReadTurn}
    (hphase : state.phase = .calling sender deadline request telemetry)
    (hfailure : input.failure = some (status, turn)) :
    Step codec state input (state.refuse codec sender telemetry status turn) := by
  have hunderWay : state.phase.underWay = some (telemetry, 0) := by
    rw [hphase]
    rfl
  refine .failed state.operation.merger hunderWay hfailure ?_
  rw [hphase]
  exact retries_retry codec _ sender status turn

theorem step_breakStream {active : ActiveAttempt} {status : Status} {turn : ReadTurn}
    (hphase : state.phase = .streaming active)
    (hfailure : input.failure = some (status, turn)) :
    Step codec state input (state.breakStream codec active status turn) := by
  have hunderWay : state.phase.underWay = some (active.telemetry, active.rows) := by
    rw [hphase]
    rfl
  refine .failed state.operation.merger.discardPartial hunderWay hfailure ?_
  rw [hphase]
  exact retries_retry codec _ true status turn

theorem step_endStream {active : ActiveAttempt} (hphase : state.phase = .streaming active) :
    Step codec state .streamEnded (state.endStream active) := by
  unfold endStream
  cases hfinish : (active.finish state.operation .ok).merger.finish with
  | error issue =>
      simp only [hfinish]
      exact .endedEarly hphase hfinish
  | ok =>
      simp only [hfinish]
      exact .ended hphase hfinish

theorem step_drop {telemetry : Option AttemptTracker}
    (htelemetry : state.phase.underWay.map Prod.fst = telemetry)
    (hlive : ∀ how, state.phase ≠ .finished how) :
    Step codec state .dropped (state.drop telemetry) :=
  htelemetry ▸ .dropped hlive

/-- Every step is of one of these kinds. -/
theorem step_of_step (h : state.step codec input = some next) : Step codec state input next := by
  unfold step at h
  split at h <;> first | cases h; done | obtain rfl := Option.some.inj h
  · next hphase => exact step_begin _ hphase
  · next hphase => exact step_drop (by rw [hphase]; rfl) (by simp [hphase])
  · next hphase => exact .woken hphase (calls_call _ _ _ _)
  · next hphase => exact .deserted hphase rfl
  · next hphase => exact step_drop (by rw [hphase]; rfl) (by simp [hphase])
  · next hphase => exact .opened hphase
  · next hphase => exact step_refuse hphase rfl
  · next hphase => exact step_refuse hphase rfl
  · next hphase => exact .abandoned (by rw [hphase]; rfl) rfl
  · next hphase => exact step_drop (by rw [hphase]; rfl) (by simp [hphase])
  · next hphase => exact .message hphase (takesMessage_handleResponse _ _ _)
  · next hphase => exact step_endStream hphase
  · next hphase => exact step_breakStream hphase rfl
  · next hphase => exact step_breakStream hphase rfl
  · next hphase => exact .abandoned (by rw [hphase]; rfl) rfl
  · next hphase => exact step_drop (by rw [hphase]; rfl) (by simp [hphase])
  · next hphase => exact .sent hphase (takesChunks_handleChunks _ _ _ _)
  · next hphase => exact .abandoned (by rw [hphase]; rfl) rfl
  · next hphase => exact step_drop (by rw [hphase]; rfl) (by simp [hphase])
  · next hphase => exact .reported hphase
  · next hphase => exact .unreported hphase
  · next hphase => exact step_drop (by rw [hphase]; rfl) (by simp [hphase])

/-- While a row waits for the channel, its attempt is not looked at. -/
theorem not_sending_of_failure (hstep : state.step codec input = some next)
    (hfailure : input.failure.isSome) :
    ∀ active before row chunks, state.phase ≠ .sending active before row chunks := by
  intro active before row chunks hphase
  unfold step at hstep
  rw [hphase] at hstep
  cases input with
  | refused status turn => cases hstep
  | openTimedOut turn => cases hstep
  | streamBroke status turn => cases hstep
  | streamTimedOut turn => cases hstep
  | _ => cases hfailure

end ReadState

end BigtableClient
