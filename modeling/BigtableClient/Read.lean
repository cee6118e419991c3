import BigtableClient.ChunkGrammar
import BigtableClient.Resume
import BigtableClient.Telemetry

/-!
# The read operation

`open`, `run` and `handle_response` of one `ReadRows` operation as a machine that
moves from await point to await point.  An input is what the awaited thing did:
the service answered, the timer fired, the consumer went away.  The log keeps what
the operation did to the outside.
-/

namespace BigtableClient

open Proto
open ChunkGrammar (Output)

inductive ReadError where
  | readRows (attempts : Nat) (source : Status)
  | readDeadlineExceeded (attempts : Nat) (timeout : Duration)
  | invalidReadRowsResponse (issue : RowMergeIssue)
  /-- `ReadPolicyIssue::DeadlineTooLarge` -/
  | deadlineTooLarge
  deriving DecidableEq, Repr

structure ReadOperation where
  original : ReadRowsRequest
  options : ReadOptions
  deadline : Instant
  attempts : Nat
  rowsReturned : Int
  progress : Option Bytes
  merger : RowMerger
  telemetry : OperationTracker
  deriving DecidableEq, Repr

structure ActiveAttempt where
  deadline : Instant
  rows : Nat
  telemetry : AttemptTracker
  deriving DecidableEq, Repr

/-- How an operation was over: all of the stream was delivered, an error was reported, the
operation was cancelled, or its task panicked. -/
inductive ReadEnd where
  | completed
  | failed (error : ReadError)
  | cancelled
  | panicked
  deriving DecidableEq, Repr

/-- Where the operation waits.  In `open`, `sender` tells whether `run` called it: then an error
goes to the stream, and a consumer that went away is noticed. -/
inductive ReadPhase where
  /-- before `open` was polled -/
  | starting
  /-- in the backoff sleep -/
  | backingOff (sender : Bool) (delay : Duration)
  /-- for `read_rows` to answer -/
  | calling (sender : Bool) (deadline : Instant) (request : ReadRowsRequest)
      (telemetry : AttemptTracker)
  /-- for the next message -/
  | streaming (active : ActiveAttempt)
  /-- for room in the channel; `before` rows were returned before the message -/
  | sending (active : ActiveAttempt) (before : Int) (row : Row) (chunks : List CellChunk)
  /-- in `send_terminal` -/
  | terminating (error : ReadError)
  | finished (how : ReadEnd)
  deriving DecidableEq, Repr

structure IssuedRead where
  instant : Instant
  timeout : Duration
  request : ReadRowsRequest
  deriving DecidableEq, Repr

structure ReadLog where
  requests : List IssuedRead
  /-- the rows committed and the markers accepted by the merger -/
  accepted : List Output
  /-- the items handed over to the `RowStream` -/
  items : List (Except ReadError Row)

structure ReadState where
  operation : ReadOperation
  phase : ReadPhase
  log : ReadLog

/-- The clock readings of one turn of the loop in `open`, and the random number it draws. -/
structure ReadTurn where
  top : Instant
  retry : Instant
  call : Instant
  arm : Instant
  draw : Nat
  deriving DecidableEq, Repr

inductive ReadInput where
  /-- `open` is polled for the first time -/
  | begin (turn : ReadTurn)
  /-- the backoff sleep is over -/
  | wake (turn : ReadTurn)
  /-- the service answers with a stream -/
  | opened
  /-- the service answers with a status -/
  | refused (status : Status) (turn : ReadTurn)
  | openTimedOut (turn : ReadTurn)
  | message (response : ReadRowsResponse)
  | streamEnded
  | streamBroke (status : Status) (turn : ReadTurn)
  | streamTimedOut (turn : ReadTurn)
  | sent
  | sendFailed
  /-- the consumer dropped the `RowStream` -/
  | closed
  /-- the future itself is dropped -/
  | dropped
  deriving DecidableEq, Repr

/-! ## The operation -/

namespace ReadOperation

def new (original : ReadRowsRequest) (options : ReadOptions) (deadline : Instant)
    (tableId : String) : ReadOperation where
  original := original
  options := options
  deadline := deadline
  attempts := 0
  rowsReturned := 0
  progress := none
  merger := .new original.reversed
  telemetry := .start .readRows tableId 0

/-- Every change of the shared telemetry state goes through the operation. -/
def report (operation : ReadOperation) (change : OperationState → OperationState) :
    ReadOperation :=
  { operation with
    telemetry := { operation.telemetry with state := change operation.telemetry.state } }

def finish (operation : ReadOperation) (code : Code) : ReadOperation :=
  { operation with
    telemetry := operation.telemetry.finish code { rows := operation.rowsReturned.toNat } }

def remaining (operation : ReadOperation) (now : Instant) : Option Duration :=
  (Instant.checkedDurationSince operation.deadline now).filter fun remaining => remaining ≠ 0

def deadlineError (operation : ReadOperation) : ReadError :=
  .readDeadlineExceeded operation.attempts operation.options.deadlines.operationTimeout

def limitReached (operation : ReadOperation) : Bool :=
  operation.original.rowsLimit > 0 ∧ operation.rowsReturned ≥ operation.original.rowsLimit

def discardPartial (operation : ReadOperation) : ReadOperation :=
  { operation with merger := operation.merger.discardPartial }

end ReadOperation

namespace ActiveAttempt

def finish (active : ActiveAttempt) (operation : ReadOperation) (code : Code) : ReadOperation :=
  operation.report fun state => (active.telemetry.finish state code { rows := active.rows }).2

end ActiveAttempt

def attemptDeadlineMessage : String := "ReadRows attempt deadline exceeded"

/-! ## Steps -/

namespace ReadState

def new (original : ReadRowsRequest) (options : ReadOptions) (deadline : Instant)
    (tableId : String) : ReadState where
  operation := .new original options deadline tableId
  phase := .starting
  log := { requests := [], accepted := [], items := [] }

def conclude (state : ReadState) (how : ReadEnd) : ReadState :=
  { state with
    operation := { state.operation with telemetry := state.operation.telemetry.drop }
    phase := .finished how }

def concludeWith (state : ReadState) (code : Code) (how : ReadEnd) : ReadState :=
  { state with operation := state.operation.finish code }.conclude how

/-- `run` sends an error. -/
def terminate (state : ReadState) (error : ReadError) : ReadState :=
  { state with phase := .terminating error }

/-- `open` returns an error: `run` sends it on, `start` returns it. -/
def fail (state : ReadState) (sender : Bool) (error : ReadError) : ReadState :=
  if sender then state.terminate error else state.conclude (.failed error)

/-- Finish the operation with this code, and return an error from `open`. -/
def failWith (state : ReadState) (sender : Bool) (code : Code) (error : ReadError) : ReadState :=
  { state with operation := state.operation.finish code }.fail sender error

/-- The part of the loop in `open` that issues a request. -/
def call (codec : Codec) (state : ReadState) (sender : Bool) (turn : ReadTurn) : ReadState :=
  let operation := state.operation
  match resumeRequest operation.original operation.progress operation.rowsReturned with
  | none => state.concludeWith .ok .completed
  | some message =>
      match operation.remaining turn.call with
      | none => state.failWith sender .deadlineExceeded operation.deadlineError
      | some remaining =>
          let attemptTimeout := min operation.options.deadlines.attemptTimeout remaining
          match Instant.checkedAdd turn.arm attemptTimeout with
          | none => state.fail sender .deadlineTooLarge
          | some attemptDeadline =>
              -- `set_timeout` comes before the attempt is counted
              if ¬ codec.takesTimeout attemptTimeout then
                state.conclude .panicked
              else
                let attempts := operation.attempts + 1
                let (telemetry, shared) :=
                  operation.telemetry.state.attempt none attempts 0 attemptTimeout
                { state with
                  operation := { operation with attempts := attempts }.report fun _ => shared
                  phase := .calling sender attemptDeadline message telemetry
                  log := { state.log with
                    requests := state.log.requests ++
                      [{ instant := turn.arm, timeout := attemptTimeout, request := message }] } }

/-- One turn of the loop in `open` after a failure, up to the backoff sleep. -/
def retry (codec : Codec) (state : ReadState) (sender : Bool) (status : Status)
    (turn : ReadTurn) : ReadState :=
  let operation := state.operation
  if turn.top ≥ operation.deadline then
    state.failWith sender .deadlineExceeded operation.deadlineError
  else if ¬ isRetryable status ∨
      operation.attempts ≥ operation.options.retry.maxAttempts.toNat then
    state.failWith sender status.code (.readRows operation.attempts status)
  else
    match backoff codec operation.options.retry operation.attempts turn.draw with
    | none => state.conclude .panicked
    | some drawn =>
        let delay := max drawn ((retryDelay codec status).getD 0)
        match operation.remaining turn.retry with
        | none => state.failWith sender .deadlineExceeded operation.deadlineError
        | some remaining =>
            if delay ≥ remaining then
              state.failWith sender .deadlineExceeded operation.deadlineError
            else
              { state with
                operation := operation.report fun shared =>
                  shared.retry none operation.attempts status.code delay 0
                phase := .backingOff sender delay }

def begin (codec : Codec) (state : ReadState) (turn : ReadTurn) : ReadState :=
  if turn.top ≥ state.operation.deadline then
    state.failWith false .deadlineExceeded state.operation.deadlineError
  else
    state.call codec false turn

def pushUntilRow (merger : RowMerger) :
    List CellChunk → RowMerger × Except RowMergeIssue (Option (Row × List CellChunk))
  | [] => (merger, .ok none)
  | chunk :: chunks =>
      match merger.push chunk with
      | (merger, .error issue) => (merger, .error issue)
      | (merger, .ok (some row)) => (merger, .ok (some (row, chunks)))
      | (merger, .ok none) => pushUntilRow merger chunks

/-- `handle_response` failed. -/
def rejectResponse (state : ReadState) (active : ActiveAttempt) (issue : RowMergeIssue) :
    ReadState :=
  { state with operation := (active.finish state.operation .unknown).finish .unknown }.terminate
    (.invalidReadRowsResponse issue)

/-- The chunk loop of `handle_response`, and what `run` does after it. -/
def handleChunks (state : ReadState) (active : ActiveAttempt) (before : Int)
    (chunks : List CellChunk) : ReadState :=
  let (merger, result) := pushUntilRow state.operation.merger chunks
  let operation := { state.operation with merger := merger }
  match result with
  | .error issue => { state with operation := operation }.rejectResponse active issue
  | .ok (some (row, rest)) =>
      { state with
        operation :=
          { operation with
            rowsReturned := operation.rowsReturned + 1
            progress := some row.key }
        phase := .sending active before row rest
        log := { state.log with accepted := state.log.accepted ++ [.row row] } }
  | .ok none =>
      let active := { active with rows := active.rows + (operation.rowsReturned - before).toNat }
      if operation.limitReached then
        { state with operation := active.finish operation .ok }.concludeWith .ok .completed
      else
        { state with operation := operation, phase := .streaming active }

/-- A message arrives: its marker comes before its chunks. -/
def handleResponse (state : ReadState) (active : ActiveAttempt) (response : ReadRowsResponse) :
    ReadState :=
  let (telemetry, shared) :=
    active.telemetry.recordFirstResponse state.operation.telemetry.state
  let active := { active with telemetry := telemetry }
  let state := { state with operation := state.operation.report fun _ => shared }
  let before := state.operation.rowsReturned
  let key := response.lastScannedRowKey
  if key = [] then
    state.handleChunks active before response.chunks
  else
    match state.operation.merger.scanMarker key with
    | (merger, .error issue) =>
        { state with operation := { state.operation with merger := merger } }.rejectResponse
          active issue
    | (merger, .ok ()) =>
        handleChunks
          { state with
            operation := { state.operation with merger := merger, progress := some key }
            log := { state.log with accepted := state.log.accepted ++ [.marker key] } }
          active before response.chunks

/-- The stream of an attempt breaks: its partial row is dropped, and `open` is called. -/
def breakStream (codec : Codec) (state : ReadState) (active : ActiveAttempt) (status : Status)
    (turn : ReadTurn) : ReadState :=
  { state with
    operation := (active.finish state.operation status.code).discardPartial }.retry codec true
      status turn

def refuse (codec : Codec) (state : ReadState) (sender : Bool) (telemetry : AttemptTracker)
    (status : Status) (turn : ReadTurn) : ReadState :=
  { state with
    operation := state.operation.report fun shared =>
      (telemetry.finish shared status.code {}).2 }.retry codec sender status turn

def endStream (state : ReadState) (active : ActiveAttempt) : ReadState :=
  let state := { state with operation := active.finish state.operation .ok }
  match state.operation.merger.finish with
  | .error issue =>
      { state with operation := state.operation.finish .unknown }.terminate
        (.invalidReadRowsResponse issue)
  | .ok () => state.concludeWith .ok .completed

/-- The consumer went away while an attempt was under way. -/
def abandon (state : ReadState) (active : ActiveAttempt) : ReadState :=
  { state with operation := active.finish state.operation .cancelled }.concludeWith .cancelled
    .cancelled

/-- The future is dropped: the attempt's tracker goes before the operation's, once the task was
polled. -/
def drop (state : ReadState) (telemetry : Option AttemptTracker) : ReadState :=
  { state with
    operation := state.operation.report fun shared =>
      match telemetry with
      | none => shared
      | some telemetry => telemetry.drop shared }.conclude .cancelled

def step (codec : Codec) (state : ReadState) (input : ReadInput) : Option ReadState :=
  match state.phase, input with
  | .starting, .begin turn => some (state.begin codec turn)
  | .starting, .dropped => some (state.drop none)
  | .backingOff sender _, .wake turn => some (state.call codec sender turn)
  | .backingOff true _, .closed => some (state.concludeWith .cancelled .cancelled)
  | .backingOff _ _, .dropped => some (state.drop none)
  | .calling _ deadline _ telemetry, .opened =>
      some { state with
        phase := .streaming { deadline := deadline, rows := 0, telemetry := telemetry } }
  | .calling sender _ _ telemetry, .refused status turn =>
      some (state.refuse codec sender telemetry status turn)
  | .calling sender _ _ telemetry, .openTimedOut turn =>
      some (state.refuse codec sender telemetry (.deadlineExceeded attemptDeadlineMessage) turn)
  | .calling true _ _ telemetry, .closed =>
      some ({ state with
        operation := state.operation.report fun shared =>
          (telemetry.finish shared .cancelled {}).2 }.concludeWith .cancelled .cancelled)
  | .calling _ _ _ telemetry, .dropped => some (state.drop (some telemetry))
  | .streaming active, .message response => some (state.handleResponse active response)
  | .streaming active, .streamEnded => some (state.endStream active)
  | .streaming active, .streamBroke status turn => some (state.breakStream codec active status turn)
  | .streaming active, .streamTimedOut turn =>
      some (state.breakStream codec active (.deadlineExceeded attemptDeadlineMessage) turn)
  | .streaming active, .closed => some (state.abandon active)
  | .streaming active, .dropped => some (state.drop (some active.telemetry))
  | .sending active before row chunks, .sent =>
      some (handleChunks
        { state with log := { state.log with items := state.log.items ++ [Except.ok row] } }
        active before chunks)
  | .sending active _ _ _, .sendFailed => some (state.abandon active)
  | .sending active _ _ _, .dropped => some (state.drop (some active.telemetry))
  | .terminating error, .sent =>
      some ({ state with
        log := { state.log with items := state.log.items ++ [Except.error error] } }.conclude
          (.failed error))
  | .terminating _, .sendFailed => some (state.conclude .cancelled)
  | .terminating _, .dropped => some (state.drop none)
  | _, _ => none

/-! ## Panics -/

def BacksOff (codec : Codec) (state : ReadState) (status : Status) (turn : ReadTurn) : Prop :=
  turn.top < state.operation.deadline → isRetryable status →
    state.operation.attempts < state.operation.options.retry.maxAttempts.toNat →
    (backoff codec state.operation.options.retry state.operation.attempts turn.draw).isSome

def FitsTimeout (codec : Codec) (state : ReadState) (turn : ReadTurn) : Prop :=
  (resumeRequest state.operation.original state.operation.progress
    state.operation.rowsReturned).isSome →
    ∀ remaining ∈ state.operation.remaining turn.call,
      (Instant.checkedAdd turn.arm
        (min state.operation.options.deadlines.attemptTimeout remaining)).isSome →
      codec.takesTimeout (min state.operation.options.deadlines.attemptTimeout remaining)

/-- Neither the backoff nor the timeout of a request panics in the step. -/
def Withstands (codec : Codec) (state : ReadState) : ReadInput → Prop
  | .begin turn => turn.top < state.operation.deadline → state.FitsTimeout codec turn
  | .wake turn => state.FitsTimeout codec turn
  | .refused status turn => state.BacksOff codec status turn
  | .openTimedOut turn => state.BacksOff codec (.deadlineExceeded attemptDeadlineMessage) turn
  | .streamBroke status turn => state.BacksOff codec status turn
  | .streamTimedOut turn => state.BacksOff codec (.deadlineExceeded attemptDeadlineMessage) turn
  | _ => True

instance (codec : Codec) (state : ReadState) (status : Status) (turn : ReadTurn) :
    Decidable (state.BacksOff codec status turn) :=
  inferInstanceAs (Decidable (_ → _ → _ → _))

instance (codec : Codec) (state : ReadState) (turn : ReadTurn) :
    Decidable (state.FitsTimeout codec turn) :=
  inferInstanceAs (Decidable (_ → ∀ remaining ∈ state.operation.remaining turn.call, _ → _))

instance (codec : Codec) (state : ReadState) : DecidablePred (state.Withstands codec)
  | .begin turn =>
      inferInstanceAs
        (Decidable (turn.top < state.operation.deadline → state.FitsTimeout codec turn))
  | .wake turn => inferInstanceAs (Decidable (state.FitsTimeout codec turn))
  | .refused status turn => inferInstanceAs (Decidable (state.BacksOff codec status turn))
  | .openTimedOut turn =>
      inferInstanceAs (Decidable
        (state.BacksOff codec (.deadlineExceeded attemptDeadlineMessage) turn))
  | .streamBroke status turn => inferInstanceAs (Decidable (state.BacksOff codec status turn))
  | .streamTimedOut turn =>
      inferInstanceAs (Decidable
        (state.BacksOff codec (.deadlineExceeded attemptDeadlineMessage) turn))
  | .opened => inferInstanceAs (Decidable True)
  | .message _ => inferInstanceAs (Decidable True)
  | .streamEnded => inferInstanceAs (Decidable True)
  | .sent => inferInstanceAs (Decidable True)
  | .sendFailed => inferInstanceAs (Decidable True)
  | .closed => inferInstanceAs (Decidable True)
  | .dropped => inferInstanceAs (Decidable True)

end ReadState

end BigtableClient
