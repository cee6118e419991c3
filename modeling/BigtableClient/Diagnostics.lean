import BigtableClient.Telemetry

/-!
# What the diagnostics report

Numbers read off the events of an operation that is over.
-/

namespace BigtableClient

/-- What the last event reports. -/
structure OperationEnd where
  code : Code
  attempts : UInt32
  retries : UInt32
  summary : OperationSummary
  deriving DecidableEq, Repr

def DiagnosticEvent.operationEnd? : DiagnosticEvent → Option OperationEnd
  | .operationFinished _ code attempts retries rows successfulEntries failedEntries =>
      some
        { code := code
          attempts := attempts
          retries := retries
          summary :=
            { rows := rows
              successfulEntries := successfulEntries
              failedEntries := failedEntries } }
  | _ => none

def operationEnd? (events : List DiagnosticEvent) : Option OperationEnd :=
  events.getLast?.bind DiagnosticEvent.operationEnd?

def DiagnosticEvent.attemptSummary? : DiagnosticEvent → Option AttemptSummary
  | .attemptFinished _ _ _ _ rows successfulEntries failedEntries =>
      some
        { rows := rows
          successfulEntries := successfulEntries
          failedEntries := failedEntries }
  | _ => none

/-- One number of the summaries, added up over all attempts. -/
def attemptTotal (field : AttemptSummary → Nat) (events : List DiagnosticEvent) : Nat :=
  ((events.filterMap DiagnosticEvent.attemptSummary?).map field).sum

abbrev attemptRows : List DiagnosticEvent → Nat := attemptTotal AttemptSummary.rows

abbrev attemptSuccesses : List DiagnosticEvent → Nat :=
  attemptTotal AttemptSummary.successfulEntries

/-! ## What the trackers add -/

theorem attemptTotal_emit (field : AttemptSummary → Nat) (state : OperationState)
    (event : DiagnosticEvent) :
    attemptTotal field (state.emit event).events =
      attemptTotal field state.events + (event.attemptSummary?.map field).getD 0 := by
  simp only [attemptTotal, OperationState.emit, List.filterMap_append, List.map_append,
    List.sum_append]
  cases h : event.attemptSummary? with
  | none => simp [h]
  | some summary => simp [h]

theorem attemptTotal_attempt (field : AttemptSummary → Nat) (state : OperationState)
    (batch : Option Nat) (attempt entries : Nat) (timeout : Duration) :
    attemptTotal field (state.attempt batch attempt entries timeout).2.events =
      attemptTotal field state.events :=
  attemptTotal_emit field _ _

theorem attemptTotal_retry (field : AttemptSummary → Nat) (state : OperationState)
    (batch : Option Nat) (attempt : Nat) (code : Code) (delay : Duration) (pendingEntries : Nat) :
    attemptTotal field (state.retry batch attempt code delay pendingEntries).events =
      attemptTotal field state.events :=
  attemptTotal_emit field _ _

theorem attemptTotal_recordFirstResponse (field : AttemptSummary → Nat)
    (telemetry : AttemptTracker) (state : OperationState) :
    attemptTotal field (telemetry.recordFirstResponse state).2.events =
      attemptTotal field state.events := by
  unfold AttemptTracker.recordFirstResponse
  split_ifs
  · rfl
  · exact attemptTotal_emit field _ _

theorem attemptTotal_finish (field : AttemptSummary → Nat) {telemetry : AttemptTracker}
    (h : telemetry.finished = false) (state : OperationState) (code : Code)
    (summary : AttemptSummary) :
    attemptTotal field (telemetry.finish state code summary).2.events =
      attemptTotal field state.events + field summary := by
  rw [AttemptTracker.finish, if_neg (by simp [h])]
  exact attemptTotal_emit field _ _

theorem attemptTotal_drop {field : AttemptSummary → Nat} (hzero : field {} = 0)
    (telemetry : AttemptTracker) (state : OperationState) :
    attemptTotal field (telemetry.drop state).events = attemptTotal field state.events := by
  unfold AttemptTracker.drop
  split_ifs
  · rfl
  · apply (attemptTotal_emit field _ _).trans
    show _ + field {} = _
    rw [hzero, Nat.add_zero]

theorem attemptTotal_recordFinish (field : AttemptSummary → Nat) (tracker : OperationTracker)
    (code : Code) (summary : OperationSummary) :
    attemptTotal field (tracker.recordFinish code summary).state.events =
      attemptTotal field tracker.state.events :=
  attemptTotal_emit field _ _

theorem operationEnd?_recordFinish (tracker : OperationTracker) (code : Code)
    (summary : OperationSummary) :
    operationEnd? (tracker.recordFinish code summary).state.events =
      some
        { code := code
          attempts := tracker.state.attempts
          retries := tracker.state.retries
          summary := summary } := by
  simp [operationEnd?, OperationTracker.recordFinish, OperationState.emit,
    DiagnosticEvent.operationEnd?]

theorem operationEnd?_finish {tracker : OperationTracker} (h : tracker.finished = false)
    (code : Code) (summary : OperationSummary) :
    operationEnd? (tracker.finish code summary).state.events =
      some
        { code := code
          attempts := tracker.state.attempts
          retries := tracker.state.retries
          summary := summary } := by
  rw [OperationTracker.finish, if_neg (by simp [h])]
  exact operationEnd?_recordFinish tracker code summary

end BigtableClient
