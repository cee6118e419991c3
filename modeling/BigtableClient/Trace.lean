import BigtableClient.ProofSupport.Brackets
import BigtableClient.Telemetry

/-!
# Well-bracketed traces

What the diagnostics of an operation should look like once it is over.  The attempts
of one batch, or of a read, are a lane of their own, and the lanes may interleave.
-/

namespace BigtableClient

open ProofSupport.Brackets

/-- What an event says about an attempt: its lane, what happened, and its number. -/
def DiagnosticEvent.mark? : DiagnosticEvent → Option (Option Nat × Mark × Nat)
  | .operationStarted _ _ _ => none
  | .attemptStarted _ batch attempt _ _ => some (batch, .start, attempt)
  | .firstResponse _ batch attempt => some (batch, .note, attempt)
  | .retryScheduled _ batch attempt _ _ _ => some (batch, .again, attempt)
  | .attemptFinished _ batch attempt _ _ _ _ => some (batch, .stop, attempt)
  | .operationFinished _ _ _ _ _ _ _ => none

def inLane (lane : Option Nat) : Option Nat × Mark × Nat → Option (Mark × Nat)
  | (other, mark) => if other = lane then some mark else none

def laneMarks (lane : Option Nat) (events : List DiagnosticEvent) : List (Mark × Nat) :=
  events.filterMap fun event => event.mark?.bind (inLane lane)

def countMarks (mark : Mark) (events : List DiagnosticEvent) : Nat :=
  events.countP fun event => event.mark?.any fun found => found.2.1 = mark

structure OperationTrace where
  operation : BigtableOperation
  tableId : String
  entries : Nat
  /-- what came between the start and the end -/
  body : List DiagnosticEvent
  code : Code
  attempts : UInt32
  retries : UInt32
  summary : OperationSummary

namespace OperationTrace

def events (trace : OperationTrace) : List DiagnosticEvent :=
  .operationStarted trace.operation trace.tableId trace.entries :: trace.body ++
    [.operationFinished trace.operation trace.code trace.attempts trace.retries
      trace.summary.rows trace.summary.successfulEntries trace.summary.failedEntries]

/-- Between the start and the end there are only attempts of these lanes, and each lane is a log
of numbered brackets. -/
structure WellBracketed (lanes : List (Option Nat)) (trace : OperationTrace) : Prop where
  body : ∀ event ∈ trace.body, ∃ lane ∈ lanes, ∃ mark, event.mark? = some (lane, mark)
  numbered : ∀ lane, ∃ count, Closed (laneMarks lane trace.body) count
  attempts : trace.attempts.toNat = countMarks .start trace.body % 2 ^ 32
  retries : trace.retries.toNat = countMarks .again trace.body % 2 ^ 32

structure Counts (trace : OperationTrace) : Prop where
  attempts : trace.attempts.toNat = countMarks .start trace.body
  retries : trace.retries.toNat = countMarks .again trace.body

end OperationTrace

end BigtableClient
