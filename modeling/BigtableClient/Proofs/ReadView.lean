import BigtableClient.Read
import BigtableClient.ProofSupport.Transition

/-!
# The read operation without its telemetry

The position of a read is its progress, its merger, its row counter and its phase.
`ReadView` keeps those and forgets deadlines, attempts and diagnostics; every step
of the operation is a move of the view.
-/

namespace BigtableClient

open Proto
open ChunkGrammar (Output)

/-- The phases of a read, waiting before a request in one of them. -/
inductive ViewPhase where
  | idle
  | calling (request : ReadRowsRequest)
  | streaming
  | sending (row : Row) (chunks : List CellChunk)
  | failing (error : ReadError)
  | concluded (how : ReadEnd)

structure ReadView where
  original : ReadRowsRequest
  rowsReturned : Int
  progress : Option Bytes
  merger : RowMerger
  phase : ViewPhase
  requests : List ReadRowsRequest
  accepted : List Output
  items : List (Except ReadError Row)

def ReadPhase.view : ReadPhase → ViewPhase
  | .starting => .idle
  | .backingOff _ _ => .idle
  | .calling _ _ request _ => .calling request
  | .streaming _ => .streaming
  | .sending _ _ row chunks => .sending row chunks
  | .terminating error => .failing error
  | .finished how => .concluded how

def ReadState.view (state : ReadState) : ReadView where
  original := state.operation.original
  rowsReturned := state.operation.rowsReturned
  progress := state.operation.progress
  merger := state.operation.merger
  phase := state.phase.view
  requests := state.log.requests.map IssuedRead.request
  accepted := state.log.accepted
  items := state.log.items

namespace ReadView

def limitReached (view : ReadView) : Prop :=
  view.original.rowsLimit > 0 ∧ view.rowsReturned ≥ view.original.rowsLimit

instance (view : ReadView) : Decidable view.limitReached :=
  inferInstanceAs (Decidable (_ ∧ _))

def takeChunks (view : ReadView) (chunks : List CellChunk) : ReadView :=
  match ReadState.pushUntilRow view.merger chunks with
  | (merger, .error issue) =>
      { view with merger := merger, phase := .failing (.invalidReadRowsResponse issue) }
  | (merger, .ok (some (row, rest))) =>
      { view with
        merger := merger
        rowsReturned := view.rowsReturned + 1
        progress := some row.key
        phase := .sending row rest
        accepted := view.accepted ++ [.row row] }
  | (merger, .ok none) =>
      { view with
        merger := merger
        phase := if view.limitReached then .concluded .completed else .streaming }

/-- The merger takes a message: its marker, which moves the progress, then its chunks. -/
def takeMessage (view : ReadView) (response : ReadRowsResponse) : ReadView :=
  if response.lastScannedRowKey = [] then
    view.takeChunks response.chunks
  else
    match view.merger.scanMarker response.lastScannedRowKey with
    | (merger, .error issue) =>
        { view with merger := merger, phase := .failing (.invalidReadRowsResponse issue) }
    | (merger, .ok ()) =>
        takeChunks
          { view with
            merger := merger
            progress := some response.lastScannedRowKey
            accepted := view.accepted ++ [.marker response.lastScannedRowKey] }
          response.chunks

def Halted : ViewPhase → Prop
  | .failing error => ∀ issue, error ≠ .invalidReadRowsResponse issue
  | .concluded (.failed error) => ∀ issue, error ≠ .invalidReadRowsResponse issue
  | .concluded .cancelled => True
  | .concluded .panicked => True
  | _ => False

def Live : ViewPhase → Prop
  | .concluded _ => False
  | _ => True

/-- The moves of a read. -/
inductive Move : ReadView → ReadInput → ReadView → Prop
  | halt {view : ReadView} {input : ReadInput} {phase : ViewPhase} (hlive : Live view.phase)
      (hhalted : Halted phase) : Move view input { view with phase := phase }
  | exhaust {view : ReadView} {input : ReadInput} (hidle : view.phase = .idle)
      (hrequest : resumeRequest view.original view.progress view.rowsReturned = none) :
      Move view input { view with phase := .concluded .completed }
  | call {view : ReadView} {input : ReadInput} {request : ReadRowsRequest}
      (hidle : view.phase = .idle)
      (hrequest : resumeRequest view.original view.progress view.rowsReturned = some request) :
      Move view input
        { view with phase := .calling request, requests := view.requests ++ [request] }
  | refuse {view : ReadView} {input : ReadInput} {request : ReadRowsRequest}
      (hcalling : view.phase = .calling request) : Move view input { view with phase := .idle }
  | opened {view : ReadView} {request : ReadRowsRequest}
      (hcalling : view.phase = .calling request) :
      Move view .opened { view with phase := .streaming }
  | message {view : ReadView} {response : ReadRowsResponse}
      (hstreaming : view.phase = .streaming) :
      Move view (.message response) (view.takeMessage response)
  | sent {view : ReadView} {row : Row} {chunks : List CellChunk}
      (hsending : view.phase = .sending row chunks) :
      Move view .sent ({ view with items := view.items ++ [Except.ok row] }.takeChunks chunks)
  | breakOff {view : ReadView} {input : ReadInput} {phase : ViewPhase}
      (hstreaming : view.phase = .streaming) (hphase : phase = .idle ∨ Halted phase) :
      Move view input { view with merger := view.merger.discardPartial, phase := phase }
  | ended {view : ReadView} (hstreaming : view.phase = .streaming)
      (hfinish : view.merger.finish = .ok ()) :
      Move view .streamEnded { view with phase := .concluded .completed }
  | endedEarly {view : ReadView} {issue : RowMergeIssue} (hstreaming : view.phase = .streaming)
      (hfinish : view.merger.finish = .error issue) :
      Move view .streamEnded { view with phase := .failing (.invalidReadRowsResponse issue) }
  | report {view : ReadView} {error : ReadError} (hfailing : view.phase = .failing error) :
      Move view .sent
        { view with
          phase := .concluded (.failed error)
          items := view.items ++ [Except.error error] }

end ReadView

/-! ## Steps are moves -/

namespace ReadState

open ReadView (Move Halted Live)

variable {state next : ReadState} {input : ReadInput}

theorem view_failWith (state : ReadState) (sender : Bool) (code : Code) {error : ReadError}
    (herror : ∀ issue, error ≠ .invalidReadRowsResponse issue) :
    ∃ phase, Halted phase ∧
      (state.failWith sender code error).view = { state.view with phase := phase } := by
  cases sender with
  | true => exact ⟨.failing error, herror, rfl⟩
  | false => exact ⟨.concluded (.failed error), herror, rfl⟩

theorem view_fail_deadlineTooLarge (state : ReadState) (sender : Bool) :
    ∃ phase, Halted phase ∧
      (state.fail sender .deadlineTooLarge).view = { state.view with phase := phase } := by
  cases sender with
  | true => exact ⟨.failing .deadlineTooLarge, by simp [Halted], rfl⟩
  | false => exact ⟨.concluded (.failed .deadlineTooLarge), by simp [Halted], rfl⟩

theorem deadlineError_ne (operation : ReadOperation) (issue : RowMergeIssue) :
    operation.deadlineError ≠ .invalidReadRowsResponse issue := by
  simp [ReadOperation.deadlineError]

theorem move_call (codec : Codec) (sender : Bool) (turn : ReadTurn)
    (hidle : state.view.phase = .idle) :
    Move state.view input (state.call codec sender turn).view := by
  cases hrequest : resumeRequest state.operation.original state.operation.progress
      state.operation.rowsReturned with
  | none =>
      simp only [call, hrequest]
      exact Move.exhaust hidle hrequest
  | some request =>
      cases hremaining : state.operation.remaining turn.call with
      | none =>
          obtain ⟨phase, hhalted, hview⟩ :=
            state.view_failWith sender .deadlineExceeded (deadlineError_ne state.operation)
          simp only [call, hrequest, hremaining, hview]
          exact Move.halt (hidle ▸ trivial) hhalted
      | some remaining =>
          cases hdeadline : Instant.checkedAdd turn.arm
              (min state.operation.options.deadlines.attemptTimeout remaining) with
          | none =>
              obtain ⟨phase, hhalted, hview⟩ := state.view_fail_deadlineTooLarge sender
              simp only [call, hrequest, hremaining, hdeadline, hview]
              exact Move.halt (hidle ▸ trivial) hhalted
          | some deadline =>
              simp only [call, hrequest, hremaining, hdeadline]
              split_ifs with htakes
              · have hmove : Move state.view input _ := Move.call hidle hrequest
                simpa [view, ReadOperation.report, ReadPhase.view] using hmove
              · have hlive : Live state.view.phase := hidle ▸ trivial
                have hpanicked : Halted (.concluded .panicked) := trivial
                exact Move.halt hlive hpanicked

theorem view_retry (codec : Codec) (sender : Bool) (status : Status) (turn : ReadTurn) :
    ∃ phase, (phase = .idle ∨ Halted phase) ∧
      (state.retry codec sender status turn).view = { state.view with phase := phase } := by
  have hdeadline : ∃ phase, (phase = .idle ∨ Halted phase) ∧
      (state.failWith sender .deadlineExceeded state.operation.deadlineError).view =
        { state.view with phase := phase } := by
    obtain ⟨phase, hhalted, hview⟩ :=
      state.view_failWith sender .deadlineExceeded (deadlineError_ne state.operation)
    exact ⟨phase, Or.inr hhalted, hview⟩
  simp only [retry]
  split_ifs with htop hstatus
  · exact hdeadline
  · have herror : ∀ issue, ReadError.readRows state.operation.attempts status ≠
        .invalidReadRowsResponse issue := by simp
    obtain ⟨phase, hhalted, hview⟩ := state.view_failWith sender status.code herror
    exact ⟨phase, Or.inr hhalted, hview⟩
  · cases hbackoff : backoff codec state.operation.options.retry state.operation.attempts
        turn.draw with
    | none => exact ⟨.concluded .panicked, Or.inr trivial, rfl⟩
    | some drawn =>
        cases hremaining : state.operation.remaining turn.retry with
        | none => exact hdeadline
        | some remaining =>
            simp only
            split_ifs
            · exact hdeadline
            · exact ⟨.idle, Or.inl rfl, rfl⟩

theorem view_handleChunks (active : ActiveAttempt) (before : Int) (chunks : List CellChunk) :
    (state.handleChunks active before chunks).view = state.view.takeChunks chunks := by
  unfold handleChunks ReadView.takeChunks
  rcases hpush : pushUntilRow state.operation.merger chunks with ⟨merger, issue | taken⟩
  · have hpush' : pushUntilRow state.view.merger chunks = (merger, .error issue) := hpush
    rw [hpush']
    rfl
  · have hpush' : pushUntilRow state.view.merger chunks = (merger, .ok taken) := hpush
    rw [hpush']
    cases taken with
    | some taken => rfl
    | none =>
        have hiff : ({ state.operation with merger := merger } : ReadOperation).limitReached =
            true ↔ state.view.limitReached := by
          simp [ReadOperation.limitReached, ReadView.limitReached, view]
        simp only
        by_cases hlimit : state.view.limitReached
        · rw [if_pos hlimit, if_pos (hiff.2 hlimit)]
          rfl
        · rw [if_neg hlimit, if_neg (fun h => hlimit (hiff.1 h))]
          rfl

theorem view_handleResponse (active : ActiveAttempt) (response : ReadRowsResponse) :
    (state.handleResponse active response).view = state.view.takeMessage response := by
  unfold handleResponse ReadView.takeMessage
  by_cases hkey : response.lastScannedRowKey = []
  · simp only [if_pos hkey]
    rw [view_handleChunks]
    rfl
  · simp only [if_neg hkey]
    rcases hscan : state.operation.merger.scanMarker response.lastScannedRowKey with
      ⟨merger, issue | ⟨⟩⟩
    · have hscan' : state.view.merger.scanMarker response.lastScannedRowKey =
          (merger, .error issue) := hscan
      rw [hscan']
      simp only [ReadOperation.report, hscan]
      rfl
    · have hscan' : state.view.merger.scanMarker response.lastScannedRowKey =
          (merger, .ok ()) := hscan
      rw [hscan']
      simp only [ReadOperation.report, hscan]
      rw [view_handleChunks]
      rfl

theorem move_begin (codec : Codec) (turn : ReadTurn) (hidle : state.view.phase = .idle) :
    Move state.view input (state.begin codec turn).view := by
  unfold begin
  split_ifs
  · obtain ⟨phase, hhalted, hview⟩ :=
      state.view_failWith false .deadlineExceeded (deadlineError_ne state.operation)
    rw [hview]
    exact Move.halt (hidle ▸ trivial) hhalted
  · exact move_call codec false turn hidle

theorem move_refuse {request : ReadRowsRequest} (codec : Codec) (sender : Bool)
    (telemetry : AttemptTracker) (status : Status) (turn : ReadTurn)
    (hcalling : state.view.phase = .calling request) :
    Move state.view input (state.refuse codec sender telemetry status turn).view := by
  unfold refuse
  generalize hfinished : ({ state with
    operation := state.operation.report fun shared =>
      (telemetry.finish shared status.code {}).2 } : ReadState) = finished
  have hsame : finished.view = state.view := by
    rw [← hfinished]
    rfl
  obtain ⟨phase, hphase, hview⟩ := @view_retry finished codec sender status turn
  rw [hview, hsame]
  rcases hphase with rfl | hhalted
  · exact Move.refuse hcalling
  · exact Move.halt (hcalling ▸ trivial) hhalted

theorem move_breakStream (codec : Codec) (active : ActiveAttempt) (status : Status)
    (turn : ReadTurn) (hstreaming : state.view.phase = .streaming) :
    Move state.view input (state.breakStream codec active status turn).view := by
  unfold breakStream
  generalize hfinished : ({ state with
    operation := (active.finish state.operation status.code).discardPartial } : ReadState) =
      finished
  have hsame : finished.view =
      { state.view with merger := state.view.merger.discardPartial } := by
    rw [← hfinished]
    rfl
  obtain ⟨phase, hphase, hview⟩ := @view_retry finished codec true status turn
  rw [hview, hsame]
  exact Move.breakOff hstreaming hphase

theorem move_endStream (active : ActiveAttempt) (hstreaming : state.view.phase = .streaming) :
    Move state.view .streamEnded (state.endStream active).view := by
  unfold endStream
  cases hfinish : (active.finish state.operation .ok).merger.finish with
  | error issue =>
      simp only [hfinish]
      exact Move.endedEarly hstreaming hfinish
  | ok =>
      simp only [hfinish]
      exact Move.ended hstreaming hfinish

/-- Every step of the operation is a move of its view. -/
theorem move_of_step {codec : Codec} (hstep : state.step codec input = some next) :
    Move state.view input next.view := by
  have hcancel : Live state.view.phase →
      Move state.view input { state.view with phase := .concluded .cancelled } :=
    fun hlive => Move.halt hlive trivial
  cases hphase : state.phase with
  | starting =>
      have hidle : state.view.phase = .idle := congrArg ReadPhase.view hphase
      cases input <;> simp only [step, hphase, Option.some.injEq, reduceCtorEq] at hstep
      · exact hstep ▸ move_begin codec _ hidle
      · exact hstep ▸ hcancel (hidle ▸ trivial)
  | backingOff sender delay =>
      have hidle : state.view.phase = .idle := congrArg ReadPhase.view hphase
      cases input <;> simp only [step, hphase, Option.some.injEq, reduceCtorEq] at hstep
      · exact hstep ▸ move_call codec sender _ hidle
      · cases sender <;> simp only [Option.some.injEq, reduceCtorEq] at hstep
        exact hstep ▸ hcancel (hidle ▸ trivial)
      · exact hstep ▸ hcancel (hidle ▸ trivial)
  | calling sender deadline request telemetry =>
      have hcalling : state.view.phase = .calling request := congrArg ReadPhase.view hphase
      cases input <;> simp only [step, hphase, Option.some.injEq, reduceCtorEq] at hstep
      · exact hstep ▸ Move.opened hcalling
      · exact hstep ▸ move_refuse codec sender telemetry _ _ hcalling
      · exact hstep ▸ move_refuse codec sender telemetry _ _ hcalling
      · cases sender <;> simp only [Option.some.injEq, reduceCtorEq] at hstep
        exact hstep ▸ hcancel (hcalling ▸ trivial)
      · exact hstep ▸ hcancel (hcalling ▸ trivial)
  | streaming active =>
      have hstreaming : state.view.phase = .streaming := congrArg ReadPhase.view hphase
      cases input <;> simp only [step, hphase, Option.some.injEq, reduceCtorEq] at hstep
      · rw [← hstep, view_handleResponse]
        exact Move.message hstreaming
      · exact hstep ▸ move_endStream active hstreaming
      · exact hstep ▸ move_breakStream codec active _ _ hstreaming
      · exact hstep ▸ move_breakStream codec active _ _ hstreaming
      · exact hstep ▸ hcancel (hstreaming ▸ trivial)
      · exact hstep ▸ hcancel (hstreaming ▸ trivial)
  | sending active before row chunks =>
      have hsending : state.view.phase = .sending row chunks := congrArg ReadPhase.view hphase
      cases input <;> simp only [step, hphase, Option.some.injEq, reduceCtorEq] at hstep
      · rw [← hstep, view_handleChunks]
        exact Move.sent hsending
      · exact hstep ▸ hcancel (hsending ▸ trivial)
      · exact hstep ▸ hcancel (hsending ▸ trivial)
  | terminating error =>
      have hfailing : state.view.phase = .failing error := congrArg ReadPhase.view hphase
      cases input <;> simp only [step, hphase, Option.some.injEq, reduceCtorEq] at hstep
      · exact hstep ▸ Move.report hfailing
      · exact hstep ▸ hcancel (hfailing ▸ trivial)
      · exact hstep ▸ hcancel (hfailing ▸ trivial)
  | finished how =>
      cases input <;> simp [step, hphase] at hstep

end ReadState

end BigtableClient
