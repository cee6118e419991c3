import BigtableClient.Proofs.Journal
import BigtableClient.Proofs.ReadSteps

/-!
# The trace of a read

A read has one lane.  Its attempts are numbered brackets there, an attempt is open
exactly while it is under way, and the end of the operation closes the trace, whether
the operation is finished or its drop guard runs.
-/

namespace BigtableClient.ReadState

open Proto
open ProofSupport.Brackets ProofSupport.Transition

variable {codec : Codec} {state next : ReadState} {input : ReadInput}
  {tracker : OperationTracker} {telemetry : AttemptTracker} {attempts : Nat}

/-- The operation is not over, and its events say so. -/
structure Running (tracker : OperationTracker) : Prop where
  unfinished : tracker.finished = false
  journal : Journal [none] tracker.state

structure Idle (tracker : OperationTracker) (attempts : Nat) : Prop extends Running tracker where
  closed : Closed (laneMarks none tracker.state.events) attempts

structure JustOver (tracker : OperationTracker) (attempts : Nat) : Prop
    extends Running tracker where
  fresh : Fresh (laneMarks none tracker.state.events) attempts

structure InAttempt (tracker : OperationTracker) (attempts : Nat) (telemetry : AttemptTracker) :
    Prop extends Running tracker where
  opened : telemetry.IsOpen none attempts tracker.state

def TraceOver (attempts : Nat) (events : List DiagnosticEvent) : Prop :=
  ∃ trace : OperationTrace, events = trace.events ∧ trace.WellBracketed [none] ∧
    Closed (laneMarks none trace.body) attempts

structure Over (tracker : OperationTracker) (attempts : Nat) : Prop where
  finished : tracker.finished = true
  trace : TraceOver attempts tracker.state.events

/-- What holds of the events, by the phase. -/
def PhaseTraced (tracker : OperationTracker) (attempts : Nat) : ReadPhase → Prop
  | .terminating _ => Over tracker attempts ∨ Idle tracker attempts
  | .finished _ => TraceOver attempts tracker.state.events
  | .starting => Idle tracker attempts
  | .backingOff _ _ => Idle tracker attempts
  | .calling _ _ _ telemetry => InAttempt tracker attempts telemetry
  | .streaming active => InAttempt tracker attempts active.telemetry
  | .sending active _ _ _ => InAttempt tracker attempts active.telemetry

abbrev Traced (state : ReadState) : Prop :=
  PhaseTraced state.operation.telemetry state.operation.attempts state.phase

/-! ## The end of an operation -/

theorem JustOver.idle (h : JustOver tracker attempts) : Idle tracker attempts :=
  ⟨h.toRunning, h.fresh.closed⟩

theorem Idle.traceOver_recordFinish (h : Idle tracker attempts) (code : Code)
    (summary : OperationSummary) :
    TraceOver attempts (tracker.recordFinish code summary).state.events := by
  have hclosed : ∀ lane ∈ [none],
      ∃ count, Closed (laneMarks lane tracker.state.events) count := by
    intro lane hlane
    rw [List.mem_singleton.1 hlane]
    exact ⟨attempts, h.closed⟩
  obtain ⟨trace, hevents, hbracketed, -, hmarks⟩ := h.journal.recordFinish hclosed code summary
  exact ⟨trace, hevents, hbracketed, (hmarks none).symm ▸ h.closed⟩

theorem Idle.finish (h : Idle tracker attempts) (code : Code) (summary : OperationSummary) :
    Over (tracker.finish code summary) attempts := by
  rw [OperationTracker.finish, if_neg (by simp [h.unfinished])]
  exact ⟨rfl, h.traceOver_recordFinish code summary⟩

theorem traceOver_drop (h : Over tracker attempts ∨ Idle tracker attempts) :
    TraceOver attempts tracker.drop.state.events := by
  rcases h with hover | hidle
  · rw [OperationTracker.drop, if_pos hover.finished]
    exact hover.trace
  · rw [OperationTracker.drop, if_neg (by simp [hidle.unfinished])]
    exact hidle.traceOver_recordFinish .cancelled {}

theorem traced_concludeWith (h : Idle state.operation.telemetry state.operation.attempts)
    (code : Code) (how : ReadEnd) : (state.concludeWith code how).Traced :=
  traceOver_drop (Or.inl (h.finish code _))

theorem traced_fail
    (h : Over state.operation.telemetry state.operation.attempts ∨
      Idle state.operation.telemetry state.operation.attempts) (sender : Bool)
    (error : ReadError) : (state.fail sender error).Traced := by
  cases sender with
  | true => exact h
  | false => exact traceOver_drop h

theorem traced_failWith (h : Idle state.operation.telemetry state.operation.attempts)
    (sender : Bool) (code : Code) (error : ReadError) :
    (state.failWith sender code error).Traced := by
  have hover := h.finish code { rows := state.operation.rowsReturned.toNat }
  cases sender with
  | true => exact Or.inl hover
  | false => exact traceOver_drop (Or.inl hover)

/-! ## Attempts -/

theorem InAttempt.finish (h : InAttempt tracker attempts telemetry) (code : Code)
    (summary : AttemptSummary) :
    JustOver { tracker with state := (telemetry.finish tracker.state code summary).2 }
      attempts := by
  obtain ⟨hlogs, hfresh⟩ := h.opened.finish code summary
  exact ⟨⟨h.unfinished, h.journal.logs (List.mem_singleton.2 rfl) hlogs⟩, hfresh⟩

theorem InAttempt.drop (h : InAttempt tracker attempts telemetry) :
    JustOver { tracker with state := telemetry.drop tracker.state } attempts := by
  obtain ⟨hlogs, hfresh⟩ := h.opened.drop
  exact ⟨⟨h.unfinished, h.journal.logs (List.mem_singleton.2 rfl) hlogs⟩, hfresh⟩

theorem InAttempt.recordFirstResponse (h : InAttempt tracker attempts telemetry) :
    InAttempt { tracker with state := (telemetry.recordFirstResponse tracker.state).2 } attempts
      (telemetry.recordFirstResponse tracker.state).1 := by
  obtain ⟨⟨marks, hlogs⟩, hopened⟩ := h.opened.recordFirstResponse
  exact ⟨⟨h.unfinished, h.journal.logs (List.mem_singleton.2 rfl) hlogs⟩, hopened⟩

theorem traced_calls {sender : Bool} {turn : ReadTurn}
    (h : Idle state.operation.telemetry state.operation.attempts)
    (hcalls : Calls codec state sender turn next) : next.Traced := by
  cases hcalls with
  | exhausted hrequest => exact traced_concludeWith h .ok .completed
  | late hremaining => exact traced_failWith h sender _ _
  | tooLarge hrequest hremaining hdeadline => exact traced_fail (Or.inr h) sender _
  | panicked hrequest hremaining hdeadline htakes => exact traceOver_drop (Or.inr h)
  | issued hrequest hremaining hdeadline htakes =>
      rename_i request remaining deadline
      obtain ⟨hlogs, hopened⟩ := OperationState.logs_attempt h.closed 0
        (min state.operation.options.deadlines.attemptTimeout remaining)
      exact ⟨⟨h.unfinished, h.journal.logs (List.mem_singleton.2 rfl) hlogs⟩, hopened⟩

theorem traced_retries {sender : Bool} {status : Status} {turn : ReadTurn}
    (h : JustOver state.operation.telemetry state.operation.attempts)
    (hretries : Retries codec state sender status turn next) : next.Traced := by
  cases hretries with
  | late => exact traced_failWith h.idle sender _ _
  | refused htop hrefused => exact traced_failWith h.idle sender _ _
  | panicked htop hretryable hbudget hbackoff => exact traceOver_drop (Or.inr h.idle)
  | backedOff hretryable hbudget hbackoff hremaining hdelay =>
      rename_i drawn remaining
      have hlogs := state.operation.telemetry.state.logs_retry none state.operation.attempts
        status.code (max drawn ((retryDelay codec status).getD 0)) 0
      have hclosed := h.fresh.again
      rw [← hlogs.laneMarks_eq] at hclosed
      exact ⟨⟨h.unfinished, h.journal.logs (List.mem_singleton.2 rfl) hlogs⟩, hclosed⟩

/-- The response is rejected, whatever the merger did before. -/
theorem traced_rejectResponse {active : ActiveAttempt}
    (h : InAttempt state.operation.telemetry state.operation.attempts active.telemetry)
    (issue : RowMergeIssue) : (state.rejectResponse active issue).Traced :=
  Or.inl ((h.finish .unknown { rows := active.rows }).idle.finish .unknown _)

theorem traced_takesChunks {active : ActiveAttempt} {before : Int} {chunks : List CellChunk}
    (h : InAttempt state.operation.telemetry state.operation.attempts active.telemetry)
    (htakes : TakesChunks state active before chunks next) : next.Traced := by
  cases htakes with
  | rejected hpush =>
      rename_i merger issue
      have hmerger : InAttempt (state.setMerger merger).operation.telemetry
          (state.setMerger merger).operation.attempts active.telemetry := h
      exact traced_rejectResponse hmerger issue
  | row hpush => exact h
  | full hpush hlimit =>
      exact traceOver_drop (Or.inl ((h.finish .ok _).idle.finish .ok _))
  | drained hpush hlimit => exact h

theorem traced_takesMessage {active : ActiveAttempt} {response : ReadRowsResponse}
    (h : InAttempt state.operation.telemetry state.operation.attempts active.telemetry)
    (htakes : TakesMessage state active response next) : next.Traced := by
  have hheard := h.recordFirstResponse
  cases htakes with
  | misplaced hkey hscan =>
      exact Or.inl ((hheard.finish .unknown { rows := active.rows }).idle.finish .unknown _)
  | unmarked hkey hchunks =>
      refine traced_takesChunks ?_ hchunks
      exact hheard
  | marked hkey hscan hchunks =>
      refine traced_takesChunks ?_ hchunks
      exact hheard

theorem traced_drop (h : state.Traced) (hlive : ∀ how, state.phase ≠ .finished how) :
    (state.drop (state.phase.underWay.map Prod.fst)).Traced := by
  unfold Traced at h
  cases hphase : state.phase with
  | finished how => exact absurd hphase (hlive how)
  | starting =>
      rw [hphase] at h
      exact traceOver_drop (Or.inr h)
  | backingOff sender delay =>
      rw [hphase] at h
      exact traceOver_drop (Or.inr h)
  | terminating error =>
      rw [hphase] at h
      exact traceOver_drop h
  | calling sender deadline request telemetry =>
      rw [hphase] at h
      exact traceOver_drop (Or.inr h.drop.idle)
  | streaming active =>
      rw [hphase] at h
      exact traceOver_drop (Or.inr h.drop.idle)
  | sending active before row chunks =>
      rw [hphase] at h
      exact traceOver_drop (Or.inr h.drop.idle)

/-! ## Steps -/

theorem inAttempt_of_traced {phase : ReadPhase} {rows : Nat}
    (h : PhaseTraced tracker attempts phase)
    (hunderWay : phase.underWay = some (telemetry, rows)) :
    InAttempt tracker attempts telemetry := by
  cases phase with
  | calling sender deadline request tracker =>
      obtain ⟨rfl, -⟩ := Prod.mk.inj (Option.some.inj hunderWay)
      exact h
  | streaming active =>
      obtain ⟨rfl, -⟩ := Prod.mk.inj (Option.some.inj hunderWay)
      exact h
  | sending active before row chunks =>
      obtain ⟨rfl, -⟩ := Prod.mk.inj (Option.some.inj hunderWay)
      exact h
  | _ => cases hunderWay

/-- Every step keeps the trace in order. -/
theorem traced_step (h : state.Traced) (hstep : Step codec state input next) : next.Traced := by
  have hphased : ∀ {phase}, state.phase = phase →
      PhaseTraced state.operation.telemetry state.operation.attempts phase := by
    rintro phase rfl
    exact h
  cases hstep with
  | expired hphase htop => exact traced_failWith (hphased hphase) false _ _
  | begun hphase hcalls => exact traced_calls (hphased hphase) hcalls
  | woken hphase hcalls => exact traced_calls (hphased hphase) hcalls
  | opened hphase =>
      have hattempt := hphased hphase
      exact hattempt
  | failed merger hunderWay hfailure hretries =>
      refine traced_retries ?_ hretries
      exact (inAttempt_of_traced h hunderWay).finish _ _
  | message hphase htakes => exact traced_takesMessage (hphased hphase) htakes
  | sent hphase htakes =>
      refine traced_takesChunks ?_ htakes
      exact hphased hphase
  | ended hphase hfinish =>
      have hattempt := hphased hphase
      exact traceOver_drop (Or.inl ((hattempt.finish .ok _).idle.finish .ok _))
  | endedEarly hphase hfinish =>
      have hattempt := hphased hphase
      exact Or.inl ((hattempt.finish .ok _).idle.finish .unknown _)
  | deserted hphase hgone => exact traced_concludeWith (hphased hphase) .cancelled .cancelled
  | abandoned hunderWay hgone =>
      have hattempt := inAttempt_of_traced h hunderWay
      exact traceOver_drop (Or.inl ((hattempt.finish .cancelled _).idle.finish .cancelled _))
  | dropped hlive => exact traced_drop h hlive
  | reported hphase => exact traceOver_drop (hphased hphase)
  | unreported hphase => exact traceOver_drop (hphased hphase)

theorem traced_reachable {original : ReadRowsRequest} {options : ReadOptions}
    {deadline : Instant} {tableId : String}
    (h : Reachable (step codec) (.new original options deadline tableId) state) :
    state.Traced :=
  h.invariant Traced ⟨⟨rfl, journal_start _ _ _ _⟩, closed_nil⟩
    fun _ _ _ hinv hstep => traced_step hinv (step_of_step hstep)

end BigtableClient.ReadState
