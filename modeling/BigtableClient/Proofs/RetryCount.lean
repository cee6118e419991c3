import BigtableClient.Diagnostics
import BigtableClient.Proofs.Replay
import BigtableClient.Proofs.RetryBudget

/-!
# The retries that are reported

The retry counter is bumped before the backoff sleep, and whether a request follows is
decided after it.  In runs in which every sleep leads to a request, the counter is the
number of requests beyond the first one of each batch, or of the read.
-/

namespace BigtableClient

open Proto
open ProofSupport.Transition

/-- The reported retries are the requests beyond the first ones. -/
def ReportsRetries (events : List DiagnosticEvent) (requests : List Nat) : Prop :=
  ∃ reported, operationEnd? events = some reported ∧
    reported.retries.toNat = (requests.map fun count => count - 1).sum

/-! ## The counter -/

structure OperationTracker.CountsRetries (tracker : OperationTracker) (retries : Nat) : Prop where
  counter : tracker.state.retries = .ofNat retries
  reported : tracker.finished = true → ∃ reported, operationEnd? tracker.state.events =
    some reported ∧ reported.retries = .ofNat retries

namespace OperationTracker.CountsRetries

variable {tracker : OperationTracker} {retries : Nat}

theorem finish (h : tracker.CountsRetries retries) (code : Code) (summary : OperationSummary) :
    (tracker.finish code summary).CountsRetries retries := by
  by_cases hfinished : tracker.finished
  · rw [OperationTracker.finish, if_pos hfinished]
    exact h
  · refine ⟨?_, fun _ => ?_⟩
    · rw [OperationTracker.finish, if_neg hfinished]
      exact h.counter
    · exact ⟨_, operationEnd?_finish (Bool.not_eq_true _ ▸ hfinished) code summary, h.counter⟩

theorem drop (h : tracker.CountsRetries retries) :
    ∃ reported, operationEnd? tracker.drop.state.events = some reported ∧
      reported.retries = .ofNat retries := by
  by_cases hfinished : tracker.finished
  · rw [OperationTracker.drop, if_pos hfinished]
    exact h.reported hfinished
  · rw [OperationTracker.drop, if_neg hfinished]
    exact ⟨_, operationEnd?_recordFinish tracker .cancelled {}, h.counter⟩

end OperationTracker.CountsRetries

theorem AttemptTracker.retries_recordFirstResponse (telemetry : AttemptTracker)
    (state : OperationState) :
    (telemetry.recordFirstResponse state).2.retries = state.retries := by
  unfold recordFirstResponse
  split_ifs <;> rfl

theorem AttemptTracker.retries_finish (telemetry : AttemptTracker) (state : OperationState)
    (code : Code) (summary : AttemptSummary) :
    (telemetry.finish state code summary).2.retries = state.retries := by
  unfold finish
  split_ifs <;> rfl

/-! ## Reads -/

namespace ReadState

variable {codec : Codec} {state next : ReadState} {input : ReadInput} {attempts : Nat}
  {tracker : OperationTracker}

/-- A request would follow: something is left to read, its deadline can be set, and its timeout
fits into the header. -/
def CanCall (codec : Codec) (state : ReadState) (turn : ReadTurn) : Bool :=
  (resumeRequest state.operation.original state.operation.progress
      state.operation.rowsReturned).isSome ∧
    (state.operation.remaining turn.call).any fun remaining =>
      let attemptTimeout := min state.operation.options.deadlines.attemptTimeout remaining
      (Instant.checkedAdd turn.arm attemptTimeout).isSome ∧ codec.takesTimeout attemptTimeout

def WakesToCall (codec : Codec) (state : ReadState) (input : ReadInput) : Prop :=
  match state.phase, input with
  | .backingOff _ _, .wake turn => state.CanCall codec turn
  | _, _ => True

def wakesInVain (codec : Codec) (state : ReadState) (input : ReadInput) : Bool :=
  match state.phase, input with
  | .backingOff _ _, .wake turn => !state.CanCall codec turn
  | _, _ => false

theorem wakesToCall_iff (codec : Codec) (state : ReadState) (input : ReadInput) :
    state.WakesToCall codec input ↔ state.wakesInVain codec input = false := by
  unfold WakesToCall wakesInVain
  split <;> simp

instance (codec : Codec) (state : ReadState) (input : ReadInput) :
    Decidable (state.WakesToCall codec input) :=
  decidable_of_iff _ (wakesToCall_iff codec state input).symm

/-- The retries that were scheduled, by the phase. -/
def PhaseCounts (tracker : OperationTracker) (attempts : Nat) : ReadPhase → Prop
  | .starting => tracker.finished = false ∧ tracker.state.retries = .ofNat attempts ∧ attempts = 0
  | .backingOff _ _ => tracker.finished = false ∧ tracker.state.retries = .ofNat attempts
  | .terminating _ => tracker.CountsRetries (attempts - 1)
  | .finished .cancelled => True
  | .finished _ => ∃ reported, operationEnd? tracker.state.events = some reported ∧
      reported.retries = .ofNat (attempts - 1)
  | _ => tracker.finished = false ∧ tracker.state.retries = .ofNat (attempts - 1) ∧ 0 < attempts

abbrev CountsRetries (state : ReadState) : Prop :=
  PhaseCounts state.operation.telemetry state.operation.attempts state.phase

theorem countsRetries_conclude
    (h : state.operation.telemetry.CountsRetries (state.operation.attempts - 1)) (how : ReadEnd) :
    (state.conclude how).CountsRetries := by
  cases how with
  | cancelled => trivial
  | completed => exact h.drop
  | failed error => exact h.drop
  | panicked => exact h.drop

theorem countsRetries_fail
    (h : state.operation.telemetry.CountsRetries (state.operation.attempts - 1)) (sender : Bool)
    (error : ReadError) : (state.fail sender error).CountsRetries := by
  cases sender with
  | true => exact h
  | false => exact h.drop

theorem countsRetries_failWith
    (h : state.operation.telemetry.CountsRetries (state.operation.attempts - 1)) (sender : Bool)
    (code : Code) (error : ReadError) : (state.failWith sender code error).CountsRetries := by
  have hfinish := h.finish code { rows := state.operation.rowsReturned.toNat }
  cases sender with
  | true => exact hfinish
  | false => exact hfinish.drop

theorem countsRetries_of_counter {retries : Nat} (hfinished : tracker.finished = false)
    (hcounter : tracker.state.retries = .ofNat retries) : tracker.CountsRetries retries :=
  ⟨hcounter, fun h => absurd h (by simp [hfinished])⟩

theorem countsRetries_calls {sender : Bool} {turn : ReadTurn}
    (hfinished : state.operation.telemetry.finished = false)
    (hcounter : state.operation.telemetry.state.retries = .ofNat state.operation.attempts)
    (hcall : state.CanCall codec turn ∨ state.operation.attempts = 0)
    (hcalls : Calls codec state sender turn next) : next.CountsRetries := by
  have hnone : state.operation.attempts = 0 →
      state.operation.telemetry.CountsRetries (state.operation.attempts - 1) := by
    intro hzero
    rw [hzero] at hcounter ⊢
    exact countsRetries_of_counter hfinished hcounter
  have hcan : state.CanCall codec turn → ∃ request remaining deadline,
      resumeRequest state.operation.original state.operation.progress
        state.operation.rowsReturned = some request ∧
      state.operation.remaining turn.call = some remaining ∧
      Instant.checkedAdd turn.arm
        (min state.operation.options.deadlines.attemptTimeout remaining) = some deadline ∧
      codec.takesTimeout (min state.operation.options.deadlines.attemptTimeout remaining) := by
    intro hcan
    obtain ⟨hrequest, hremaining⟩ := of_decide_eq_true hcan
    obtain ⟨request, hrequest⟩ := Option.isSome_iff_exists.1 hrequest
    obtain ⟨remaining, hremaining, hfits⟩ := (Option.any_eq_true _ _).1 hremaining
    obtain ⟨hdeadline, htakes⟩ := of_decide_eq_true hfits
    obtain ⟨deadline, hdeadline⟩ := Option.isSome_iff_exists.1 hdeadline
    exact ⟨request, remaining, deadline, hrequest, hremaining, hdeadline, htakes⟩
  cases hcalls with
  | exhausted hrequest =>
      rcases hcall with hcall | hzero
      · obtain ⟨request, _, _, hsome, -⟩ := hcan hcall
        rw [hrequest] at hsome
        cases hsome
      · exact ((hnone hzero).finish .ok _).drop
  | late hremaining =>
      rcases hcall with hcall | hzero
      · obtain ⟨_, remaining, _, -, hsome, -⟩ := hcan hcall
        rw [hremaining] at hsome
        cases hsome
      · exact countsRetries_failWith (hnone hzero) sender _ _
  | tooLarge hrequest hremaining hdeadline =>
      rcases hcall with hcall | hzero
      · obtain ⟨_, remaining, deadline, -, hsome, hdeadlineSome, -⟩ := hcan hcall
        obtain rfl := Option.some.inj (hremaining.symm.trans hsome)
        rw [hdeadline] at hdeadlineSome
        cases hdeadlineSome
      · exact countsRetries_fail (hnone hzero) sender _
  | panicked hrequest hremaining hdeadline htakes =>
      rcases hcall with hcall | hzero
      · obtain ⟨_, remaining, deadline, -, hsome, -, htakesTrue⟩ := hcan hcall
        obtain rfl := Option.some.inj (hremaining.symm.trans hsome)
        rw [htakes] at htakesTrue
        cases htakesTrue
      · exact countsRetries_conclude (hnone hzero) .panicked
  | issued hrequest hremaining hdeadline => exact ⟨hfinished, hcounter, Nat.succ_pos _⟩

theorem countsRetries_retries {sender : Bool} {status : Status} {turn : ReadTurn}
    (hfinished : state.operation.telemetry.finished = false)
    (hcounter : state.operation.telemetry.state.retries = .ofNat (state.operation.attempts - 1))
    (hpos : 0 < state.operation.attempts)
    (hretries : Retries codec state sender status turn next) : next.CountsRetries := by
  have hcounts := countsRetries_of_counter hfinished hcounter
  cases hretries with
  | late => exact countsRetries_failWith hcounts sender _ _
  | refused htop hrefused => exact countsRetries_failWith hcounts sender _ _
  | panicked htop hretryable hbudget hbackoff => exact countsRetries_conclude hcounts .panicked
  | backedOff hretryable hbudget hbackoff hremaining hdelay =>
      refine ⟨hfinished, ?_⟩
      have hsucc : state.operation.attempts - 1 + 1 = state.operation.attempts := by omega
      have hone := UInt32.ofNat_add (state.operation.attempts - 1) 1
      rw [hsucc, ← hcounter] at hone
      exact hone.symm

theorem countsRetries_takesChunks {active : ActiveAttempt} {before : Int}
    {chunks : List CellChunk} (hfinished : state.operation.telemetry.finished = false)
    (hcounter : state.operation.telemetry.state.retries = .ofNat (state.operation.attempts - 1))
    (hpos : 0 < state.operation.attempts)
    (htakes : TakesChunks state active before chunks next) : next.CountsRetries := by
  have hclosed : ∀ code rows, OperationTracker.CountsRetries
      { state.operation.telemetry with
        state := (active.telemetry.finish state.operation.telemetry.state code rows).2 }
      (state.operation.attempts - 1) := fun code rows =>
    countsRetries_of_counter hfinished
      ((active.telemetry.retries_finish _ code rows).trans hcounter)
  cases htakes with
  | rejected hpush => exact (hclosed .unknown _).finish .unknown _
  | row hpush => exact ⟨hfinished, hcounter, hpos⟩
  | full hpush hlimit => exact ((hclosed .ok _).finish .ok _).drop
  | drained hpush hlimit => exact ⟨hfinished, hcounter, hpos⟩

theorem countsRetries_takesMessage {active : ActiveAttempt} {response : ReadRowsResponse}
    (hfinished : state.operation.telemetry.finished = false)
    (hcounter : state.operation.telemetry.state.retries = .ofNat (state.operation.attempts - 1))
    (hpos : 0 < state.operation.attempts)
    (htakes : TakesMessage state active response next) : next.CountsRetries := by
  have hheard := (active.telemetry.retries_recordFirstResponse
    state.operation.telemetry.state).trans hcounter
  cases htakes with
  | misplaced hkey hscan =>
      refine (countsRetries_of_counter ?_ ?_).finish .unknown _
      · exact hfinished
      · exact (AttemptTracker.retries_finish _ _ _ _).trans hheard
  | unmarked hkey hchunks =>
      refine countsRetries_takesChunks ?_ ?_ ?_ hchunks
      · exact hfinished
      · exact hheard
      · exact hpos
  | marked hkey hscan hchunks =>
      refine countsRetries_takesChunks ?_ ?_ ?_ hchunks
      · exact hfinished
      · exact hheard
      · exact hpos

theorem counter_of_underWay {phase : ReadPhase} {underWay : AttemptTracker × Nat}
    (h : PhaseCounts tracker attempts phase) (hunderWay : phase.underWay = some underWay) :
    tracker.finished = false ∧ tracker.state.retries = .ofNat (attempts - 1) ∧ 0 < attempts := by
  cases phase with
  | calling sender deadline request telemetry => exact h
  | streaming active => exact h
  | sending active before row chunks => exact h
  | _ => cases hunderWay

theorem countsRetries_step (h : state.CountsRetries) (hok : state.WakesToCall codec input)
    (hstep : Step codec state input next) : next.CountsRetries := by
  have hphased : ∀ {phase}, state.phase = phase →
      PhaseCounts state.operation.telemetry state.operation.attempts phase := by
    rintro phase rfl
    exact h
  cases hstep with
  | expired hphase htop =>
      obtain ⟨hfinished, hcounter, hzero⟩ := hphased hphase
      rw [hzero] at hcounter
      refine countsRetries_failWith (countsRetries_of_counter hfinished ?_) false _ _
      rw [hcounter, hzero]
  | begun hphase hcalls htop =>
      obtain ⟨hfinished, hcounter, hzero⟩ := hphased hphase
      exact countsRetries_calls hfinished hcounter (Or.inr hzero) hcalls
  | woken hphase hcalls =>
      obtain ⟨hfinished, hcounter⟩ := hphased hphase
      simp only [WakesToCall, hphase] at hok
      exact countsRetries_calls hfinished hcounter (Or.inl hok) hcalls
  | opened hphase =>
      have hcounts := hphased hphase
      exact hcounts
  | failed merger hunderWay hfailure hretries =>
      obtain ⟨hfinished, hcounter, hpos⟩ := counter_of_underWay h hunderWay
      refine countsRetries_retries ?_ ?_ ?_ hretries
      · exact hfinished
      · exact (AttemptTracker.retries_finish _ _ _ _).trans hcounter
      · exact hpos
  | message hphase htakes =>
      obtain ⟨hfinished, hcounter, hpos⟩ := hphased hphase
      exact countsRetries_takesMessage hfinished hcounter hpos htakes
  | sent hphase htakes =>
      obtain ⟨hfinished, hcounter, hpos⟩ := hphased hphase
      refine countsRetries_takesChunks ?_ ?_ ?_ htakes
      · exact hfinished
      · exact hcounter
      · exact hpos
  | ended hphase hfinish =>
      obtain ⟨hfinished, hcounter, hpos⟩ := hphased hphase
      refine ((countsRetries_of_counter ?_ ?_).finish .ok _).drop
      · exact hfinished
      · exact (AttemptTracker.retries_finish _ _ _ _).trans hcounter
  | endedEarly hphase hfinish =>
      obtain ⟨hfinished, hcounter, hpos⟩ := hphased hphase
      refine (countsRetries_of_counter ?_ ?_).finish .unknown _
      · exact hfinished
      · exact (AttemptTracker.retries_finish _ _ _ _).trans hcounter
  | deserted hphase hgone => trivial
  | abandoned hunderWay hgone => trivial
  | dropped hlive => trivial
  | reported hphase =>
      have hcounts := hphased hphase
      exact OperationTracker.CountsRetries.drop hcounts
  | unreported hphase => trivial

/-- What a read that ended by itself reports. -/
theorem reportsRetries_of_finished {original : ReadRowsRequest} {options : ReadOptions}
    {deadline : Instant} {tableId : String} {how : ReadEnd}
    (hpolicies : validatePolicies options.retry options.deadlines = .ok ())
    (hreach : ReachableBy (step codec) (WakesToCall codec)
      (.new original options deadline tableId) state)
    (hphase : state.phase = .finished how) (hhow : how ≠ .cancelled) :
    ReportsRetries state.operation.telemetry.state.events [state.log.requests.length] := by
  have hcounts := hreach.invariant CountsRetries ⟨rfl, rfl, rfl⟩
    fun _ _ _ hinv hok hstep => countsRetries_step hinv hok (step_of_step hstep)
  obtain ⟨hattempts, hbudget⟩ := attempts_of_reachable hpolicies hreach.reachable
  have hreported : ∃ reported,
      operationEnd? state.operation.telemetry.state.events = some reported ∧
        reported.retries = .ofNat (state.operation.attempts - 1) := by
    unfold CountsRetries at hcounts
    rw [hphase] at hcounts
    cases how with
    | cancelled => exact absurd rfl hhow
    | completed => exact hcounts
    | failed error => exact hcounts
    | panicked => exact hcounts
  obtain ⟨reported, hend, hretries⟩ := hreported
  have hmax := options.retry.maxAttempts.toNat_lt
  refine ⟨reported, hend, ?_⟩
  rw [hretries, hattempts, UInt32.toNat_ofNat', Nat.mod_eq_of_lt (by omega)]
  simp

end ReadState

/-! ## Batches -/

namespace BatchRun

variable {codec : Codec} {initial : BatchOperation} {run run' : BatchRun}
  {shared shared' : OperationState} {input : BatchInput}

def WakesToCall (codec : Codec) (run : BatchRun) : BatchInput → Prop
  | .woke turn => turn.top < run.operation.deadline ∧ run.TakesTimeout codec turn
  | .sleepTimedOut => False
  | _ => True

instance (codec : Codec) (run : BatchRun) : DecidablePred (run.WakesToCall codec)
  | .woke turn =>
      inferInstanceAs (Decidable (turn.top < run.operation.deadline ∧ run.TakesTimeout codec turn))
  | .sleepTimedOut => inferInstanceAs (Decidable False)
  | .polled _ => inferInstanceAs (Decidable True)
  | .opened => inferInstanceAs (Decidable True)
  | .refused _ _ => inferInstanceAs (Decidable True)
  | .callTimedOut _ => inferInstanceAs (Decidable True)
  | .message _ _ => inferInstanceAs (Decidable True)
  | .streamClosed _ _ => inferInstanceAs (Decidable True)

/-- The retries of a batch, as long as every sleep leads to a request. -/
def scheduled (run : BatchRun) : Nat :=
  if run.phase.isDone then run.past.length - 1 else run.past.length

/-- The step scheduled what it says. -/
def Schedules (run : BatchRun) (shared : OperationState) (run' : BatchRun)
    (shared' : OperationState) : Prop :=
  ∃ retries, run'.scheduled = run.scheduled + retries ∧
    shared'.retries = shared.retries + .ofNat retries

theorem schedules_nothing (hscheduled : run'.scheduled = run.scheduled)
    (hretries : shared'.retries = shared.retries) : Schedules run shared run' shared' :=
  ⟨0, hscheduled, by simp [hretries]⟩

theorem scheduled_of_not_isDone (h : run.phase.isDone = false) :
    run.scheduled = run.past.length := by
  rw [scheduled, h]
  rfl

theorem retries_heard {telemetry : AttemptTracker} {heard : OperationState}
    (hheard : Heard run shared telemetry heard) : heard.retries = shared.retries := by
  cases hheard with
  | nothing htelemetry => rfl
  | message htelemetry => exact AttemptTracker.retries_recordFirstResponse _ _

theorem isDone_of_telemetry {telemetry : AttemptTracker}
    (h : run.phase.telemetry = some telemetry) : run.phase.isDone = false := by
  cases hphase : run.phase with
  | finished =>
      rw [hphase] at h
      cases h
  | panicked _ =>
      rw [hphase] at h
      cases h
  | _ => rfl

theorem isDone_of_isResting (h : run.phase.isResting) : run.phase.isDone = false := by
  cases hphase : run.phase with
  | finished =>
      rw [hphase] at h
      cases h
  | panicked _ =>
      rw [hphase] at h
      cases h
  | _ => rfl

theorem telemetry_of_heard {telemetry : AttemptTracker} {heard : OperationState}
    (hheard : Heard run shared telemetry heard) :
    ∃ telemetry, run.phase.telemetry = some telemetry := by
  cases hheard with
  | nothing htelemetry => exact ⟨_, htelemetry⟩
  | message htelemetry => exact ⟨_, htelemetry⟩

theorem schedules_settled {attempt : WriteAttempt}
    {ending : AttemptEnd} {outcome : AttemptOutcome} {telemetry : AttemptTracker}
    {heard : OperationState} {summary : AttemptSummary}
    (hheard : Heard run shared telemetry heard)
    (hreschedules : Reschedules (run.book attempt ending outcome)
      (telemetry.finish heard outcome.code summary).2 outcome run' shared') :
    Schedules run shared run' shared' := by
  obtain ⟨_, htelemetry⟩ := telemetry_of_heard hheard
  have hscheduled := scheduled_of_not_isDone (isDone_of_telemetry htelemetry)
  have hpast : (run.book attempt ending outcome).past.length = run.past.length + 1 := by
    simp [book]
  have hretries : (telemetry.finish heard outcome.code summary).2.retries = shared.retries :=
    (AttemptTracker.retries_finish _ _ _ _).trans (retries_heard hheard)
  cases hreschedules with
  | done hpending =>
      refine schedules_nothing ?_ hretries
      rw [hscheduled]
      show (run.book attempt ending outcome).past.length - 1 = _
      omega
  | expired hpending =>
      refine schedules_nothing ?_ hretries
      rw [hscheduled]
      show (run.book attempt ending outcome).past.length - 1 = _
      omega
  | crashed hpending =>
      refine schedules_nothing ?_ hretries
      rw [hscheduled]
      show (run.book attempt ending outcome).past.length - 1 = _
      omega
  | sleeping delay hpending =>
      refine ⟨1, ?_, ?_⟩
      · rw [hscheduled, ← hpast]
        rfl
      · rw [← hretries]
        rfl

/-- A sleep that ends in time is followed by a request. -/
theorem step_woke {delay : Duration} {turn : AttemptTurn} (hinv : Inv codec initial run)
    (hphase : run.phase = .sleeping delay) (hok : run.WakesToCall codec (.woke turn)) :
    run.step codec shared (.woke turn) = some (run.issue shared turn) := by
  have hpending := (hinv.resting (by rw [hphase]; rfl)).2
  obtain ⟨htop, htakes⟩ := hok
  simp only [step, hphase, loop, if_neg hpending, ge_iff_le, if_neg (not_le.2 htop), call_eq,
    if_pos htakes]

theorem schedules_step (hinv : Inv codec initial run)
    (hwaiting : run.phase = .waiting → run.past = []) (hok : run.WakesToCall codec input)
    (hstep : run.step codec shared input = some (run', shared')) :
    Schedules run shared run' shared' := by
  have hmove := move_of_step hstep
  cases hmove with
  | exhausted _ hresting hpending => exact absurd hpending (hinv.resting hresting).2
  | expired _ hresting =>
      cases hphase : run.phase with
      | waiting =>
          refine schedules_nothing ?_ rfl
          simp [scheduled, expire, hwaiting hphase]
      | sleeping delay =>
          cases input with
          | woke turn =>
              rw [step_woke hinv hphase hok] at hstep
              have hphases := congrArg (fun next => next.1.phase) (Option.some.inj hstep)
              cases hphases
          | sleepTimedOut => exact hok.elim
          | _ => simp [step, hphase] at hstep
      | _ =>
          rw [hphase] at hresting
          cases hresting
  | called _ turn hresting hpending =>
      refine schedules_nothing ?_ rfl
      rw [scheduled_of_not_isDone rfl, scheduled_of_not_isDone (isDone_of_isResting hresting)]
      rfl
  | crashed _ hresting hpending =>
      cases hphase : run.phase with
      | waiting =>
          refine schedules_nothing ?_ rfl
          simp [scheduled, hwaiting hphase]
      | sleeping delay =>
          cases input with
          | woke turn =>
              rw [step_woke hinv hphase hok] at hstep
              have hphases := congrArg (fun next => next.1.phase) (Option.some.inj hstep)
              cases hphases
          | sleepTimedOut => exact hok.elim
          | _ => simp [step, hphase] at hstep
      | _ =>
          rw [hphase] at hresting
          cases hresting
  | opened hphase =>
      refine schedules_nothing ?_ rfl
      rw [scheduled_of_not_isDone rfl, scheduled_of_not_isDone (by rw [hphase]; rfl)]
  | received turn hphase hresponse =>
      refine schedules_nothing ?_ (AttemptTracker.retries_recordFirstResponse _ _)
      rw [scheduled_of_not_isDone rfl, scheduled_of_not_isDone (by rw [hphase]; rfl)]
  | settled _ hends hheard hreschedules => exact schedules_settled hheard hreschedules
  | panicked _ hphase houtcome => exact (inv_step hinv hstep).records.elim

theorem phase_ne_waiting (hstep : run.step codec shared input = some (run', shared')) :
    run'.phase ≠ .waiting := by
  cases move_of_step hstep with
  | settled _ hends hheard hreschedules =>
      cases hreschedules <;> simp [book, expire]
  | _ => simp [expire, issue]

end BatchRun

/-! ## Bulk mutations -/

namespace BulkState

variable {codec : Codec} {initials : List BatchOperation} {state next : BulkState}
  {input : BulkInput}

def WakesToCall (codec : Codec) (state : BulkState) : BulkInput → Prop
  | .batch number input => ∀ run ∈ state.batches[number]?, run.WakesToCall codec input
  | .dropped _ => True

instance (codec : Codec) (state : BulkState) : DecidablePred (state.WakesToCall codec)
  | .batch number input =>
      inferInstanceAs (Decidable (∀ run ∈ state.batches[number]?, run.WakesToCall codec input))
  | .dropped _ => inferInstanceAs (Decidable True)

/-- The retries of all batches. -/
def scheduled (state : BulkState) : Nat := (state.batches.map BatchRun.scheduled).sum

structure CountsRetries (state : BulkState) : Prop where
  waiting : ∀ run ∈ state.batches, run.phase = .waiting → run.past = []
  running : state.phase = .running → state.telemetry.finished = false ∧
    state.telemetry.state.retries = .ofNat state.scheduled
  finished : ∀ result, state.phase = .finished result →
    ∃ reported, operationEnd? state.telemetry.state.events = some reported ∧
      reported.retries = .ofNat state.scheduled

theorem countsRetries_conclude (hwaiting : ∀ run ∈ state.batches, run.phase = .waiting →
      run.past = []) (hfinished : state.telemetry.finished = false)
    (hcounter : state.telemetry.state.retries = .ofNat state.scheduled) :
    state.conclude.CountsRetries := by
  obtain ⟨code, summary, htelemetry⟩ := state.telemetry_conclude
  have hend := operationEnd?_finish hfinished code summary
  have hbatches : state.conclude.batches = state.batches := by rw [conclude_eq]
  refine ⟨?_, ?_, ?_⟩
  · rw [hbatches]
    exact hwaiting
  · rw [conclude_eq]
    nofun
  · intro result _
    rw [htelemetry, scheduled, hbatches]
    exact ⟨_, hend, hcounter⟩

theorem countsRetries_collect {number : Nat} {run : BatchRun} (hrunning : state.phase = .running)
    (h : state.CountsRetries) : (state.collect number run).CountsRetries := by
  obtain ⟨hfinished, hcounter⟩ := h.running hrunning
  unfold collect
  split_ifs
  · dsimp only
    split_ifs
    · exact countsRetries_conclude h.waiting hfinished hcounter
    · exact ⟨h.waiting, h.running, h.finished⟩
  · exact h

theorem countsRetries_step (hinv : Inv codec initials state) (h : state.CountsRetries)
    (hok : state.WakesToCall codec input) (hstep : state.step codec input = some next) :
    next.CountsRetries := by
  cases step_of_step hstep with
  | dropped hrunning horder =>
      refine ⟨h.waiting, ?_, ?_⟩
      · exact fun hphase => absurd hphase (phase_drop_ne_running state _)
      · exact fun result hphase => absurd hphase (phase_drop_ne_finished state _ result)
  | batch batchInput hrunning hcalm hrun hstart hbatch =>
      rename_i number run run' shared
      obtain ⟨hfinished, hcounter⟩ := h.running hrunning
      have hmem := List.mem_of_getElem? hrun
      obtain ⟨initial, -, hrunInv⟩ := exists_of_forall₂ hinv.batches hmem
      obtain ⟨retries, hscheduled, hretries⟩ := BatchRun.schedules_step hrunInv (h.waiting run hmem)
        (hok run hrun) hbatch
      have hnext : (state.move number run' shared).phase = .running := hrunning
      refine countsRetries_collect hnext ⟨?_, ?_, ?_⟩
      · intro other hother hwaiting
        rcases List.mem_or_eq_of_mem_set hother with hother | rfl
        · exact h.waiting other hother hwaiting
        · exact absurd hwaiting (BatchRun.phase_ne_waiting hbatch)
      · intro _
        refine ⟨hfinished, ?_⟩
        have hsum : (state.move number run' shared).scheduled = state.scheduled + retries :=
          sum_map_set hrun hscheduled
        rw [hsum, UInt32.ofNat_add, ← hcounter]
        exact hretries
      · intro result hresult
        rw [hnext] at hresult
        cases hresult

/-- The batches that are over scheduled their requests but the first. -/
theorem scheduled_eq_sum (hfinished : ∀ run ∈ state.batches, run.phase.isFinished) :
    state.scheduled =
      ((state.batches.map fun run => run.attempts.length).map fun count => count - 1).sum := by
  rw [scheduled, List.map_map]
  refine congrArg List.sum (List.map_congr_left fun run hrun => ?_)
  have hover := hfinished run hrun
  have hnone : run.underWay = none := by
    cases hphase : run.phase with
    | finished => simp [BatchRun.underWay, hphase]
    | _ =>
        rw [hphase] at hover
        cases hover
  have hdone : run.phase.isDone := by
    cases hphase : run.phase with
    | finished => rfl
    | _ =>
        rw [hphase] at hover
        cases hover
  rw [BatchRun.scheduled, if_pos hdone, Function.comp_apply, BatchRun.attempts, hnone]
  simp

/-- What a bulk mutation that ended by itself reports: a counter of 32 bits. -/
theorem reportsRetries_of_finished (encodedLen : EncodedLen) (config : ClientConfig)
    (bulk : BulkMutation) (options : BulkMutationOptions) (deadline : Instant)
    (hoptions : validateOptions options = .ok ())
    (hreach : ReachableBy (step codec) (WakesToCall codec)
      (.start encodedLen config bulk options deadline) state)
    {result : Except BulkMutationError BulkMutationResult}
    (hphase : state.phase = .finished result) :
    ReportsRetries state.telemetry.state.events
        (state.batches.map fun run => run.attempts.length) ↔
      ((state.batches.map fun run => run.attempts.length).map fun count => count - 1).sum <
        2 ^ 32 := by
  have hvalid := BulkMutationOptions.valid_of_validateOptions hoptions
  have hstart : CountsRetries (start encodedLen config bulk options deadline) := by
    refine ⟨fun run hrun _ => ?_, fun _ => ⟨rfl, ?_⟩, nofun⟩
    · obtain ⟨entries, -, number, rfl⟩ := mem_start encodedLen config bulk options deadline hrun
      rfl
    · have hnone : ∀ run ∈ (start encodedLen config bulk options deadline).batches,
          run.scheduled = 0 := by
        intro run hrun
        obtain ⟨entries, -, number, rfl⟩ := mem_start encodedLen config bulk options deadline hrun
        rfl
      have hzero : (start encodedLen config bulk options deadline).scheduled = 0 := by
        rw [scheduled, List.map_congr_left hnone]
        simp
      rw [hzero]
      rfl
  obtain ⟨hinv, hcounts⟩ := hreach.invariant
    (fun state => Inv codec (initialOperations encodedLen config bulk options deadline) state ∧
      state.CountsRetries)
    ⟨inv_start encodedLen config bulk options deadline hvalid, hstart⟩
    fun _ _ _ h hok hstep => ⟨inv_step h.1 hstep, countsRetries_step h.1 h.2 hok hstep⟩
  obtain ⟨reported, hend, hretries⟩ := hcounts.finished result hphase
  rw [scheduled_eq_sum (hinv.finished result hphase).2] at hretries
  have htoNat := congrArg UInt32.toNat hretries
  rw [UInt32.toNat_ofNat'] at htoNat
  constructor
  · rintro ⟨other, hother, hcount⟩
    obtain rfl := Option.some.inj (hend.symm.trans hother)
    rw [← hcount]
    exact reported.retries.toNat_lt
  · intro hlt
    exact ⟨reported, hend, htoNat.trans (Nat.mod_eq_of_lt hlt)⟩

end BulkState

/-- Reported retries are extra requests when every backoff sleep that ends leads to a request: for a
read, something is left to read and the deadline of the attempt can be set; for a batch, the
operation deadline is not over; and for both, the timeout fits into the header of the request.  The
counter of a bulk mutation wraps at 32 bits. -/
theorem reported_retries_are_requests (codec : Codec) :
    (∀ (original : ReadRowsRequest) (options : ReadOptions) (deadline : Instant)
        (tableId : String) (state : ReadState) (how : ReadEnd),
      validatePolicies options.retry options.deadlines = .ok () →
      ReachableBy (ReadState.step codec) (ReadState.WakesToCall codec)
        (.new original options deadline tableId) state →
      state.phase = .finished how → how ≠ .cancelled →
      ReportsRetries state.operation.telemetry.state.events [state.log.requests.length]) ∧
    ∀ (encodedLen : EncodedLen) (config : ClientConfig) (bulk : BulkMutation)
        (options : BulkMutationOptions) (deadline : Instant) (state : BulkState)
        (result : Except BulkMutationError BulkMutationResult),
      validateOptions options = .ok () →
      ReachableBy (BulkState.step codec) (BulkState.WakesToCall codec)
        (.start encodedLen config bulk options deadline) state →
      state.phase = .finished result →
      (ReportsRetries state.telemetry.state.events
          (state.batches.map fun run => run.attempts.length) ↔
        ((state.batches.map fun run => run.attempts.length).map fun count => count - 1).sum <
          2 ^ 32) := by
  constructor
  · intro original options deadline tableId state how hpolicies hreach hphase hhow
    exact ReadState.reportsRetries_of_finished hpolicies hreach hphase hhow
  · intro encodedLen config bulk options deadline state result hoptions hreach hphase
    exact BulkState.reportsRetries_of_finished encodedLen config bulk options deadline hoptions
      hreach hphase

theorem reported_retries_are_requests_interrupted :
    (∃ state : ReadState, state.log.requests.length = 2 ∧
        ReportsRetries state.operation.telemetry.state.events [2]) ∧
      ∃ state : BulkState, (state.batches.map fun run => run.attempts.length) = [2, 1] ∧
        ReportsRetries state.telemetry.state.events [2, 1] := by
  constructor
  · have hrun : ((run (guarded (ReadState.step sampleCodec) (ReadState.WakesToCall sampleCodec))
        (.new sampleRead .default 1000 "events") interruptedRead).any fun state =>
          state.phase = .finished .completed ∧ state.log.requests.length = 2) = true := by
      decide +kernel
    obtain ⟨state, hrun, hover⟩ := (Option.any_eq_true _ _).1 hrun
    obtain ⟨hphase, hlength⟩ := of_decide_eq_true hover
    have hreports := (reported_retries_are_requests sampleCodec).1 sampleRead .default 1000
      "events" state .completed (by decide +kernel) (reachableBy_of_run .start hrun) hphase nofun
    exact ⟨state, hlength, hlength ▸ hreports⟩
  · have hrun : (run (guarded (BulkState.step plainCodec) (BulkState.WakesToCall plainCodec))
        (.start wireLen bulkConfig sampleBulk pairOptions 600000000000) mixedInputs).map
          (fun state => (state.phase, state.batches.map fun run => run.attempts.length)) =
        some (.finished mixedResult, [2, 1]) := by
      decide +kernel
    obtain ⟨state, hrun, hstate⟩ := Option.map_eq_some_iff.1 hrun
    obtain ⟨hphase, hlengths⟩ := Prod.mk.inj hstate
    have hreports := (reported_retries_are_requests plainCodec).2 wireLen bulkConfig sampleBulk
      pairOptions 600000000000 state _ validateOptions_pair (reachableBy_of_run .start hrun) hphase
    rw [hlengths] at hreports
    exact ⟨state, hlengths, hreports.2 (by decide)⟩

/-! ### A retry that is not needed

The only row is delivered, and then the stream breaks: after the backoff sleep nothing is left to
read. -/

def singleRowRead : ReadRowsRequest :=
  { sampleRead with rows := some { rowKeys := [[97]], rowRanges := [] } }

def needlessRetry : List ReadInput :=
  [.begin sampleTurn, .opened,
    .message { chunks := [sampleChunk [97] (some (.commitRow true))], lastScannedRowKey := [] },
    .sent, .streamBroke unavailable sampleTurn, .wake sampleTurn]

theorem not_reportsRetries_needlessRetry :
    ∃ state : ReadState, run (ReadState.step sampleCodec)
        (.new singleRowRead .default 1000 "events") needlessRetry = some state ∧
      state.phase = .finished .completed ∧ state.log.requests.length = 1 ∧
      ¬ ReportsRetries state.operation.telemetry.state.events [state.log.requests.length] := by
  have hrun : ((run (ReadState.step sampleCodec) (.new singleRowRead .default 1000 "events")
      needlessRetry).any fun state => state.phase = .finished .completed ∧
        state.log.requests.length = 1 ∧
        (operationEnd? state.operation.telemetry.state.events).any fun reported =>
          reported.retries = 1) = true := by decide +kernel
  obtain ⟨state, hrun, hover⟩ := (Option.any_eq_true _ _).1 hrun
  obtain ⟨hphase, hlength, hend⟩ := of_decide_eq_true hover
  refine ⟨state, hrun, hphase, hlength, ?_⟩
  rintro ⟨reported, hreported, hretries⟩
  rw [hreported] at hend
  rw [hlength, show reported.retries = 1 from of_decide_eq_true hend] at hretries
  exact absurd hretries (by decide)

end BigtableClient
