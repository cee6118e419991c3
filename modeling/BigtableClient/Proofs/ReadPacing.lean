import BigtableClient.ProofSupport.Clock
import BigtableClient.Proofs.ReadSteps

/-!
# The pace of a read

In a run over a clock a request is issued only in time, only after the delay that the
failed status asks for, and not at all when the deadline comes first.
-/

namespace BigtableClient

open Proto
open ProofSupport.Clock ProofSupport.Transition

/-! ## The clock of a read -/

def ReadTurn.isAt (turn : ReadTurn) (now : Instant) : Bool :=
  turn.top = now ∧ turn.retry = now ∧ turn.call = now ∧ turn.arm = now

def ReadInput.turn? : ReadInput → Option ReadTurn
  | .begin turn => some turn
  | .wake turn => some turn
  | .refused _ turn => some turn
  | .openTimedOut turn => some turn
  | .streamBroke _ turn => some turn
  | .streamTimedOut turn => some turn
  | _ => none

def ReadPhase.delay? : ReadPhase → Option Duration
  | .backingOff _ delay => some delay
  | _ => none

def IssuedRead.InTime (options : ReadOptions) (deadline : Instant) (issued : IssuedRead) : Prop :=
  issued.instant < deadline ∧
    issued.timeout ≤ min options.deadlines.attemptTimeout (deadline - issued.instant)

def ReadPhase.isOver : ReadPhase → Bool
  | .terminating _ => true
  | .finished _ => true
  | _ => false

namespace ReadState

variable {codec : Codec} {state next : ReadState} {input : ReadInput} {deadline : Instant}
  {options : ReadOptions} {error : ReadError}

/-- A read over a clock.  It is itself the only one who sleeps. -/
def clocked (codec : Codec) : ClockedMachine ReadState ReadInput Unit where
  step := step codec
  reads input now := input.turn?.all fun turn => turn.isAt now
  wakes
    | .wake _ => some ()
    | _ => none
  sleeps _ next := next.phase.delay?.map fun delay => ((), delay)

def Issues (state next : ReadState) : Prop :=
  state.log.requests.length < next.log.requests.length

/-! ## Steps -/

structure SamePace (state next : ReadState) : Prop where
  options : next.operation.options = state.operation.options
  deadline : next.operation.deadline = state.operation.deadline
  requests : next.log.requests = state.log.requests

theorem SamePace.not_issues (h : SamePace state next) : ¬ state.Issues next := by
  rw [Issues, h.requests]
  exact lt_irrefl _

theorem samePace_fail (state : ReadState) (sender : Bool) (error : ReadError) :
    SamePace state (state.fail sender error) := by
  cases sender <;> exact ⟨rfl, rfl, rfl⟩

theorem samePace_failWith (state : ReadState) (sender : Bool) (code : Code) (error : ReadError) :
    SamePace state (state.failWith sender code error) := by
  have hfail := samePace_fail { state with operation := state.operation.finish code } sender error
  exact ⟨hfail.options, hfail.deadline, hfail.requests⟩

theorem samePace_retries {sender : Bool} {status : Status} {turn : ReadTurn}
    (h : Retries codec state sender status turn next) : SamePace state next := by
  cases h with
  | late => exact samePace_failWith _ _ _ _
  | refused htop hrefused => exact samePace_failWith _ _ _ _
  | panicked htop hretryable hbudget hbackoff => exact ⟨rfl, rfl, rfl⟩
  | backedOff hretryable hbudget hbackoff hremaining hdelay => exact ⟨rfl, rfl, rfl⟩

theorem samePace_takesChunks {active : ActiveAttempt} {before : Int} {chunks : List CellChunk}
    (h : TakesChunks state active before chunks next) : SamePace state next := by
  cases h with
  | rejected hpush => exact ⟨rfl, rfl, rfl⟩
  | row hpush => exact ⟨rfl, rfl, rfl⟩
  | full hpush hlimit => exact ⟨rfl, rfl, rfl⟩
  | drained hpush hlimit => exact ⟨rfl, rfl, rfl⟩

theorem samePace_takesMessage {active : ActiveAttempt} {response : ReadRowsResponse}
    (h : TakesMessage state active response next) : SamePace state next := by
  cases h with
  | misplaced hkey hscan => exact ⟨rfl, rfl, rfl⟩
  | unmarked hkey hchunks =>
      have hsame := samePace_takesChunks hchunks
      exact ⟨hsame.options, hsame.deadline, hsame.requests⟩
  | marked hkey hscan hchunks =>
      have hsame := samePace_takesChunks hchunks
      exact ⟨hsame.options, hsame.deadline, hsame.requests⟩

/-- A step issues one request, or none. -/
inductive Paces (state : ReadState) (input : ReadInput) : ReadState → Prop
  | same {next : ReadState} (hsame : SamePace state next) : Paces state input next
  | issued {sender : Bool} {turn : ReadTurn} {request : ReadRowsRequest}
      {remaining : Duration} {deadline : Instant} (hturn : input.turn? = some turn)
      (hremaining : state.operation.remaining turn.call = some remaining) :
      Paces state input
        (state.issue sender turn.arm
          (min state.operation.options.deadlines.attemptTimeout remaining) deadline request)

theorem paces_calls {sender : Bool} {turn : ReadTurn} (hturn : input.turn? = some turn)
    (h : Calls codec state sender turn next) : Paces state input next := by
  cases h with
  | exhausted hrequest => exact .same ⟨rfl, rfl, rfl⟩
  | late hremaining => exact .same (samePace_failWith _ _ _ _)
  | tooLarge hrequest hremaining hdeadline => exact .same (samePace_fail _ _ _)
  | panicked hrequest hremaining hdeadline htakes => exact .same ⟨rfl, rfl, rfl⟩
  | issued hrequest hremaining hdeadline => exact .issued hturn hremaining

theorem paces_step (h : Step codec state input next) : Paces state input next := by
  cases h with
  | expired hphase htop => exact .same (samePace_failWith _ _ _ _)
  | begun hphase hcalls => exact paces_calls rfl hcalls
  | woken hphase hcalls => exact paces_calls rfl hcalls
  | failed merger hunderWay hfailure hretries =>
      have hsame := samePace_retries hretries
      exact .same ⟨hsame.options, hsame.deadline, hsame.requests⟩
  | message hphase htakes => exact .same (samePace_takesMessage htakes)
  | sent hphase htakes =>
      have hsame := samePace_takesChunks htakes
      exact .same ⟨hsame.options, hsame.deadline, hsame.requests⟩
  | endedEarly hphase hfinish => exact .same ⟨rfl, rfl, rfl⟩
  | _ => exact .same ⟨rfl, rfl, rfl⟩

theorem isOver_failWith (state : ReadState) (sender : Bool) (code : Code) (error : ReadError) :
    (state.failWith sender code error).phase = .terminating error ∨
      (state.failWith sender code error).phase = .finished (.failed error) := by
  cases sender with
  | true => exact Or.inl rfl
  | false => exact Or.inr rfl

/-- A read that is over hands its error over, or is cancelled. -/
theorem over_step (hover : state.phase.isOver) (h : Step codec state input next) :
    SamePace state next ∧ (next.phase = .finished .cancelled ∨
      ∃ error, state.phase = .terminating error ∧ next.phase = .finished (.failed error)) := by
  have hnot : ∀ {phase}, state.phase = phase → phase.isOver := fun hphase => hphase ▸ hover
  cases h with
  | expired hphase htop => cases hnot hphase
  | begun hphase hcalls => cases hnot hphase
  | woken hphase hcalls => cases hnot hphase
  | opened hphase => cases hnot hphase
  | failed merger hunderWay hfailure hretries =>
      cases hphase : state.phase with
      | terminating error => simp [hphase, ReadPhase.underWay] at hunderWay
      | finished how => simp [hphase, ReadPhase.underWay] at hunderWay
      | _ => cases hnot hphase
  | message hphase htakes => cases hnot hphase
  | sent hphase htakes => cases hnot hphase
  | ended hphase hfinish => cases hnot hphase
  | endedEarly hphase hfinish => cases hnot hphase
  | deserted hphase hgone => cases hnot hphase
  | abandoned hunderWay hgone => exact ⟨⟨rfl, rfl, rfl⟩, Or.inl rfl⟩
  | dropped hlive => exact ⟨⟨rfl, rfl, rfl⟩, Or.inl rfl⟩
  | reported hphase => exact ⟨⟨rfl, rfl, rfl⟩, Or.inr ⟨_, hphase, rfl⟩⟩
  | unreported hphase => exact ⟨⟨rfl, rfl, rfl⟩, Or.inl rfl⟩

/-- The backoff sleep is over with a wake-up, or with the read. -/
theorem asleep_step {sender : Bool} {delay : Duration}
    (hphase : state.phase = .backingOff sender delay)
    (hwakes : (clocked codec).wakes input ≠ some ()) (h : Step codec state input next) :
    SamePace state next ∧ next.phase.isOver := by
  have hnot : ∀ {phase}, state.phase = phase → ReadPhase.backingOff sender delay = phase :=
    fun hother => hphase.symm.trans hother
  cases h with
  | woken hother hcalls => exact absurd rfl hwakes
  | failed merger hunderWay hfailure hretries => simp [hphase, ReadPhase.underWay] at hunderWay
  | deserted hother hgone => exact ⟨⟨rfl, rfl, rfl⟩, rfl⟩
  | abandoned hunderWay hgone => exact ⟨⟨rfl, rfl, rfl⟩, rfl⟩
  | dropped hlive => exact ⟨⟨rfl, rfl, rfl⟩, rfl⟩
  | _ hother => cases hnot hother

theorem remaining_eq_some {operation : ReadOperation} {now : Instant} {remaining : Duration}
    (h : operation.remaining now = some remaining) :
    now < operation.deadline ∧ remaining = operation.deadline - now := by
  obtain ⟨hsince, hne⟩ := Option.filter_eq_some_iff.1 h
  unfold Instant.checkedDurationSince at hsince
  split_ifs at hsince with hle
  obtain rfl := Option.some.inj hsince
  exact ⟨Nat.sub_ne_zero_iff_lt.1 (of_decide_eq_true hne), rfl⟩

theorem failure_of_isGone (h : input.isGone) : input.failure = none := by
  cases input with
  | sendFailed => rfl
  | closed => rfl
  | _ => cases h

/-- After a failure the read sleeps or is over, and it is over when the delay is too long. -/
structure Yields (codec : Codec) (state : ReadState) (status : Status) (turn : ReadTurn)
    (now : Instant) (phase : ReadPhase) : Prop where
  rests : (∃ sender delay, phase = .backingOff sender delay ∧
    (retryDelay codec status).getD 0 ≤ delay) ∨ phase.isOver
  stops : isRetryable status →
    state.operation.attempts < state.operation.options.retry.maxAttempts.toNat →
    ∀ drawn ∈ backoff codec state.operation.options.retry state.operation.attempts turn.draw,
    state.operation.deadline - now ≤ max drawn ((retryDelay codec status).getD 0) →
      phase = .terminating state.operation.deadlineError ∨
        phase = .finished (.failed state.operation.deadlineError)

theorem yields_retries {sender : Bool} {status : Status} {turn : ReadTurn} {now : Instant}
    (hat : turn.isAt now) (h : Retries codec state sender status turn next) :
    Yields codec state status turn now next.phase := by
  have hretry : turn.retry = now := (of_decide_eq_true hat).2.1
  have hover : ∀ {phase : ReadPhase} {error}, phase = .terminating error ∨
      phase = .finished (.failed error) → phase.isOver := by
    rintro phase error (rfl | rfl)
    · rfl
    · rfl
  cases h with
  | late =>
      have hfailed := isOver_failWith state sender .deadlineExceeded state.operation.deadlineError
      exact ⟨Or.inr (hover hfailed), fun _ _ _ _ _ => hfailed⟩
  | refused htop hrefused =>
      have hfailed := isOver_failWith state sender status.code
        (.readRows state.operation.attempts status)
      refine ⟨Or.inr (hover hfailed), fun hretryable hbudget => ?_⟩
      rcases hrefused with hrefused | hspent
      · exact absurd hretryable hrefused
      · exact absurd hbudget (not_lt.2 hspent)
  | panicked htop hretryable hbudget hbackoff =>
      refine ⟨Or.inr rfl, fun _ _ drawn hdrawn => ?_⟩
      cases hbackoff.symm.trans hdrawn
  | backedOff hretryable hbudget hbackoff hremaining hdelay =>
      refine ⟨Or.inl ⟨_, _, rfl, le_max_right _ _⟩, fun _ _ drawn hdrawn hlong => ?_⟩
      obtain rfl := Option.some.inj (hbackoff.symm.trans hdrawn)
      obtain ⟨-, hleft⟩ := remaining_eq_some hremaining
      rw [hretry] at hleft
      exact absurd (hleft ▸ hdelay) (not_lt.2 hlong)

theorem failed_step {status : Status} {turn : ReadTurn} {now : Instant}
    (hfailure : input.failure = some (status, turn)) (hat : turn.isAt now)
    (h : Step codec state input next) :
    SamePace state next ∧ Yields codec state status turn now next.phase := by
  cases h with
  | failed merger hunderWay hfound hretries =>
      obtain ⟨rfl, rfl⟩ := Prod.mk.inj (Option.some.inj (hfailure.symm.trans hfound))
      have hsame := samePace_retries hretries
      have hyields := yields_retries hat hretries
      exact ⟨⟨hsame.options, hsame.deadline, hsame.requests⟩, hyields.rests, hyields.stops⟩
  | deserted hphase hgone =>
      rw [failure_of_isGone hgone] at hfailure
      cases hfailure
  | abandoned hunderWay hgone =>
      rw [failure_of_isGone hgone] at hfailure
      cases hfailure
  | _ => cases hfailure

/-! ## Runs -/

structure PaceInv (options : ReadOptions) (deadline : Instant) (state : ReadState) : Prop where
  inTime : ∀ issued ∈ state.log.requests, issued.InTime options deadline
  options : state.operation.options = options
  deadline : state.operation.deadline = deadline

theorem paceInv_step {now : Instant} {options : ReadOptions} {deadline : Instant}
    (h : PaceInv options deadline state) (hreads : (clocked codec).reads input now)
    (hstep : Step codec state input next) : PaceInv options deadline next := by
  cases paces_step hstep with
  | same hsame =>
      refine ⟨?_, hsame.options.trans h.options, hsame.deadline.trans h.deadline⟩
      rw [hsame.requests]
      exact h.inTime
  | issued hturn hremaining =>
      refine ⟨fun issued hissued => ?_, h.options, h.deadline⟩
      rcases List.mem_append.1 hissued with hold | hnew
      · exact h.inTime issued hold
      · have hat := of_decide_eq_true ((Option.all_eq_true _ _).1 hreads _ hturn)
        obtain ⟨hlt, rfl⟩ := remaining_eq_some hremaining
        rw [List.mem_singleton.1 hnew]
        rw [hat.2.2.1, h.deadline] at hlt
        constructor
        · show _ < deadline
          rw [hat.2.2.2]
          exact hlt
        · rw [h.options, h.deadline, hat.2.2.1, hat.2.2.2]

/-- A read that sleeps issues nothing before it is woken. -/
theorem notBefore_of_asleep {timed : Timed ReadState Unit} {bound : Nat}
    (hrests : (∃ sender delay, timed.state.phase = .backingOff sender delay ∧
      bound ≤ timed.wakeAt ()) ∨ timed.state.phase.isOver) :
    (clocked codec).NotBefore Issues bound timed := by
  refine ClockedMachine.notBefore_of_rests
    (fun state : ReadState => ∃ sender delay, state.phase = .backingOff sender delay)
    (fun state => state.phase.isOver) () ?_ ?_ ?_
  · intro state input next hover hstep
    obtain ⟨hsame, hnext⟩ := over_step hover (step_of_step hstep)
    refine ⟨?_, hsame.not_issues⟩
    rcases hnext with hphase | ⟨error, -, hphase⟩
    · rw [hphase]
      rfl
    · rw [hphase]
      rfl
  · rintro state input next ⟨sender, delay, hphase⟩ hwakes hstep
    obtain ⟨hsame, hover⟩ := asleep_step hphase hwakes (step_of_step hstep)
    exact ⟨hsame.not_issues, Or.inl hover⟩
  · rcases hrests with ⟨sender, delay, hphase, hbound⟩ | hover
    · exact Or.inr (Or.inl ⟨⟨sender, delay, hphase⟩, hbound⟩)
    · exact Or.inl hover

/-- An attempt fails at one instant, and the backoff sleep starts then. -/
theorem failed_of_tick {timed next : Timed ReadState Unit} {now : Instant} {status : Status}
    {turn : ReadTurn} (htick : (clocked codec).tick timed (now, input) = some next)
    (hfailure : input.failure = some (status, turn)) :
    SamePace timed.state next.state ∧ Yields codec timed.state status turn now next.state.phase ∧
      ∀ sender delay, next.state.phase = .backingOff sender delay →
        next.wakeAt () = now + delay := by
  have hticks := ClockedMachine.ticks_of_tick htick
  have hturn : input.turn? = some turn := by
    cases input with
    | refused other turn => cases hfailure; rfl
    | openTimedOut turn => cases hfailure; rfl
    | streamBroke other turn => cases hfailure; rfl
    | streamTimedOut turn => cases hfailure; rfl
    | _ => cases hfailure
  have hat := (Option.all_eq_true _ _).1 hticks.reads turn hturn
  obtain ⟨hsame, hyields⟩ := failed_step hfailure hat (step_of_step hticks.step)
  refine ⟨hsame, hyields, fun sender delay hphase => ?_⟩
  apply hticks.asleep () delay
  show next.state.phase.delay?.map _ = _
  rw [hphase]
  rfl

end ReadState

end BigtableClient
