import BigtableClient.ProofSupport.Timers
import BigtableClient.Proofs.Pacing
import BigtableClient.Proofs.StreamOrder

/-!
# The deadline of a read

An attempt of a read has a timer for its own deadline, which is that of the operation
at the latest, and a backoff sleep ends before the deadline of the operation.  Only a
consumer that takes no rows, or a server whose next answer is always ready, can hold a
read up for longer.
-/

namespace BigtableClient

open Proto
open ProofSupport.Clock ProofSupport.Timers ProofSupport.Transition

def ReadPhase.attemptDeadline? : ReadPhase → Option Instant
  | .calling _ deadline _ _ => some deadline
  | .streaming active => some active.deadline
  | .sending active _ _ _ => some active.deadline
  | _ => none

def ReadPhase.isReady : ReadPhase → Bool
  | .starting => true
  | .sending _ _ _ _ => true
  | .terminating _ => true
  | _ => false

def ReadInput.isOwn : ReadInput → Bool
  | .begin _ => true
  | .wake _ => true
  | .openTimedOut _ => true
  | .streamTimedOut _ => true
  | .sent => true
  | _ => false

namespace ReadState

variable {codec : Codec} {state next : ReadState} {input : ReadInput} {options : ReadOptions}
  {timed timed' : Timed ReadState Unit} {deadline instant wakeAt : Instant} {now lag : Nat}

/-! ## Timers -/

/-- When the timer fires that the read waits for, if its sleep is over at that instant. -/
def alarm? (wakeAt : Instant) (state : ReadState) : Option Instant :=
  match state.phase with
  | .backingOff _ _ => some wakeAt
  | .calling _ deadline _ _ => some deadline
  | phase => phase.attemptDeadline?.map fun deadline => min deadline state.operation.deadline

/-- The consumer takes what there is for it at once, and every await point has its timer. -/
def drive : Drive ReadState ReadInput Unit where
  urgent state := state.phase.isReady
  alarm timed instant := timed.state.alarm? (timed.wakeAt ()) = some instant
  answer := ReadInput.isAnswer

def Guarded (state : ReadState) : Prop :=
  ∀ deadline, state.phase.attemptDeadline? = some deadline →
    ∃ issued, state.log.requests.getLast? = some issued ∧
      deadline = issued.instant + issued.timeout

structure DeadlineInv (options : ReadOptions) (deadline : Instant)
    (timed : Timed ReadState Unit) : Prop where
  pace : PaceInv options deadline timed.state
  guarded : timed.state.Guarded
  asleep : ∀ sender delay, timed.state.phase = .backingOff sender delay →
    timed.wakeAt () ≤ deadline

theorem IssuedRead.InTime.end_le {issued : IssuedRead} (h : issued.InTime options deadline) :
    issued.instant + issued.timeout ≤ deadline :=
  Nat.add_le_of_le_sub' h.1.le (h.2.trans (min_le_right _ _))

theorem DeadlineInv.attemptDeadline_le (h : DeadlineInv options deadline timed)
    (hattempt : timed.state.phase.attemptDeadline? = some instant) : instant ≤ deadline := by
  obtain ⟨issued, hlast, rfl⟩ := h.guarded instant hattempt
  exact IssuedRead.InTime.end_le (h.pace.inTime issued (List.mem_of_getLast? hlast))

theorem DeadlineInv.alarm?_of_attempt (h : DeadlineInv options deadline timed) (wakeAt : Instant)
    (hattempt : timed.state.phase.attemptDeadline? = some instant) :
    timed.state.alarm? wakeAt = some instant := by
  have hle := h.attemptDeadline_le hattempt
  rw [← h.pace.deadline] at hle
  have hmin : min instant timed.state.operation.deadline = instant := min_eq_left hle
  unfold alarm?
  cases hphase : timed.state.phase with
  | backingOff sender delay =>
      rw [hphase] at hattempt
      cases hattempt
  | calling sender attemptDeadline request telemetry =>
      rw [hphase] at hattempt
      exact hattempt
  | _ =>
      rw [hphase] at hattempt
      simp only [hattempt, Option.map_some, hmin]

theorem DeadlineInv.alarm?_eq_some (h : DeadlineInv options deadline timed) {wakeAt : Instant}
    (halarm : timed.state.alarm? wakeAt = some instant) :
    timed.state.phase.attemptDeadline? = some instant ∨
      ∃ sender delay, timed.state.phase = .backingOff sender delay ∧ wakeAt = instant := by
  cases hattempt : timed.state.phase.attemptDeadline? with
  | some attemptDeadline =>
      rw [h.alarm?_of_attempt wakeAt hattempt] at halarm
      exact Or.inl halarm
  | none =>
      unfold alarm? at halarm
      split at halarm
      · next sender delay hphase => exact Or.inr ⟨sender, delay, hphase, Option.some.inj halarm⟩
      · next attemptDeadline request telemetry hphase =>
          rw [hphase] at hattempt
          cases hattempt
      · rw [hattempt] at halarm
        cases halarm

/-! ## Steps -/

/-- What a step does about the timer: it leaves that of the attempt as it is, it sets the one of a
new attempt or of a sleep, or nothing is left to wait for. -/
inductive Guards (codec : Codec) (state : ReadState) (input : ReadInput) : ReadState → Prop
  | same {next : ReadState} {instant : Instant}
      (hattempt : state.phase.attemptDeadline? = some instant)
      (hnext : next.phase.attemptDeadline? = some instant)
      (hrequests : next.log.requests = state.log.requests) : Guards codec state input next
  | issued {sender : Bool} {turn : ReadTurn} {request : ReadRowsRequest} {timeout : Duration}
      {deadline : Instant} (hturn : input.turn? = some turn)
      (hdeadline : Instant.checkedAdd turn.arm timeout = some deadline) :
      Guards codec state input (state.issue sender turn.arm timeout deadline request)
  | slept {sender : Bool} {status : Status} {turn : ReadTurn} {delay : Duration}
      {next : ReadState} (hfailure : input.failure = some (status, turn))
      (hphase : next.phase = .backingOff sender delay)
      (hdelay : turn.retry + delay < state.operation.deadline) : Guards codec state input next
  | ended {next : ReadState} (hover : next.phase.isOver) : Guards codec state input next

theorem isOver_of_failWith (state : ReadState) (sender : Bool) (code : Code) (error : ReadError) :
    (state.failWith sender code error).phase.isOver := by
  cases sender <;> rfl

theorem guards_calls {sender : Bool} {turn : ReadTurn} (hturn : input.turn? = some turn)
    (h : Calls codec state sender turn next) : Guards codec state input next := by
  cases h with
  | exhausted hrequest => exact .ended rfl
  | late hremaining => exact .ended (isOver_of_failWith _ _ _ _)
  | tooLarge hrequest hremaining hdeadline => exact .ended (by cases sender <;> rfl)
  | panicked hrequest hremaining hdeadline htakes => exact .ended rfl
  | issued hrequest hremaining hdeadline htakes => exact .issued hturn hdeadline

theorem guards_retries {failed : ReadState} {sender : Bool} {status : Status} {turn : ReadTurn}
    (hfailure : input.failure = some (status, turn))
    (h : Retries codec failed sender status turn next)
    (hdeadline : failed.operation.deadline = state.operation.deadline) :
    Guards codec state input next := by
  cases h with
  | late => exact .ended (isOver_of_failWith _ _ _ _)
  | refused htop hrefused => exact .ended (isOver_of_failWith _ _ _ _)
  | panicked htop hretryable hbudget hbackoff => exact .ended rfl
  | backedOff hretryable hbudget hbackoff hremaining hdelay =>
      refine .slept hfailure rfl ?_
      obtain ⟨hlt, rfl⟩ := remaining_eq_some hremaining
      rw [← hdeadline]
      exact Nat.add_lt_of_lt_sub' hdelay

theorem guards_takesChunks {taking : ReadState} {active : ActiveAttempt} {before : Int}
    {chunks : List CellChunk} (hattempt : state.phase.attemptDeadline? = some active.deadline)
    (h : TakesChunks taking active before chunks next)
    (hrequests : taking.log.requests = state.log.requests) : Guards codec state input next := by
  cases h with
  | rejected hpush => exact .ended rfl
  | row hpush => exact .same hattempt rfl hrequests
  | full hpush hlimit => exact .ended rfl
  | drained hpush hlimit => exact .same hattempt rfl hrequests

theorem guards_step (h : Step codec state input next) : Guards codec state input next := by
  cases h with
  | begun hphase hcalls htop => exact guards_calls rfl hcalls
  | woken hphase hcalls => exact guards_calls rfl hcalls
  | @opened sender deadline request telemetry hphase =>
      exact .same (congrArg ReadPhase.attemptDeadline? hphase) rfl rfl
  | failed merger hunderWay hfailure hretries => exact guards_retries hfailure hretries rfl
  | @message active response next hphase htakes =>
      have hattempt : state.phase.attemptDeadline? = some (state.hearing active).deadline :=
        congrArg ReadPhase.attemptDeadline? hphase
      cases htakes with
      | misplaced hkey hscan => exact .ended rfl
      | unmarked hkey hchunks => exact guards_takesChunks hattempt hchunks rfl
      | marked hkey hscan hchunks => exact guards_takesChunks hattempt hchunks rfl
  | sent hphase htakes =>
      exact guards_takesChunks (congrArg ReadPhase.attemptDeadline? hphase) htakes rfl
  | _ => exact .ended rfl

theorem attemptDeadline?_of_isOver (hover : state.phase.isOver) :
    state.phase.attemptDeadline? = none := by
  cases hphase : state.phase with
  | terminating error => rfl
  | finished how => rfl
  | _ =>
      rw [hphase] at hover
      cases hover

theorem guarded_step (h : state.Guarded) (hstep : Step codec state input next) :
    next.Guarded := by
  intro deadline hdeadline
  cases guards_step hstep with
  | same hattempt hnext hrequests =>
      obtain rfl := Option.some.inj (hnext.symm.trans hdeadline)
      rw [hrequests]
      exact h _ hattempt
  | issued hturn hadd =>
      obtain rfl := Option.some.inj hdeadline
      obtain ⟨-, hend⟩ := Option.ite_none_right_eq_some.1 hadd
      exact ⟨_, List.getLast?_concat, (Option.some.inj hend).symm⟩
  | slept hfailure hphase hdelay =>
      rw [hphase] at hdeadline
      cases hdeadline
  | ended hover => cases (attemptDeadline?_of_isOver hover).symm.trans hdeadline

/-- Only after a failure the read goes to sleep. -/
theorem exists_failure_of_backingOff {sender : Bool} {delay : Duration}
    (h : Step codec state input next) (hphase : next.phase = .backingOff sender delay) :
    ∃ status turn, input.failure = some (status, turn) ∧
      turn.retry + delay < state.operation.deadline := by
  cases guards_step h with
  | same hattempt hnext hrequests =>
      rw [hphase] at hnext
      cases hnext
  | issued hturn hdeadline => cases hphase
  | slept hfailure hsleeps hdelay =>
      obtain ⟨-, rfl⟩ := ReadPhase.backingOff.inj (hphase.symm.trans hsleeps)
      exact ⟨_, _, hfailure, hdelay⟩
  | ended hover =>
      rw [hphase] at hover
      cases hover

theorem turn?_of_failure {status : Status} {turn : ReadTurn}
    (h : input.failure = some (status, turn)) : input.turn? = some turn := by
  cases input with
  | refused other turn => cases h; rfl
  | openTimedOut turn => cases h; rfl
  | streamBroke other turn => cases h; rfl
  | streamTimedOut turn => cases h; rfl
  | _ => cases h

/-- A sleep begins at the instant of the step, and is over before the deadline. -/
theorem wakeAt_of_tick {sender : Bool} {delay : Duration}
    (htick : (clocked codec).tick timed (now, input) = some timed')
    (hphase : timed'.state.phase = .backingOff sender delay) :
    now ≤ timed'.wakeAt () ∧ timed'.wakeAt () < timed.state.operation.deadline := by
  have hticks := ClockedMachine.ticks_of_tick htick
  obtain ⟨status, turn, hfailure, hdelay⟩ :=
    exists_failure_of_backingOff (step_of_step hticks.step) hphase
  have hwake := (failed_of_tick htick hfailure).2.2 sender delay hphase
  have hat := (Option.all_eq_true _ _).1 hticks.reads turn (turn?_of_failure hfailure)
  rw [(of_decide_eq_true hat).2.1] at hdelay
  rw [hwake]
  exact ⟨Nat.le_add_right _ _, hdelay⟩

/-! ## Runs -/

theorem deadlineInv_tick (h : DeadlineInv options deadline timed)
    (htick : (clocked codec).tick timed (now, input) = some timed') :
    DeadlineInv options deadline timed' := by
  have hticks := ClockedMachine.ticks_of_tick htick
  have hstep := step_of_step hticks.step
  refine ⟨paceInv_step h.pace hticks.reads hstep, guarded_step h.guarded hstep, ?_⟩
  intro sender delay hphase
  rw [← h.pace.deadline]
  exact (wakeAt_of_tick htick hphase).2.le

/-- A new attempt sets its timer to an instant to come. -/
theorem attemptDeadline?_step (hreads : (clocked codec).reads input now)
    (h : Step codec state input next) (hattempt : next.phase.attemptDeadline? = some instant) :
    state.phase.attemptDeadline? = some instant ∨ now ≤ instant := by
  cases guards_step h with
  | same hbefore hnext hrequests =>
      obtain rfl := Option.some.inj (hnext.symm.trans hattempt)
      exact Or.inl hbefore
  | issued hturn hadd =>
      obtain rfl := Option.some.inj hattempt
      obtain ⟨-, hend⟩ := Option.ite_none_right_eq_some.1 hadd
      have hat := (Option.all_eq_true _ _).1 hreads _ hturn
      rw [(of_decide_eq_true hat).2.2.2] at hend
      rw [← Option.some.inj hend]
      exact Or.inr (Nat.le_add_right _ _)
  | slept hfailure hphase hdelay =>
      rw [hphase] at hattempt
      cases hattempt
  | ended hover => cases (attemptDeadline?_of_isOver hover).symm.trans hattempt

theorem alarm_of_tick (h : DeadlineInv options deadline timed)
    (htick : (clocked codec).tick timed (now, input) = some timed')
    (halarm : drive.alarm timed' instant) : drive.alarm timed instant ∨ now ≤ instant := by
  have hticks := ClockedMachine.ticks_of_tick htick
  rcases (deadlineInv_tick h htick).alarm?_eq_some halarm with
    hattempt | ⟨sender, delay, hphase, rfl⟩
  · rcases attemptDeadline?_step hticks.reads (step_of_step hticks.step) hattempt with
      hbefore | hlater
    · exact Or.inl (h.alarm?_of_attempt _ hbefore)
    · exact Or.inr hlater
  · exact Or.inr (wakeAt_of_tick htick hphase).1

/-- A read that is not over waits for the consumer or for a timer. -/
theorem driven_of_inv (h : DeadlineInv options deadline timed)
    (hlive : timed.state.phase.isFinished = false) : Driven drive deadline timed := by
  have hguarded : ∀ instant, timed.state.phase.attemptDeadline? = some instant →
      Driven drive deadline timed := fun instant hattempt =>
    Or.inr ⟨instant, h.alarm?_of_attempt _ hattempt, h.attemptDeadline_le hattempt⟩
  cases hphase : timed.state.phase with
  | starting => exact Or.inl (congrArg ReadPhase.isReady hphase)
  | terminating error => exact Or.inl (congrArg ReadPhase.isReady hphase)
  | backingOff sender delay =>
      refine Or.inr ⟨timed.wakeAt (), ?_, h.asleep sender delay hphase⟩
      show timed.state.alarm? _ = _
      rw [alarm?, hphase]
  | finished how =>
      rw [hphase] at hlive
      cases hlive
  | _ => exact hguarded _ (congrArg ReadPhase.attemptDeadline? hphase)

/-- What becomes of a read over time: nothing happens to it long after its deadline, nor to an
attempt long after the time of its request, and until the read is over something is to happen by
then, for which it does not need the server. -/
structure OverInTime (codec : Codec) (lag : Nat) (deadline : Instant)
    (timed : Timed ReadState Unit) : Prop where
  now_le : timed.now ≤ deadline + lag
  attempt_le : timed.state.phase.attemptDeadline?.isSome →
    ∃ issued, timed.state.log.requests.getLast? = some issued ∧
      timed.now ≤ issued.instant + issued.timeout + lag
  next_le : timed.state.phase.isFinished = false →
    ∀ input : Nat × ReadInput, OnTime drive lag timed input → input.1 ≤ deadline + lag
  goes_on : timed.state.phase.isFinished = false → ∃ now input, ReadInput.isOwn input ∧
    OnTime drive lag timed (now, input) ∧ ((clocked codec).tick timed (now, input)).isSome

theorem tick_isSome (hnow : timed.now ≤ now) (hreads : (clocked codec).reads input now)
    (hwakes : (clocked codec).wakes input = some () → timed.wakeAt () ≤ now)
    (hstep : (timed.state.step codec input).isSome) :
    ((clocked codec).tick timed (now, input)).isSome := by
  unfold ClockedMachine.tick
  rw [if_pos ⟨hnow, hreads, fun _ hsleeper => hwakes hsleeper⟩, Option.isSome_map]
  exact hstep

theorem tick_isSome_of_awake (hnow : timed.now ≤ now) (hreads : (clocked codec).reads input now)
    (hwakes : (clocked codec).wakes input = none) (hstep : (timed.state.step codec input).isSome) :
    ((clocked codec).tick timed (now, input)).isSome := by
  apply tick_isSome hnow hreads _ hstep
  intro hsome
  rw [hwakes] at hsome
  cases hsome

theorem isAt_const (now : Instant) (draw : Nat) :
    ReadTurn.isAt { top := now, retry := now, call := now, arm := now, draw := draw } now :=
  decide_eq_true ⟨rfl, rfl, rfl, rfl⟩

theorem exists_own_onTime (h : DeadlineInv options deadline timed)
    (htimely : Timely drive lag timed) (hdriven : Driven drive deadline timed) :
    ∃ now input, ReadInput.isOwn input ∧ OnTime drive lag timed (now, input) ∧
      ((clocked codec).tick timed (now, input)).isSome := by
  let turn (now : Instant) : ReadTurn :=
    { top := now, retry := now, call := now, arm := now, draw := 0 }
  have hsent : ∀ now, timed.now ≤ now → (timed.state.step codec .sent).isSome →
      ((clocked codec).tick timed (now, .sent)).isSome :=
    fun now hnow hstep => tick_isSome_of_awake hnow rfl rfl hstep
  refine exists_onTime (fun input => ReadInput.isOwn input) htimely hdriven ?_ ?_
  · intro hready
    cases hphase : timed.state.phase with
    | starting =>
        exact ⟨.begin (turn timed.now), rfl,
          tick_isSome_of_awake (Nat.le_refl _) (isAt_const _ _) rfl (by simp [step, hphase])⟩
    | sending active before row chunks =>
        exact ⟨.sent, rfl, hsent _ (Nat.le_refl _) (by simp [step, hphase])⟩
    | terminating error =>
        exact ⟨.sent, rfl, hsent _ (Nat.le_refl _) (by simp [step, hphase])⟩
    | _ =>
        have hnot : timed.state.phase.isReady = true := hready
        rw [hphase] at hnot
        cases hnot
  · intro instant now halarm hnow hinstant
    rcases h.alarm?_eq_some halarm with hattempt | ⟨sender, delay, hphase, hwake⟩
    · cases hphase : timed.state.phase with
      | calling sender attemptDeadline request telemetry =>
          exact ⟨.openTimedOut (turn now), rfl,
            tick_isSome_of_awake hnow (isAt_const _ _) rfl (by simp [step, hphase])⟩
      | streaming active =>
          exact ⟨.streamTimedOut (turn now), rfl,
            tick_isSome_of_awake hnow (isAt_const _ _) rfl (by simp [step, hphase])⟩
      | sending active before row chunks =>
          exact ⟨.sent, rfl, hsent now hnow (by simp [step, hphase])⟩
      | _ =>
          rw [hphase] at hattempt
          cases hattempt
    · exact ⟨.wake (turn now), rfl, tick_isSome hnow (isAt_const _ _)
        (fun _ => hwake.le.trans hinstant) (by simp [step, hphase])⟩

theorem live_of_tick {moment : Nat × ReadInput}
    (htick : (clocked codec).tick timed moment = some timed') :
    timed.state.phase.isFinished = false := by
  obtain ⟨now, input⟩ := moment
  have hstep := (ClockedMachine.ticks_of_tick htick).step
  cases hphase : timed.state.phase with
  | finished how => simp [clocked, step, hphase] at hstep
  | _ => rfl

theorem deadlineInv_new (request : ReadRowsRequest) (options : ReadOptions) (deadline : Instant)
    (tableId : String) (now : Instant) :
    DeadlineInv options deadline (.start (.new request options deadline tableId) now) :=
  ⟨⟨nofun, rfl, rfl⟩, nofun, nofun⟩

theorem opening_eq_new {parse : MetadataParser} {config : ClientConfig} {query : Query}
    {init : ReadState} (hstarted : readRows parse config query options now = .ok (.opening init)) :
    init = .new (query.intoRequest config) options (now + options.deadlines.operationTimeout)
      query.tableId.val := by
  unfold readRows Instant.checkedAdd at hstarted
  split at hstarted
  · cases hstarted
  · split at hstarted
    · cases hstarted
    · dsimp only at hstarted
      split at hstarted
      · cases hstarted
      · split_ifs at hstarted
        exact (ReadCall.opening.inj (Except.ok.inj hstarted)).symm

/-- A read is over soon after its deadline: while its consumer takes what there is for it, timers
fire at most a lag too late and no answer of the server is ready behind a timer, it takes no step
later than that after its deadline. -/
theorem ends_in_time {parse : MetadataParser} {config : ClientConfig} {query : Query}
    {init : ReadState} (hstarted : readRows parse config query options now = .ok (.opening init))
    (hreach : ReachableBy (clocked codec).tick (OnTime drive lag) (.start init now) timed) :
    OverInTime codec lag (now + options.deadlines.operationTimeout) timed := by
  obtain rfl := opening_eq_new hstarted
  obtain ⟨hinv, htimely, hle⟩ := inTime_of_reachable
    (DeadlineInv options (now + options.deadlines.operationTimeout))
    (fun _ _ _ hinv htick => deadlineInv_tick hinv htick)
    (fun _ _ _ _ hinv htick _ halarm => alarm_of_tick hinv htick halarm)
    (fun _ _ _ hinv htick => driven_of_inv hinv (live_of_tick htick))
    (deadlineInv_new _ options _ _ now) nofun
    ((Nat.le_add_right _ _).trans (Nat.le_add_right _ lag)) hreach
  refine ⟨hle, fun hattempt => ?_, fun hlive input htime => ?_, fun hlive => ?_⟩
  · obtain ⟨instant, hinstant⟩ := Option.isSome_iff_exists.1 hattempt
    obtain ⟨issued, hlast, rfl⟩ := hinv.guarded instant hinstant
    exact ⟨issued, hlast, htimely _ (hinv.alarm?_of_attempt _ hinstant)⟩
  · exact htime.le_of_driven (driven_of_inv hinv hlive) hle
  · exact exists_own_onTime hinv htimely (driven_of_inv hinv hlive)

theorem onTime_iff {moment : Nat × ReadInput} :
    OnTime drive lag timed moment ↔ (timed.state.phase.isReady → moment.1 ≤ timed.now) ∧
      ∀ instant ∈ timed.state.alarm? (timed.wakeAt ()), moment.1 ≤ instant + lag :=
  ⟨fun h => ⟨h.1.urgent, fun _ halarm => h.le_alarm halarm⟩,
    fun h => ⟨⟨h.1, fun _ => h.2⟩, fun _ => h.2⟩⟩

instance (timed : Timed ReadState Unit) (moment : Nat × ReadInput) :
    Decidable (OnTime drive lag timed moment) :=
  decidable_of_iff' _ onTime_iff

end ReadState

theorem ReadState.ends_in_time_pacedRead :
    ∃ timed : Timed ReadState Unit, (timed.now = 3 ∧ timed.state.log.requests.length = 2) ∧
      OverInTime sampleCodec 0 (0 + 600 * 1000000000) timed := by
  have hrun : ((run (guarded (ReadState.clocked sampleCodec).tick (OnTime drive 0))
      (.start (.new (wholeTableQuery.intoRequest sampleConfig) .default (600 * 1000000000)
        "events") 0) pacedRead).any fun timed =>
          timed.now = 3 ∧ timed.state.log.requests.length = 2) = true := by decide +kernel
  obtain ⟨timed, hrun, hvalues⟩ := (Option.any_eq_true _ _).1 hrun
  exact ⟨timed, of_decide_eq_true hvalues, ReadState.ends_in_time readRows_wholeTable
    (reachableBy_of_run .start hrun)⟩

end BigtableClient
