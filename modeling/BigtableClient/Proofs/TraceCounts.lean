import BigtableClient.Proofs.Backoff
import BigtableClient.Proofs.BulkTrace
import BigtableClient.Proofs.ReadTrace
import BigtableClient.Proofs.Replay
import BigtableClient.Proofs.Resume
import BigtableClient.Proofs.RetryBudget

/-!
# What the end of a trace counts

The diagnostics of an operation that is over are well bracketed.  Its end reports the
attempts and the retries from counters of 32 bits, which are enough for a read but not
for a bulk mutation, whose batches share them.
-/

namespace BigtableClient

open ProofSupport.Binary64 ProofSupport.Brackets ProofSupport.Transition

/-- The events of an operation that is over are well bracketed, and its end counts them. -/
def BracketedAndCounted (lanes : List (Option Nat)) (events : List DiagnosticEvent) : Prop :=
  ∃ trace : OperationTrace, events = trace.events ∧ trace.WellBracketed lanes ∧ trace.Counts

namespace OperationTrace

variable {lanes : List (Option Nat)} {trace other : OperationTrace}

/-- The events determine the trace, as far as the counts go. -/
theorem Counts.of_events_eq (h : trace.Counts) (hevents : trace.events = other.events) :
    other.Counts := by
  obtain ⟨-, hrest⟩ := List.cons.inj hevents
  obtain ⟨hbody, hend⟩ := List.append_inj' hrest rfl
  obtain ⟨-, -, hattempts, hretries, -⟩ :=
    DiagnosticEvent.operationFinished.inj (List.cons.inj hend).1
  constructor
  · rw [← hattempts, ← hbody]
    exact h.attempts
  · rw [← hretries, ← hbody]
    exact h.retries

/-- A retry is announced once for an attempt. -/
theorem WellBracketed.countMarks_again_le (h : trace.WellBracketed lanes)
    (hnodup : lanes.Nodup) :
    countMarks .again trace.body ≤ countMarks .start trace.body := by
  rw [countMarks_eq_sum hnodup .again h.body, countMarks_eq_sum hnodup .start h.body]
  apply List.sum_le_sum
  intro lane _
  obtain ⟨count, hclosed⟩ := h.numbered lane
  calc (laneMarks lane trace.body).countP (fun found => found.1 = .again)
      ≤ count := hclosed.countP_again_le
    _ = (laneMarks lane trace.body).countP fun found => found.1 = .start :=
      hclosed.countP_start.symm

/-- The counters are exact just as long as they do not wrap. -/
theorem WellBracketed.counts_iff (h : trace.WellBracketed lanes) (hnodup : lanes.Nodup) :
    trace.Counts ↔ countMarks .start trace.body < 2 ^ 32 := by
  constructor
  · intro hcounts
    rw [← hcounts.attempts]
    exact trace.attempts.toNat_lt
  · intro hlt
    have hle := h.countMarks_again_le hnodup
    constructor
    · rw [h.attempts]
      exact Nat.mod_eq_of_lt hlt
    · rw [h.retries]
      exact Nat.mod_eq_of_lt (by omega)

theorem WellBracketed.bracketedAndCounted_iff (h : trace.WellBracketed lanes)
    (hnodup : lanes.Nodup) :
    BracketedAndCounted lanes trace.events ↔ countMarks .start trace.body < 2 ^ 32 := by
  rw [← h.counts_iff hnodup]
  constructor
  · rintro ⟨found, hevents, -, hcounts⟩
    exact hcounts.of_events_eq hevents.symm
  · intro hcounts
    exact ⟨trace, rfl, h, hcounts⟩

end OperationTrace

/-! ## Reads -/

/-- A read makes fewer attempts than its counter holds. -/
theorem ReadState.bracketedAndCounted {codec : Codec} {original : Proto.ReadRowsRequest}
    {options : ReadOptions} {deadline : Instant} {tableId : String} {state : ReadState}
    {how : ReadEnd} (hpolicies : validatePolicies options.retry options.deadlines = .ok ())
    (hreach : Reachable (step codec) (.new original options deadline tableId) state)
    (hphase : state.phase = .finished how) :
    BracketedAndCounted [none] state.operation.telemetry.state.events := by
  have htraced := traced_reachable hreach
  unfold Traced at htraced
  rw [hphase] at htraced
  obtain ⟨trace, hevents, hbracketed, hclosed⟩ := htraced
  obtain ⟨hattempts, hbudget⟩ := attempts_of_reachable hpolicies hreach
  have hmax := options.retry.maxAttempts.toNat_lt
  have hcount : countMarks .start trace.body = state.operation.attempts := by
    rw [countMarks_eq_sum (List.nodup_singleton none) .start hbracketed.body, List.map_singleton,
      List.sum_singleton]
    exact hclosed.countP_start
  rw [hevents, hbracketed.bracketedAndCounted_iff (List.nodup_singleton none), hcount]
  omega

/-! ## Bulk mutations -/

namespace BulkState

variable {state : BulkState}

/-- The batches share one counter. -/
theorem bracketedAndCounted_iff (h : TraceInv state) (hover : state.phase ≠ .running) :
    (∃ trace : OperationTrace, state.telemetry.state.events = trace.events ∧
        trace.WellBracketed (lanes state.batches.length)) ∧
      (BracketedAndCounted (lanes state.batches.length) state.telemetry.state.events ↔
        state.rpcs < 2 ^ 32) := by
  obtain ⟨trace, hevents, hbracketed, hclosed⟩ := h.concluded hover
  refine ⟨⟨trace, hevents, hbracketed⟩, ?_⟩
  rw [hevents, hbracketed.bracketedAndCounted_iff (nodup_lanes _),
    countMarks_start trace.body hbracketed.body hclosed]
  rfl

end BulkState

/-- Diagnostics are well bracketed, however the operation comes to its end.  The end of a read
counts the attempts and the retries, and that of a bulk mutation does just when its batches together
issue fewer than `2 ^ 32` requests. -/
theorem diagnostics_well_bracketed (codec : Codec) :
    (∀ (original : Proto.ReadRowsRequest) (options : ReadOptions) (deadline : Instant)
        (tableId : String) (state : ReadState) (how : ReadEnd),
      validatePolicies options.retry options.deadlines = .ok () →
      Reachable (ReadState.step codec) (.new original options deadline tableId) state →
      state.phase = .finished how →
      BracketedAndCounted [none] state.operation.telemetry.state.events) ∧
    ∀ (encodedLen : EncodedLen) (config : ClientConfig) (bulk : BulkMutation)
        (options : BulkMutationOptions) (deadline : Instant) (state : BulkState),
      validateOptions options = .ok () →
      Reachable (BulkState.step codec) (.start encodedLen config bulk options deadline) state →
      state.phase ≠ .running →
      (∃ trace : OperationTrace, state.telemetry.state.events = trace.events ∧
          trace.WellBracketed (BulkState.lanes state.batches.length)) ∧
        (BracketedAndCounted (BulkState.lanes state.batches.length)
            state.telemetry.state.events ↔ state.rpcs < 2 ^ 32) := by
  constructor
  · intro original options deadline tableId state how hpolicies hreach hphase
    exact ReadState.bracketedAndCounted hpolicies hreach hphase
  · intro encodedLen config bulk options deadline state hoptions hreach hover
    have hvalid := BulkMutationOptions.valid_of_validateOptions hoptions
    exact BulkState.bracketedAndCounted_iff
      (BulkState.traceInv_reachable encodedLen config bulk options deadline hvalid hreach) hover

theorem diagnostics_well_bracketed_interrupted :
    (∃ state : ReadState, state.log.requests.length = 2 ∧
        BracketedAndCounted [none] state.operation.telemetry.state.events) ∧
      ∃ state : BulkState, state.rpcs = 3 ∧
        BracketedAndCounted (BulkState.lanes state.batches.length)
          state.telemetry.state.events := by
  constructor
  · have hrun : ((run (ReadState.step sampleCodec) (.new sampleRead .default 1000 "events")
        interruptedRead).any fun state =>
          state.phase = .finished .completed ∧ state.log.requests.length = 2) = true := by
      decide +kernel
    obtain ⟨state, hrun, hover⟩ := (Option.any_eq_true _ _).1 hrun
    obtain ⟨hphase, hlength⟩ := of_decide_eq_true hover
    exact ⟨state, hlength, (diagnostics_well_bracketed sampleCodec).1 sampleRead .default 1000
      "events" state .completed (by decide +kernel) ⟨_, hrun⟩ hphase⟩
  · have hrun : mixedRun.map (fun state => (state.phase, state.rpcs)) =
        some (.finished mixedResult, 3) := by
      decide +kernel
    obtain ⟨state, hrun, hstate⟩ := Option.map_eq_some_iff.1 hrun
    obtain ⟨hphase, hrpcs⟩ := Prod.mk.inj hstate
    have hbracketed := (diagnostics_well_bracketed plainCodec).2 wireLen bulkConfig sampleBulk
      pairOptions 600000000000 state validateOptions_pair ⟨_, hrun⟩ (by rw [hphase]; nofun)
    refine ⟨state, hrpcs, hbracketed.2.2 ?_⟩
    rw [hrpcs]
    decide

/-! ### A counter that wraps

Two rows are written by two batches, and the server refuses every request.  There is an attempt of
each batch every millisecond, and the future is dropped when both have made `2 ^ 31` of them. -/

def patientBulk : BulkMutation where
  tableId := ⟨"table", validateTableId_table⟩
  entries := [sampleRow 1 0, sampleRow 3 1000]
  entries_nonempty := by decide

/-- One entry a request, a backoff of at most a millisecond, and as many attempts as the policy can
allow in a hundred days. -/
def patientOptions : BulkMutationOptions where
  retry :=
    { maxAttempts := 4294967295
      initialBackoff := 1000000
      maxBackoff := 1000000
      multiplier := .ofNat 2
      jitter := .full }
  deadlines :=
    { operationTimeout := 8640000 * 1000000000
      attemptTimeout := 60 * 1000000000 }
  batch := { BatchPolicy.default with maxEntriesPerRequest := 1 }

def refusal : Status := { code := .unavailable, message := "", details := [] }

def wakeTurn (count : Nat) : AttemptTurn := turnAt (count * 1000000)

def refusalTurn (count : Nat) : RetryTurn where
  draw := 0
  now := count * 1000000

theorem backoff_patientOptions (failedAttempt : Nat) :
    backoff plainCodec patientOptions.retry failedAttempt 0 = some 0 := by
  have hbacksOff : patientOptions.retry.BacksOff plainCodec :=
    RetryPolicy.backsOff_of_lt (fun _ => F64.power_ne_negative (F64.round_ne_negative _ _) _)
      (by decide)
  exact hbacksOff.backoff_zero rfl failedAttempt

/-- What stays the same while a batch of one entry is refused again and again. -/
structure BatchRun.Patient (count : Nat) (run : BatchRun) : Prop where
  retry : run.operation.options.retry = patientOptions.retry
  maxAttempts : run.operation.maxAttempts = 4294967295
  deadline : run.operation.deadline = 8640000000000000
  past : run.past.length = count

structure BatchRun.Refused (count : Nat) (run : BatchRun) : Prop extends Patient count run where
  phase : ∃ delay, run.phase = .sleeping delay
  pending : ∃ entry, run.operation.pending = [entry] ∧ entry.retrySafe ∧ entry.attempts = count

structure BatchRun.Called (count : Nat) (run : BatchRun) : Prop extends Patient count run where
  phase : ∃ entry deadline telemetry attempt,
    run.phase = .calling [entry] deadline telemetry attempt ∧
      entry.retrySafe ∧ entry.attempts = count + 1

namespace BatchRun

variable {run : BatchRun} {shared : OperationState} {count : Nat}

theorem Refused.wakes (h : run.Refused count) (hcount : count < 2 ^ 31) :
    ∃ next, run.step plainCodec shared (.woke (wakeTurn count)) = some next ∧
      next.1.Called count := by
  obtain ⟨delay, hphase⟩ := h.phase
  obtain ⟨entry, hpending, hsafe, hattempts⟩ := h.pending
  have htakes : run.TakesTimeout plainCodec (wakeTurn count) := by
    apply TakesTimeout.of_le
    intro timeout htimeout
    rw [h.deadline] at htimeout
    exact decide_eq_true (lt_of_le_of_lt htimeout (by decide))
  have hcalls :
      run.loop plainCodec shared (wakeTurn count) = run.issue shared (wakeTurn count) := by
    rw [loop, if_neg (by simp [hpending]), if_neg, call_eq, if_pos htakes]
    rw [h.deadline]
    show ¬ count * 1000000 ≥ 8640000000000000
    omega
  have hcounted : entry.countAttempt.attempts = count + 1 := by
    show min (entry.attempts + 1) u32Max = count + 1
    rw [hattempts, u32Max]
    omega
  have hstep : run.step plainCodec shared (.woke (wakeTurn count)) =
      some (run.issue shared (wakeTurn count)) := by
    unfold step
    rw [hphase]
    exact congrArg some hcalls
  obtain ⟨deadline, telemetry, attempt, hcalling⟩ : ∃ deadline telemetry attempt,
      (run.issue shared (wakeTurn count)).1.phase =
        .calling (run.operation.pending.map PendingEntry.countAttempt) deadline telemetry attempt :=
    ⟨_, _, _, rfl⟩
  rw [hpending] at hcalling
  exact ⟨_, hstep, ⟨h.retry, h.maxAttempts, h.deadline, h.past⟩, entry.countAttempt, deadline,
    telemetry, attempt, hcalling, hsafe, hcounted⟩

theorem Refused.length_attempts (h : run.Refused count) : run.attempts.length = count := by
  obtain ⟨delay, hphase⟩ := h.phase
  rw [attempts_of_isResting (by rw [hphase]; rfl), h.past]

theorem rpcFailure_refusal {entry : PendingEntry} {maxAttempts : Nat}
    (hsafe : entry.retrySafe) (hlt : entry.attempts < maxAttempts) :
    rpcFailure plainCodec maxAttempts [entry] refusal =
      { code := .unavailable, retry := [entry] } := by
  simp [rpcFailure, classifyStatus, hsafe, hlt, refusal, isMutateRetryable, retryDelay, plainCodec]

theorem Called.refuses (h : run.Called count) (hcount : count < 2 ^ 31) :
    ∃ next, run.step plainCodec shared (.refused refusal (refusalTurn count)) = some next ∧
      next.1.Refused (count + 1) := by
  obtain ⟨entry, deadline, telemetry, attempt, hphase, hsafe, hattempts⟩ := h.phase
  have houtcome : rpcFailure plainCodec run.operation.maxAttempts [entry] refusal =
      { code := .unavailable, retry := [entry] } := by
    rw [h.maxAttempts]
    exact rpcFailure_refusal hsafe (by omega)
  have hstep : run.step plainCodec shared (.refused refusal (refusalTurn count)) =
      some (run.refuse plainCodec shared [entry] telemetry attempt refusal
        (refusalTurn count)) := by
    unfold step
    rw [hphase]
  have hbackoff := backoff_patientOptions (([entry].map PendingEntry.attempts).max?.getD 1)
  rw [← h.retry] at hbackoff
  have hleft : ¬ 8640000000000000 - count * 1000000 ≤ max 0 0 := by omega
  rw [← h.deadline] at hleft
  have hsleeps : (run.refuse plainCodec shared [entry] telemetry attempt refusal
      (refusalTurn count)).1 =
        { run.book attempt (.refused refusal) { code := .unavailable, retry := [entry] } with
          phase := .sleeping (max 0 0) } := by
    rw [refuse, settle, houtcome]
    exact fst_reschedule_of_backoff (List.cons_ne_nil _ _) hbackoff hleft
  refine ⟨_, hstep, ?_⟩
  rw [hsleeps]
  refine ⟨⟨h.retry, h.maxAttempts, h.deadline, ?_⟩, ⟨_, rfl⟩, ⟨entry, rfl, hsafe, hattempts⟩⟩
  show (run.past ++ [_]).length = count + 1
  rw [List.length_append, h.past, List.length_singleton]

end BatchRun

namespace BulkState

variable {codec : Codec} {state : BulkState}

theorem exists_running_step {number : Nat} {run run' : BatchRun} {input : BatchInput}
    {shared : OperationState} (hrunning : state.phase = .running) (hcalm : state.panics = false)
    (hrun : state.batches[number]? = some run) (hwaiting : run.phase.isWaiting = false)
    (hstep : run.step codec state.telemetry.state input = some (run', shared))
    (hgoesOn : run'.phase.isDone = false) :
    ∃ next, state.step codec (.batch number input) = some next ∧ next.phase = .running ∧
      next.panics = false ∧ next.batches = state.batches.set number run' := by
  have hpanicked : run'.phase.isPanicked = false := by
    cases hphase : run'.phase with
    | panicked cause =>
        rw [hphase] at hgoesOn
        cases hgoesOn
    | _ => rfl
  have hunfinished : ¬ run'.phase.isFinished := by
    cases hphase : run'.phase with
    | finished =>
        rw [hphase] at hgoesOn
        cases hgoesOn
    | _ => exact nofun
  refine ⟨state.move number run' shared, ?_, hrunning,
    (panics_move hcalm hrun run' shared).2 hpanicked, rfl⟩
  rw [step_batch hrunning hcalm hrun (fun hwaits => ?_) hstep, collect, if_neg hunfinished]
  rw [hwaiting] at hwaits
  cases hwaits

structure Refused (count : Nat) (state : BulkState) : Prop where
  phase : state.phase = .running
  calm : state.panics = false
  batches : ∃ first second, state.batches = [first, second] ∧
    first.Refused count ∧ second.Refused count

theorem exists_refused_call {start : BulkState} {number count : Nat} {run : BatchRun}
    (hreach : Reachable (step plainCodec) start state) (hrunning : state.phase = .running)
    (hcalm : state.panics = false) (hrun : state.batches[number]? = some run)
    (h : run.Called count) (hcount : count < 2 ^ 31) :
    ∃ next run', Reachable (step plainCodec) start next ∧ next.phase = .running ∧
      next.panics = false ∧ next.batches = state.batches.set number run' ∧
      run'.Refused (count + 1) := by
  obtain ⟨⟨refused, shared⟩, hrefuses, hrefused⟩ := h.refuses hcount
  obtain ⟨_, _, _, _, hcalling, -, -⟩ := h.phase
  obtain ⟨delay, hsleeping⟩ := hrefused.phase
  obtain ⟨next, hnext, hnextRunning, hnextCalm, hnextBatches⟩ :=
    exists_running_step hrunning hcalm hrun (by rw [hcalling]; rfl) hrefuses
      (by rw [hsleeping]; rfl)
  exact ⟨next, refused, hreach.snoc hnext, hnextRunning, hnextCalm, hnextBatches, hrefused⟩

theorem exists_refused_batch {start : BulkState} {number count : Nat} {run : BatchRun}
    (hreach : Reachable (step plainCodec) start state) (hrunning : state.phase = .running)
    (hcalm : state.panics = false) (hrun : state.batches[number]? = some run)
    (h : run.Refused count) (hcount : count < 2 ^ 31) :
    ∃ next run', Reachable (step plainCodec) start next ∧ next.phase = .running ∧
      next.panics = false ∧ next.batches = state.batches.set number run' ∧
      run'.Refused (count + 1) := by
  obtain ⟨⟨called, shared⟩, hwakes, hcalled⟩ := h.wakes hcount
  obtain ⟨delay, hsleeping⟩ := h.phase
  obtain ⟨_, _, _, _, hcalling, -, -⟩ := hcalled.phase
  obtain ⟨between, hbetween, hbetweenRunning, hbetweenCalm, hbetweenBatches⟩ :=
    exists_running_step hrunning hcalm hrun (by rw [hsleeping]; rfl) hwakes
      (by rw [hcalling]; rfl)
  have hcalledAt : between.batches[number]? = some called := by
    rw [hbetweenBatches, getElem?_set_run hrun, if_pos rfl]
  obtain ⟨next, refused, hnext, hnextRunning, hnextCalm, hnextBatches, hrefused⟩ :=
    exists_refused_call (hreach.snoc hbetween) hbetweenRunning hbetweenCalm hcalledAt hcalled
      hcount
  refine ⟨next, refused, hnext, hnextRunning, hnextCalm, ?_, hrefused⟩
  rw [hnextBatches, hbetweenBatches, List.set_set]

/-- Both batches are refused, one after the other. -/
theorem exists_refused_both {start : BulkState} {Before : BatchRun → Prop} {count : Nat}
    {first second : BatchRun}
    (hrefuse : ∀ state number run, Reachable (step plainCodec) start state →
      state.phase = .running → state.panics = false → state.batches[number]? = some run →
      Before run → ∃ next run', Reachable (step plainCodec) start next ∧ next.phase = .running ∧
        next.panics = false ∧ next.batches = state.batches.set number run' ∧ run'.Refused count)
    (hreach : Reachable (step plainCodec) start state) (hrunning : state.phase = .running)
    (hcalm : state.panics = false) (hbatches : state.batches = [first, second])
    (hfirst : Before first) (hsecond : Before second) :
    ∃ next, Reachable (step plainCodec) start next ∧ next.Refused count := by
  obtain ⟨middle, first', hmiddle, hmiddleRunning, hmiddleCalm, hmiddleBatches, hfirst'⟩ :=
    hrefuse state 0 first hreach hrunning hcalm (by rw [hbatches]; rfl) hfirst
  rw [hbatches] at hmiddleBatches
  obtain ⟨next, second', hnext, hnextRunning, hnextCalm, hnextBatches, hsecond'⟩ :=
    hrefuse middle 1 second hmiddle hmiddleRunning hmiddleCalm (by rw [hmiddleBatches]; rfl) hsecond
  refine ⟨next, hnext, hnextRunning, hnextCalm, first', second', ?_, hfirst', hsecond'⟩
  rw [hnextBatches, hmiddleBatches]
  rfl

theorem exists_refused_again {start : BulkState} {count : Nat}
    (hreach : Reachable (step plainCodec) start state) (h : state.Refused count)
    (hcount : count < 2 ^ 31) :
    ∃ next, Reachable (step plainCodec) start next ∧ next.Refused (count + 1) := by
  obtain ⟨first, second, hbatches, hfirst, hsecond⟩ := h.batches
  refine exists_refused_both ?_ hreach h.phase h.calm hbatches hfirst hsecond
  intro state number run hreach hrunning hcalm hrun hrefused
  exact exists_refused_batch hreach hrunning hcalm hrun hrefused hcount

def patientStart : BulkState :=
  .start wireLen bulkConfig patientBulk patientOptions 8640000000000000

theorem exists_refused_once :
    ∃ state, Reachable (step plainCodec) patientStart state ∧ state.Refused 1 := by
  have hcalls : ∃ state first second,
      run (step plainCodec) patientStart
        [.batch 0 (.polled (turnAt 0)), .batch 1 (.polled (turnAt 0))] = some state ∧
      state.phase = .running ∧ state.panics = false ∧ state.batches = [first, second] ∧
      first.Called 0 ∧ second.Called 0 := by
    refine ⟨_, _, _, rfl, rfl, rfl, rfl, ?_, ?_⟩
    · exact ⟨⟨rfl, rfl, rfl, rfl⟩, _, _, _, _, rfl, rfl, rfl⟩
    · exact ⟨⟨rfl, rfl, rfl, rfl⟩, _, _, _, _, rfl, rfl, rfl⟩
  obtain ⟨state, first, second, hrun, hrunning, hcalm, hbatches, hfirst, hsecond⟩ := hcalls
  refine exists_refused_both ?_ ⟨_, hrun⟩ hrunning hcalm hbatches hfirst hsecond
  intro state number run hreach hrunning hcalm hfound hcalled
  exact exists_refused_call hreach hrunning hcalm hfound hcalled (by decide)

theorem exists_refused {count : Nat} (hpos : 1 ≤ count) (hcount : count ≤ 2 ^ 31) :
    ∃ state, Reachable (step plainCodec) patientStart state ∧ state.Refused count := by
  induction count, hpos using Nat.le_induction with
  | base => exact exists_refused_once
  | succ count hpos ih =>
      obtain ⟨state, hreach, hrefused⟩ := ih (by omega)
      exact exists_refused_again hreach hrefused (by omega)

end BulkState

/-- The end reports no attempts, and the observer has seen `2 ^ 32` of them. -/
theorem not_bracketedAndCounted_endlessRefusals :
    executeBulk wireLen printableHeader bulkConfig patientBulk patientOptions 0 =
        .ok (.started BulkState.patientStart) ∧
      ∃ state, Reachable (BulkState.step plainCodec) BulkState.patientStart state ∧
        state.phase = .cancelled ∧ state.rpcs = 2 ^ 32 ∧
        ¬ BracketedAndCounted (BulkState.lanes state.batches.length)
          state.telemetry.state.events := by
  have hoptions : validateOptions patientOptions = .ok () := by decide +kernel
  have hstarted : executeBulk wireLen printableHeader bulkConfig patientBulk patientOptions 0 =
      .ok (.started BulkState.patientStart) := by
    rw [executeBulk, hoptions]
    rfl
  have hpos : 1 ≤ 2 ^ 31 := by decide
  obtain ⟨state, hreach, hrefused⟩ := BulkState.exists_refused hpos (Nat.le_refl _)
  obtain ⟨first, second, hbatches, hfirst, hsecond⟩ := hrefused.batches
  have hdropped : state.step plainCodec (.dropped [0, 1]) = some (state.drop [0, 1]) := by
    unfold BulkState.step
    rw [hrefused.phase]
    dsimp only
    rw [hbatches]
    exact if_pos (List.Perm.refl [0, 1])
  have hover := hreach.snoc hdropped
  have hrpcs : (state.drop [0, 1]).rpcs = 2 ^ 32 := by
    show (state.batches.map fun run => run.attempts.length).sum = 2 ^ 32
    rw [hbatches]
    show first.attempts.length + (second.attempts.length + 0) = 2 ^ 32
    rw [hfirst.length_attempts, hsecond.length_attempts]
    rfl
  have hinv := BulkState.traceInv_reachable wireLen bulkConfig patientBulk patientOptions
    8640000000000000 (BulkMutationOptions.valid_of_validateOptions hoptions) hover
  have hcancelled : (state.drop [0, 1]).phase = .cancelled :=
    BulkState.phase_drop_of_not_panics hrefused.calm
  refine ⟨hstarted, state.drop [0, 1], hover, hcancelled, hrpcs, ?_⟩
  rw [(BulkState.bracketedAndCounted_iff hinv (by rw [hcancelled]; nofun)).2, hrpcs]
  exact lt_irrefl _

end BigtableClient
