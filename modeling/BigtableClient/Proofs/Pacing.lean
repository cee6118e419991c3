import BigtableClient.Proofs.BatchPacing
import BigtableClient.Proofs.ReadOrder
import BigtableClient.Proofs.ReadPacing
import BigtableClient.Proofs.RetryCause

/-!
# Retry pacing and deadlines

The pace of a bulk mutation, whose batches sleep and wake on their own over one clock,
and that of a read beside it.
-/

namespace BigtableClient

open ProofSupport.Clock ProofSupport.Transition

/-! ## The clock of a bulk mutation -/

namespace BulkState

variable {codec : Codec} {initials : List BatchOperation} {state next : BulkState}
  {input : BulkInput} {batchInput : BatchInput} {number : Nat} {run run' : BatchRun}
  {options : BulkMutationOptions} {deadline : Instant} {bulk : BulkMutation}

/-- A bulk mutation over a clock.  Each of its batches sleeps on its own. -/
def clocked (codec : Codec) : ClockedMachine BulkState BulkInput Nat where
  step := step codec
  reads
    | .batch _ input, now => input.isAt now
    | .dropped _, _ => true
  wakes
    | .batch number (.woke _) => some number
    | _ => none
  sleeps
    | .batch number _, next =>
        (next.batches[number]?.bind fun run => run.phase.delay?).map fun delay => (number, delay)
    | .dropped _, _ => none

def Issues (number : Nat) (state next : BulkState) : Prop :=
  ∃ run run', state.batches[number]? = some run ∧ next.batches[number]? = some run' ∧
    run.attempts.length < run'.attempts.length

theorem exists_batch_step (hstep : state.step codec (.batch number batchInput) = some next)
    (hrun : state.batches[number]? = some run) :
    ∃ run' shared, run.step codec state.telemetry.state batchInput = some (run', shared) ∧
      next.batches = state.batches.set number run' := by
  cases step_of_step hstep with
  | batch _ hrunning hcalm hfound hstart hbatch =>
      obtain rfl := Option.some.inj (hrun.symm.trans hfound)
      exact ⟨_, _, hbatch, batches_collect _ _ _⟩

theorem getElem?_of_step (hstep : state.step codec input = some next)
    (hother : ∀ batchInput, input ≠ .batch number batchInput) :
    next.batches[number]? = state.batches[number]? := by
  cases step_of_step hstep with
  | batch batchInput hrunning hcalm hrun hstart hbatch =>
      rename_i other run run' shared
      rw [batches_collect]
      show (state.batches.set other run')[number]? = _
      rw [getElem?_set_run hrun, if_neg]
      rintro rfl
      exact hother batchInput rfl
  | dropped hrunning horder => rfl

theorem not_issues_of_eq (h : next.batches[number]? = state.batches[number]?) :
    ¬ Issues number state next := by
  rintro ⟨run, run', hrun, hrun', hlt⟩
  rw [h] at hrun'
  obtain rfl := Option.some.inj (hrun.symm.trans hrun')
  exact lt_irrefl _ hlt

theorem not_step_of_isDone {shared : OperationState} (hdone : run.phase.isDone) :
    run.step codec shared batchInput = none := by
  unfold BatchRun.step
  cases hphase : run.phase with
  | finished => rfl
  | panicked _ => rfl
  | _ =>
      rw [hphase] at hdone
      cases hdone

theorem getElem?_of_isDone (hrun : state.batches[number]? = some run)
    (hdone : run.phase.isDone) (hstep : state.step codec input = some next) :
    next.batches[number]? = state.batches[number]? := by
  refine getElem?_of_step hstep ?_
  rintro batchInput rfl
  obtain ⟨run', shared, hbatch, -⟩ := exists_batch_step hstep hrun
  rw [not_step_of_isDone hdone] at hbatch
  cases hbatch

theorem eq_expire_of_sleeping {delay : Duration} {shared shared' : OperationState}
    (hphase : run.phase = .sleeping delay) (hwoke : batchInput.isWoke = false)
    (hstep : run.step codec shared batchInput = some (run', shared')) : run' = run.expire := by
  unfold BatchRun.step at hstep
  rw [hphase] at hstep
  cases batchInput with
  | woke turn => cases hwoke
  | sleepTimedOut => exact (congrArg Prod.fst (Option.some.inj hstep)).symm
  | _ => cases hstep

/-- A batch that sleeps issues nothing before it is woken, and one that is done nothing at all. -/
theorem notBefore_of_asleep {timed : Timed BulkState Nat} {bound : Nat}
    (hrun : timed.state.batches[number]? = some run)
    (hrests : run.phase.isDone ∨
      ∃ delay, run.phase = .sleeping delay ∧ bound ≤ timed.wakeAt number) :
    (clocked codec).NotBefore (Issues number) bound timed := by
  refine ClockedMachine.notBefore_of_rests
    (fun state : BulkState => ∃ run delay, state.batches[number]? = some run ∧
      run.phase = .sleeping delay)
    (fun state => ∃ run, state.batches[number]? = some run ∧ run.phase.isDone)
    number ?_ ?_ ?_
  · rintro state input next ⟨run, hrun, hdone⟩ hstep
    have hsame := getElem?_of_isDone hrun hdone hstep
    exact ⟨⟨run, hsame.trans hrun, hdone⟩, not_issues_of_eq hsame⟩
  · rintro state input next ⟨run, delay, hrun, hphase⟩ hwakes hstep
    by_cases hinput : ∃ batchInput, input = .batch number batchInput
    · obtain ⟨batchInput, rfl⟩ := hinput
      obtain ⟨run', shared, hbatch, hbatches⟩ := exists_batch_step hstep hrun
      have hwoke : batchInput.isWoke = false := by
        cases batchInput with
        | woke turn => exact absurd rfl hwakes
        | _ => rfl
      obtain rfl := eq_expire_of_sleeping hphase hwoke hbatch
      have hnext : next.batches[number]? = some run.expire := by
        rw [hbatches, getElem?_set_run hrun, if_pos rfl]
      refine ⟨?_, Or.inl ⟨_, hnext, rfl⟩⟩
      rintro ⟨before, after, hbefore, hafter, hlt⟩
      obtain rfl := Option.some.inj (hrun.symm.trans hbefore)
      obtain rfl := Option.some.inj (hnext.symm.trans hafter)
      have hresting : run.phase.isResting := by rw [hphase]; rfl
      rw [BatchRun.attempts_of_isResting hresting] at hlt
      simp [BatchRun.attempts, BatchRun.underWay, BatchRun.expire] at hlt
    · have hsame := getElem?_of_step hstep fun batchInput heq => hinput ⟨batchInput, heq⟩
      refine ⟨not_issues_of_eq hsame, Or.inr ⟨⟨run, delay, hsame.trans hrun, hphase⟩, ?_⟩⟩
      intro other hsleeps
      cases input with
      | dropped order => cases hsleeps
      | batch sleeper batchInput =>
          obtain ⟨_, -, heq⟩ := Option.map_eq_some_iff.1 hsleeps
          obtain ⟨rfl, -⟩ := Prod.mk.inj heq
          exact hinput ⟨batchInput, rfl⟩
  · rcases hrests with hdone | ⟨delay, hphase, hbound⟩
    · exact Or.inl ⟨run, hrun, hdone⟩
    · exact Or.inr (Or.inl ⟨⟨run, delay, hrun, hphase⟩, hbound⟩)

/-! ## Runs -/

structure PaceInv (codec : Codec) (initials : List BatchOperation) (state : BulkState) : Prop where
  inv : Inv codec initials state
  deadlineFree : ∀ run ∈ state.batches, run.phase.isFinished = false → run.DeadlineFree

theorem paceInv_step (h : PaceInv codec initials state)
    (hstep : state.step codec input = some next) : PaceInv codec initials next := by
  refine ⟨inv_step h.inv hstep, ?_⟩
  cases step_of_step hstep with
  | batch batchInput hrunning hcalm hrun hstart hbatch =>
      intro run' hrun'
      rw [batches_collect] at hrun'
      rcases List.mem_or_eq_of_mem_set hrun' with hold | rfl
      · exact h.deadlineFree run' hold
      · have hmem := List.mem_of_getElem? hrun
        obtain ⟨initial, -, hinv⟩ := exists_of_forall₂ h.inv.batches hmem
        exact BatchRun.deadlineFree_of_paces hinv (h.deadlineFree _ hmem)
          (BatchRun.paces_step hbatch)
  | dropped hrunning horder => exact h.deadlineFree

section Run

variable (encodedLen : EncodedLen) (config : ClientConfig) (bulk : BulkMutation)
  (options : BulkMutationOptions) (deadline : Instant)

theorem config_of_mem {initial : BatchOperation}
    (h : initial ∈ initialOperations encodedLen config bulk options deadline) :
    initial.options = options ∧ initial.deadline = deadline := by
  obtain ⟨entries, batch, -, rfl⟩ := mem_initialOperations encodedLen config bulk options deadline h
  exact ⟨rfl, rfl⟩

/-- What a batch takes from the clock, and when it wakes up if it falls asleep. -/
theorem moved_of_tick {timed next : Timed BulkState Nat} {now : Instant}
    (htick : (clocked codec).tick timed (now, .batch number batchInput) = some next)
    (hrun : timed.state.batches[number]? = some run)
    (hrun' : next.state.batches[number]? = some run') :
    batchInput.isAt now ∧ BatchRun.Paces codec run batchInput run' ∧
      ∀ delay, run'.phase = .sleeping delay → next.wakeAt number = now + delay := by
  have hticks := ClockedMachine.ticks_of_tick htick
  obtain ⟨other, shared, hbatch, hbatches⟩ := exists_batch_step hticks.step hrun
  have hother : next.state.batches[number]? = some other := by
    rw [hbatches, getElem?_set_run hrun, if_pos rfl]
  obtain rfl := Option.some.inj (hother.symm.trans hrun')
  refine ⟨hticks.reads, BatchRun.paces_step hbatch, fun delay hphase => ?_⟩
  apply hticks.asleep number delay
  show ((next.state.batches[number]?.bind fun run => run.phase.delay?).map _) = _
  rw [hother, Option.bind_some, hphase]
  rfl

end Run

end BulkState

def readTurnAt (now : Instant) : ReadTurn where
  top := now
  retry := now
  call := now
  arm := now
  draw := 1

def pacedRead : List (Instant × ReadInput) :=
  [(0, .begin (readTurnAt 0)), (2, .refused unavailable (readTurnAt 2)), (3, .wake (readTurnAt 3))]

def pacedBulk : List (Instant × BulkInput) :=
  let retryTurn : RetryTurn := { draw := 1, now := 10 }
  [(0, .batch 0 (.polled (turnAt 0))), (0, .batch 1 (.polled (turnAt 0))),
    (10, .batch 0 (.refused unavailable retryTurn)), (20, .batch 0 (.woke (turnAt 20)))]

end BigtableClient
