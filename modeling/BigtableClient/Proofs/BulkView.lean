import BigtableClient.Bulk
import BigtableClient.Proofs.BatchInvariant
import BigtableClient.Proofs.Batching

/-!
# Steps of a bulk mutation

A step moves one batch, and collects it when it is over, or drops the future.  The
outcomes that are put together at the end are sums over all batches, whatever the
order of completion.
-/

namespace BigtableClient

/-! ## Sums over outcomes -/

theorem foldl_gatherOutcome (outcomes : List BatchOutcome) (successful rpcAttempts : Nat)
    (failures : List MutationFailure) (h : rpcAttempts ≤ u32Max) :
    outcomes.foldl gatherOutcome (successful, rpcAttempts, failures) =
      (successful + (outcomes.map BatchOutcome.successful).sum,
        min (rpcAttempts + (outcomes.map BatchOutcome.rpcAttempts).sum) u32Max,
        failures ++ outcomes.flatMap BatchOutcome.failures) := by
  induction outcomes generalizing successful rpcAttempts failures with
  | nil => simp [h]
  | cons outcome outcomes ih =>
      have hle : saturatingAdd rpcAttempts outcome.rpcAttempts ≤ u32Max := Nat.min_le_right _ _
      rw [List.foldl_cons, gatherOutcome, ih _ _ _ hle]
      simp only [saturatingAdd, List.map_cons, List.sum_cons, List.flatMap_cons,
        List.append_assoc, Prod.mk.injEq, and_true]
      omega

theorem runBatches_eq {outcomes : List BatchOutcome}
    (h : ∀ outcome ∈ outcomes, outcome.rpcAttempts ≤ u32Max) :
    runBatches outcomes =
      ((outcomes.map BatchOutcome.successful).sum,
        min (outcomes.map BatchOutcome.rpcAttempts).sum u32Max,
        outcomes.flatMap BatchOutcome.failures) := by
  unfold runBatches
  split
  · next outcome =>
    have hle := h outcome (by simp)
    simp [hle]
  · rw [gatherOutcomes, foldl_gatherOutcome outcomes 0 0 [] (Nat.zero_le _)]
    simp

def BulkPhase.isDropped : BulkPhase → Bool
  | .cancelled => true
  | .panicked => true
  | _ => false

namespace BulkState

variable {codec : Codec} {state next : BulkState} {input : BulkInput}

/-! ## Inversion -/

def move (state : BulkState) (number : Nat) (run : BatchRun) (shared : OperationState) :
    BulkState :=
  { state with
    telemetry := { state.telemetry with state := shared }
    batches := state.batches.set number run }

inductive Step (codec : Codec) (state : BulkState) : BulkInput → BulkState → Prop
  | batch {number : Nat} {run run' : BatchRun} {shared : OperationState} (input : BatchInput)
      (hrunning : state.phase = .running) (hcalm : state.panics = false)
      (hrun : state.batches[number]? = some run)
      (hstart : run.phase.isWaiting → state.mayStart number)
      (hstep : run.step codec state.telemetry.state input = some (run', shared)) :
      Step codec state (.batch number input) ((state.move number run' shared).collect number run')
  | dropped {order : List Nat} (hrunning : state.phase = .running)
      (horder : order.Perm (List.range state.batches.length)) :
      Step codec state (.dropped order) (state.drop order)

theorem step_of_step (h : state.step codec input = some next) : Step codec state input next := by
  unfold step at h
  split at h
  · next number batchInput hrunning =>
    split_ifs at h with hpanics
    split at h
    · cases h
    · next run hrun =>
      split_ifs at h with hwaiting
      unfold stepBatch at h
      split at h
      · cases h
      · next run' shared hstep =>
        obtain rfl := Option.some.inj h
        refine .batch batchInput hrunning (eq_false_of_ne_true hpanics) hrun ?_ hstep
        intro hwait
        by_contra hmay
        exact hwaiting ⟨hwait, by simpa using hmay⟩
  · next order hrunning =>
    split_ifs at h with horder
    obtain rfl := Option.some.inj h
    exact .dropped hrunning horder
  · cases h

theorem step_batch {number : Nat} {run run' : BatchRun} {batchInput : BatchInput}
    {shared : OperationState} (hrunning : state.phase = .running)
    (hcalm : state.panics = false) (hrun : state.batches[number]? = some run)
    (hstart : run.phase.isWaiting → state.mayStart number)
    (hstep : run.step codec state.telemetry.state batchInput = some (run', shared)) :
    state.step codec (.batch number batchInput) =
      some ((state.move number run' shared).collect number run') := by
  have hnot : ¬ (run.phase.isWaiting ∧ ¬ state.mayStart number) :=
    fun hwaiting => hwaiting.2 (hstart hwaiting.1)
  simp only [step, hrunning, hcalm, Bool.false_eq_true, if_false, hrun, if_neg hnot, stepBatch,
    hstep]
  rw [move, hrunning]

theorem step_batch_isSome {number : Nat} {run : BatchRun} {batchInput : BatchInput}
    (hrunning : state.phase = .running) (hcalm : state.panics = false)
    (hrun : state.batches[number]? = some run)
    (hstart : run.phase.isWaiting → state.mayStart number)
    (hstep : (run.step codec state.telemetry.state batchInput).isSome) :
    (state.step codec (.batch number batchInput)).isSome := by
  obtain ⟨⟨run', shared⟩, hnext⟩ := Option.isSome_iff_exists.1 hstep
  rw [step_batch hrunning hcalm hrun hstart hnext]
  rfl

/-- A batch that moves while none panicked is the only one that can have panicked then. -/
theorem panics_move {number : Nat} {run : BatchRun} (hcalm : state.panics = false)
    (hrun : state.batches[number]? = some run) (run' : BatchRun) (shared : OperationState) :
    (state.move number run' shared).panics = false ↔ run'.phase.isPanicked = false := by
  show ((state.batches.set number run').any fun run => run.phase.isPanicked) = false ↔ _
  rw [List.any_eq_false]
  constructor
  · intro hall
    exact eq_false_of_ne_true
      (hall run' (List.mem_set (List.getElem?_eq_some_iff.1 hrun).1 run'))
  · intro hnot other hother
    rcases List.mem_or_eq_of_mem_set hother with hother | rfl
    · exact List.any_eq_false.1 hcalm other hother
    · exact ne_true_of_eq_false hnot

/-! ## The end of an operation -/

theorem phase_drop_of_not_panics {order : List Nat} (h : state.panics = false) :
    (state.drop order).phase = .cancelled :=
  if_neg (ne_true_of_eq_false h)

theorem phase_drop_ne_running (state : BulkState) (order : List Nat) :
    (state.drop order).phase ≠ .running := by
  unfold drop
  split_ifs <;> exact nofun

/-- A dropped future has no result. -/
theorem phase_drop_ne_finished (state : BulkState) (order : List Nat)
    (result : Except BulkMutationError BulkMutationResult) :
    (state.drop order).phase ≠ .finished result := by
  unfold drop
  split_ifs <;> exact nofun

def result (state : BulkState) : Except BulkMutationError BulkMutationResult :=
  if state.gathered.2.2 = [] then
    .ok
      { entries := state.gathered.1
        rpcAttempts := state.gathered.2.1
        requestBatches := state.batches.length }
  else
    .error
      { totalEntries := state.totalEntries
        successfulEntries := state.gathered.1
        rpcAttempts := state.gathered.2.1
        failures := state.gathered.2.2 }

theorem conclude_eq (state : BulkState) :
    state.conclude =
      { state with
        telemetry := state.conclude.telemetry
        phase := .finished state.result } := by
  unfold conclude result
  dsimp only
  split_ifs <;> rfl

theorem telemetry_conclude (state : BulkState) :
    ∃ code summary, state.conclude.telemetry = state.telemetry.finish code summary := by
  unfold conclude
  dsimp only
  split_ifs
  · exact ⟨_, _, rfl⟩
  · exact ⟨_, _, rfl⟩

@[simp] theorem batches_collect (state : BulkState) (number : Nat) (run : BatchRun) :
    (state.collect number run).batches = state.batches := by
  unfold collect
  split_ifs
  · dsimp only
    split_ifs
    · rw [conclude_eq]
    · rfl
  · rfl

end BulkState

end BigtableClient
