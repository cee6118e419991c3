import BigtableClient.Diagnostics
import BigtableClient.ProofSupport.KeyedSort
import BigtableClient.Proofs.BulkTrace
import BigtableClient.Proofs.Outcome

/-!
# The order of completion

The outcomes of the batches are folded in the order in which the batches complete.
The sums do not depend on it, and neither do the failures, which are sorted by an
index that no two of them share.
-/

namespace BigtableClient

open ProofSupport.KeyedSort ProofSupport.Transition

/-! ## Folding outcomes -/

def sortOutcomes (outcomes : List BatchOutcome) : Nat × Nat × List MutationFailure :=
  let (successfulEntries, rpcAttempts, failures) := runBatches outcomes
  (successfulEntries, rpcAttempts,
    failures.mergeSort fun failure other => failure.index ≤ other.index)

/-- What the batch loops can produce: a counter of 32 bits each, and no index twice. -/
structure Producible (outcomes : List BatchOutcome) : Prop where
  rpcAttempts_le : ∀ outcome ∈ outcomes, outcome.rpcAttempts ≤ u32Max
  nodup : ((outcomes.flatMap BatchOutcome.failures).map MutationFailure.index).Nodup

namespace Producible

variable {outcomes others : List BatchOutcome}

theorem perm (h : Producible outcomes) (hperm : others.Perm outcomes) : Producible others where
  rpcAttempts_le outcome houtcome := h.rpcAttempts_le outcome (hperm.mem_iff.1 houtcome)
  nodup := ((hperm.flatMap_right _).map _).nodup_iff.2 h.nodup

theorem sortOutcomes_perm (h : Producible outcomes) (hperm : others.Perm outcomes) :
    sortOutcomes others = sortOutcomes outcomes := by
  have hsuccessful := (hperm.map BatchOutcome.successful).sum_eq
  have hrpcAttempts := (hperm.map BatchOutcome.rpcAttempts).sum_eq
  have hfailures := mergeSort_eq_of_perm h.nodup (hperm.flatMap_right BatchOutcome.failures)
  simp only [sortOutcomes, runBatches_eq h.rpcAttempts_le,
    runBatches_eq (h.perm hperm).rpcAttempts_le]
  rw [hsuccessful, hrpcAttempts, hfailures]

/-- A single batch is run directly, with the value that the loop over one outcome has. -/
theorem runBatches_eq_gatherOutcomes (h : Producible outcomes) :
    runBatches outcomes = gatherOutcomes outcomes := by
  rw [runBatches_eq h.rpcAttempts_le, gatherOutcomes,
    foldl_gatherOutcome outcomes 0 0 [] (Nat.zero_le _)]
  simp

end Producible

namespace BulkState

variable {codec : Codec} {initials : List BatchOperation} {state state' next : BulkState}
  {input : BulkInput} {result result' : Except BulkMutationError BulkMutationResult}

def collectedOutcomes (state : BulkState) : List BatchOutcome :=
  state.completed.filterMap fun number =>
    state.batches[number]?.map fun run => run.operation.outcome

def batchOutcomes (state : BulkState) : List BatchOutcome :=
  state.batches.map fun run => run.operation.outcome

theorem producible_of_finished (h : Inv codec initials state)
    (hnodup : (initials.flatMap BatchOperation.indexes).Nodup)
    (hfinished : ∀ run ∈ state.batches, run.phase.isFinished) :
    Producible state.batchOutcomes := by
  constructor
  · intro outcome houtcome
    obtain ⟨run, hrun, rfl⟩ := List.mem_map.1 houtcome
    obtain ⟨initial, -, hinv⟩ := exists_of_forall₂ h.batches hrun
    have hmax := Books.maxAttempts_le initial
    have hattempts := hinv.books.attempts_le
    show run.operation.rpcAttempts ≤ u32Max
    rw [hinv.books.rpcAttempts]
    omega
  · obtain ⟨succeeded, -, hperm, -⟩ := (settled_of_finished h.batches hnodup hfinished).ledger
    have hfailures := (List.nodup_append.1 (hperm.nodup_iff.2 hnodup)).1
    rw [batchOutcomes, List.flatMap_map]
    exact hfailures

/-- Every order of completion gathers the same. -/
theorem gathered_of_order (h : Inv codec initials state)
    (hnodup : (initials.flatMap BatchOperation.indexes).Nodup)
    (hfinished : ∀ run ∈ state.batches, run.phase.isFinished) {order : List Nat}
    (horder : order.Perm state.completed) :
    gathered { state with completed := order } = sortOutcomes state.batchOutcomes := by
  have hproducible := producible_of_finished h hnodup hfinished
  exact hproducible.sortOutcomes_perm
    (perm_outcomes (horder.trans (h.collected.perm_range hfinished)))

/-! ## The last event -/

def resultCode : Except BulkMutationError BulkMutationResult → Code
  | .ok _ => .ok
  | .error error => mutationFailuresCode error.failures

def resultSummary : Except BulkMutationError BulkMutationResult → OperationSummary
  | .ok result => { successfulEntries := result.entries }
  | .error error =>
      { successfulEntries := error.successfulEntries
        failedEntries := error.failures.length }

def ReportsResult (events : List DiagnosticEvent)
    (result : Except BulkMutationError BulkMutationResult) : Prop :=
  ∃ reported, operationEnd? events = some reported ∧ reported.code = resultCode result ∧
    reported.summary = resultSummary result

theorem telemetry_conclude_eq (state : BulkState) :
    state.conclude.telemetry =
      state.telemetry.finish (resultCode state.result) (resultSummary state.result) := by
  unfold conclude result
  dsimp only
  split_ifs <;> rfl

structure EndInv (state : BulkState) : Prop where
  running : state.phase = .running → state.telemetry.finished = false
  finished : ∀ result, state.phase = .finished result →
    ReportsResult state.telemetry.state.events result
  dropped : state.phase.isDropped → ∃ reported,
    operationEnd? state.telemetry.state.events = some reported ∧ reported.summary = {}

theorem endInv_conclude (hunfinished : state.telemetry.finished = false) :
    state.conclude.EndInv := by
  constructor
  · rw [conclude_eq]
    nofun
  · intro result hresult
    rw [conclude_eq] at hresult
    obtain rfl := BulkPhase.finished.inj hresult
    rw [telemetry_conclude_eq]
    exact ⟨_, operationEnd?_finish hunfinished _ _, rfl, rfl⟩
  · rw [conclude_eq]
    nofun

theorem endInv_collect {number : Nat} {run : BatchRun} (h : state.EndInv)
    (hrunning : state.phase = .running) : (state.collect number run).EndInv := by
  unfold collect
  split_ifs
  · dsimp only
    split_ifs
    · exact endInv_conclude (h.running hrunning)
    · exact ⟨h.running, h.finished, h.dropped⟩
  · exact h

theorem endInv_step (h : state.EndInv) (hstep : state.step codec input = some next) :
    next.EndInv := by
  cases step_of_step hstep with
  | batch batchInput hrunning hcalm hrun hstart hbatch =>
      rename_i number run run' shared
      have hmoved : (state.move number run' shared).phase = .running := hrunning
      refine endInv_collect ⟨fun _ => h.running hrunning, fun result hresult => ?_,
        fun hdropped => ?_⟩ hmoved
      · rw [hmoved] at hresult
        cases hresult
      · rw [hmoved] at hdropped
        cases hdropped
  | dropped hrunning horder =>
      refine ⟨fun hphase => absurd hphase (phase_drop_ne_running _ _),
        fun _ hphase => absurd hphase (phase_drop_ne_finished _ _ _), fun _ => ?_⟩
      unfold drop OperationTracker.drop
      dsimp only
      rw [if_neg (by simp [h.running hrunning])]
      exact ⟨_, operationEnd?_recordFinish _ .cancelled {}, rfl⟩

/-! ## Runs -/

section Run

variable (encodedLen : EncodedLen) (config : ClientConfig) (bulk : BulkMutation)
  (options : BulkMutationOptions) (deadline : Instant)

theorem endInv_reachable
    (hreach : Reachable (step codec) (start encodedLen config bulk options deadline) state) :
    state.EndInv :=
  hreach.invariant EndInv ⟨fun _ => rfl, nofun, nofun⟩
    fun _ _ _ hinv hstep => endInv_step hinv hstep

/-- The result of a bulk mutation does not depend on the order of completion.  Two runs whose
batches end with the same outcomes return the same value and report the same code; any other order
of completion would have gathered the same; and a single batch, which is run directly, gives the
value that the loop over the outcomes would have given. -/
theorem result_independent_of_order (codec : Codec) (hoptions : validateOptions options = .ok ())
    (hreach : Reachable (step codec) (start encodedLen config bulk options deadline) state)
    (hreach' : Reachable (step codec) (start encodedLen config bulk options deadline) state')
    (hphase : state.phase = .finished result) (hphase' : state'.phase = .finished result')
    (houtcomes : state.batchOutcomes = state'.batchOutcomes) :
    result = result' ∧
      (∃ code, (operationEnd? state.telemetry.state.events).map OperationEnd.code = some code ∧
        (operationEnd? state'.telemetry.state.events).map OperationEnd.code = some code) ∧
      (∀ order : List Nat, order.Perm state.completed →
        gathered { state with completed := order } = state.gathered) ∧
      runBatches state.collectedOutcomes = gatherOutcomes state.collectedOutcomes := by
  have hvalid := BulkMutationOptions.valid_of_validateOptions hoptions
  have hnodup := nodup_initialOperations encodedLen config bulk options deadline hvalid
  have hinv := inv_reachable encodedLen config bulk options deadline hvalid hreach
  have hinv' := inv_reachable encodedLen config bulk options deadline hvalid hreach'
  obtain ⟨hresult, hfinished⟩ := hinv.finished result hphase
  obtain ⟨hresult', hfinished'⟩ := hinv'.finished result' hphase'
  have hgathered := gathered_of_order hinv hnodup hfinished (List.Perm.refl _)
  have hgathered' := gathered_of_order hinv' hnodup hfinished' (List.Perm.refl _)
  have hsame : result = result' := by
    have htotal := (sameSizes_reachable encodedLen config bulk options deadline hreach).1
    have htotal' := (sameSizes_reachable encodedLen config bulk options deadline hreach').1
    have hlength := congrArg List.length houtcomes
    rw [batchOutcomes, batchOutcomes, List.length_map, List.length_map] at hlength
    have heq : state.gathered = state'.gathered := by
      calc state.gathered = sortOutcomes state.batchOutcomes := hgathered
        _ = sortOutcomes state'.batchOutcomes := by rw [houtcomes]
        _ = state'.gathered := hgathered'.symm
    rw [hresult, hresult', BulkState.result, BulkState.result, heq, htotal, htotal', hlength]
  refine ⟨hsame, ?_, ?_, ?_⟩
  · obtain ⟨reported, hend, hcode, -⟩ :=
      (endInv_reachable encodedLen config bulk options deadline hreach).finished result hphase
    obtain ⟨reported', hend', hcode', -⟩ :=
      (endInv_reachable encodedLen config bulk options deadline hreach').finished result' hphase'
    refine ⟨resultCode result, ?_, ?_⟩
    · rw [hend, Option.map_some, hcode]
    · rw [hend', Option.map_some, hcode', hsame]
  · intro order horder
    exact (gathered_of_order hinv hnodup hfinished horder).trans hgathered.symm
  · have hproducible := producible_of_finished hinv hnodup hfinished
    exact (hproducible.perm
      (perm_outcomes (hinv.collected.perm_range hfinished))).runBatches_eq_gatherOutcomes

end Run

end BulkState

/-- The same batches as in `mixedInputs`, but the first one is over before the second one. -/
def reorderedInputs : List BulkInput :=
  let retryTurn : RetryTurn := { draw := 1, now := 10 }
  mixedInputs.eraseIdx 6 ++ [.batch 1 (.streamClosed .ended retryTurn)]

def reorderedRun : Option BulkState :=
  run (BulkState.step plainCodec)
    (.start wireLen bulkConfig sampleBulk pairOptions 600000000000) reorderedInputs

theorem BulkState.result_independent_of_order_reorderedRun :
    ∃ state state' : BulkState, state.completed = [1, 0] ∧ state'.completed = [0, 1] ∧
      ∃ code, (operationEnd? state.telemetry.state.events).map OperationEnd.code = some code ∧
        (operationEnd? state'.telemetry.state.events).map OperationEnd.code = some code := by
  have hrun : mixedRun.map (fun state => (state.completed, state.phase)) =
      some ([1, 0], .finished mixedResult) := by decide +kernel
  have hrun' : reorderedRun.map (fun state => (state.completed, state.phase)) =
      some ([0, 1], .finished mixedResult) := by decide +kernel
  have houtcomes : mixedRun.map BulkState.batchOutcomes =
      reorderedRun.map BulkState.batchOutcomes := by decide +kernel
  obtain ⟨state, hstate, hends⟩ := Option.map_eq_some_iff.1 hrun
  obtain ⟨state', hstate', hends'⟩ := Option.map_eq_some_iff.1 hrun'
  obtain ⟨hcompleted, hphase⟩ := Prod.mk.inj hends
  obtain ⟨hcompleted', hphase'⟩ := Prod.mk.inj hends'
  rw [hstate, hstate'] at houtcomes
  have hindependent := BulkState.result_independent_of_order wireLen bulkConfig sampleBulk
    pairOptions 600000000000 plainCodec validateOptions_pair ⟨mixedInputs, hstate⟩
    ⟨reorderedInputs, hstate'⟩ hphase hphase' (Option.some.inj houtcomes)
  exact ⟨state, state', hcompleted, hcompleted', hindependent.2.1⟩

end BigtableClient
