import BigtableClient.Proofs.BatchPanics
import BigtableClient.Proofs.Replay

/-!
# One outcome for every entry

When a bulk mutation is over, every entry either is among the failures or was
confirmed by the last request that carried it.  The sums over the batches do not
depend on the order of completion.
-/

namespace BigtableClient

open ProofSupport.Transition
open ProofSupport.RetryLedger

/-! ## The books of all batches -/

theorem Succeeded.congr {attempts attempts' : List WriteAttempt} {index : Nat}
    (hcarriers : carriers attempts' index = carriers attempts index)
    (h : Succeeded attempts index) : Succeeded attempts' index := by
  rw [Succeeded, hcarriers]
  exact h

theorem Failed.congr {attempts attempts' : List WriteAttempt} {failure : MutationFailure}
    (hcarriers : carriers attempts' failure.index = carriers attempts failure.index)
    (h : Failed attempts failure) : Failed attempts' failure where
  counted := by
    rw [hcarriers]
    exact h.counted
  not_confirmed := by
    rw [hcarriers]
    exact h.not_confirmed

/-- The outcomes of the entries of a batch, or of several batches, that are over. -/
structure Settled (indexes : List Nat) (attempts : List WriteAttempt) (successful : Nat)
    (failures : List MutationFailure) : Prop where
  ledger : ∃ succeeded : List Nat, succeeded.length = successful ∧
    (failures.map MutationFailure.index ++ succeeded).Perm indexes ∧
    ∀ index ∈ succeeded, Succeeded attempts index
  failed : ∀ failure ∈ failures, Failed attempts failure

theorem Settled.mem_indexes {indexes : List Nat} {attempts : List WriteAttempt} {successful : Nat}
    {failures : List MutationFailure} (h : Settled indexes attempts successful failures)
    {failure : MutationFailure} (hfailure : failure ∈ failures) : failure.index ∈ indexes := by
  obtain ⟨succeeded, -, hperm, -⟩ := h.ledger
  exact hperm.subset (List.mem_append_left _ (List.mem_map_of_mem hfailure))

theorem BatchRun.Inv.settled {codec : Codec} {initial : BatchOperation} {run : BatchRun}
    (h : BatchRun.Inv codec initial run) (hfinished : run.phase.isFinished) :
    Settled initial.indexes run.attempts run.operation.successful run.operation.failures := by
  have hlive : run.live = [] := by
    have hidle := h.idle
    rw [live]
    cases hphase : run.phase with
    | finished =>
        rw [hphase] at hidle
        exact hidle rfl rfl
    | _ =>
        rw [hphase] at hfinished
        cases hfinished
  obtain ⟨succeeded, hsuccessful, hsucceeded, hledger⟩ := h.books.ledger
  rw [hlive] at hledger
  exact ⟨⟨succeeded, hsuccessful, hledger.perm, hsucceeded⟩, h.books.failed⟩

/-- The outcomes of two disjoint sets of entries. -/
theorem Settled.append {indexes indexes' : List Nat} {attempts attempts' : List WriteAttempt}
    {successful successful' : Nat} {failures failures' : List MutationFailure}
    (h : Settled indexes attempts successful failures)
    (h' : Settled indexes' attempts' successful' failures')
    (hleft : ∀ index ∈ indexes', carriers attempts index = [])
    (hright : ∀ index ∈ indexes, carriers attempts' index = []) :
    Settled (indexes ++ indexes') (attempts ++ attempts') (successful + successful')
      (failures ++ failures') := by
  have hcarriers : ∀ index, carriers (attempts ++ attempts') index =
      carriers attempts index ++ carriers attempts' index :=
    fun index => List.filter_append _ _
  have hfirst : ∀ index ∈ indexes,
      carriers (attempts ++ attempts') index = carriers attempts index := by
    intro index hindex
    rw [hcarriers, hright index hindex, List.append_nil]
  have hsecond : ∀ index ∈ indexes',
      carriers (attempts ++ attempts') index = carriers attempts' index := by
    intro index hindex
    rw [hcarriers, hleft index hindex, List.nil_append]
  constructor
  · obtain ⟨succeeded, hlength, hperm, hsucceeded⟩ := h.ledger
    obtain ⟨succeeded', hlength', hperm', hsucceeded'⟩ := h'.ledger
    refine ⟨succeeded ++ succeeded', by rw [List.length_append, hlength, hlength'], ?_, ?_⟩
    · rw [List.map_append]
      refine List.Perm.trans ?_ (hperm.append hperm')
      rw [List.append_assoc, List.append_assoc]
      exact (List.perm_append_comm_assoc _ _ _).append_left _
    · intro index hindex
      rcases List.mem_append.1 hindex with hindex | hindex
      · exact (hsucceeded index hindex).congr
          (hfirst index (hperm.subset (List.mem_append_right _ hindex)))
      · exact (hsucceeded' index hindex).congr
          (hsecond index (hperm'.subset (List.mem_append_right _ hindex)))
  · intro failure hfailure
    rcases List.mem_append.1 hfailure with hfailure | hfailure
    · exact (h.failed failure hfailure).congr (hfirst _ (h.mem_indexes hfailure))
    · exact (h'.failed failure hfailure).congr (hsecond _ (h'.mem_indexes hfailure))

namespace BulkState

variable {codec : Codec} {initials : List BatchOperation} {state next : BulkState}
  {input : BulkInput} {batches : List BatchRun}

theorem carriers_eq_nil (h : List.Forall₂ (BatchRun.Inv codec) initials batches) {index : Nat}
    (hindex : index ∉ initials.flatMap BatchOperation.indexes) :
    carriers (batches.flatMap BatchRun.attempts) index = [] := by
  induction h with
  | nil => rfl
  | cons hinv htail ih =>
      rw [List.flatMap_cons, List.mem_append, not_or] at hindex
      rw [List.flatMap_cons, carriers, carrying, List.filter_append]
      exact List.append_eq_nil_iff.2 ⟨hinv.books.attempts_carriers_eq_nil hindex.1, ih hindex.2⟩

theorem settled_of_finished (h : List.Forall₂ (BatchRun.Inv codec) initials batches)
    (hnodup : (initials.flatMap BatchOperation.indexes).Nodup)
    (hfinished : ∀ run ∈ batches, run.phase.isFinished) :
    Settled (initials.flatMap BatchOperation.indexes) (batches.flatMap BatchRun.attempts)
      (batches.map fun run => run.operation.successful).sum
      (batches.flatMap fun run => run.operation.failures) := by
  induction h with
  | nil => exact ⟨⟨[], rfl, List.Perm.refl _, by simp⟩, by simp⟩
  | cons hinv htail ih =>
      rename_i initial run initials batches
      rw [List.flatMap_cons, List.nodup_append] at hnodup
      obtain ⟨-, hnodupTail, hdisjoint⟩ := hnodup
      have hhead := hinv.settled (hfinished run (by simp))
      have hrest := ih hnodupTail fun other hother =>
        hfinished other (List.mem_cons_of_mem _ hother)
      refine hhead.append hrest ?_ ?_
      · intro index hindex
        exact hinv.books.attempts_carriers_eq_nil fun hmem => hdisjoint index hmem index hindex rfl
      · intro index hindex
        exact carriers_eq_nil htail fun hmem => hdisjoint index hindex index hmem rfl

theorem sum_rpcAttempts (h : List.Forall₂ (BatchRun.Inv codec) initials batches) :
    (batches.map fun run => run.operation.rpcAttempts).sum =
      (batches.map fun run => run.attempts.length).sum := by
  induction h with
  | nil => rfl
  | cons hinv htail ih =>
      rw [List.map_cons, List.map_cons, List.sum_cons, List.sum_cons, ih, hinv.books.rpcAttempts]

/-! ## The collected outcomes -/

theorem filterMap_getElem?_range {α β : Type*} (f : α → β) (l : List α) :
    ((List.range l.length).filterMap fun i => l[i]?.map f) = l.map f := by
  induction l with
  | nil => rfl
  | cons x xs ih =>
      rw [List.length_cons, List.range_succ_eq_map, List.filterMap_cons, List.filterMap_map]
      simpa using ih

/-- The outcomes are collected in the order of completion, one of each batch. -/
theorem perm_outcomes {completed : List Nat}
    (hperm : completed.Perm (List.range batches.length)) :
    (completed.filterMap fun number =>
        batches[number]?.map fun run => run.operation.outcome).Perm
      (batches.map fun run => run.operation.outcome) :=
  (hperm.filterMap _).trans (List.Perm.of_eq (filterMap_getElem?_range _ batches))

/-- What the collected outcomes add up to. -/
theorem gathered_eq (h : Inv codec initials state)
    (hfinished : ∀ run ∈ state.batches, run.phase.isFinished) :
    state.gathered.1 = (state.batches.map fun run => run.operation.successful).sum ∧
      state.gathered.2.1 = min state.rpcs u32Max ∧
      state.gathered.2.2.Perm (state.batches.flatMap fun run => run.operation.failures) ∧
      state.gathered.2.2.Pairwise fun failure other => failure.index ≤ other.index := by
  have hperm := perm_outcomes (h.collected.perm_range hfinished)
  have hle : ∀ outcome ∈ state.completed.filterMap fun number =>
      state.batches[number]?.map fun run => run.operation.outcome,
      outcome.rpcAttempts ≤ u32Max := by
    intro outcome houtcome
    obtain ⟨run, hrun, rfl⟩ := List.mem_map.1 (hperm.mem_iff.1 houtcome)
    obtain ⟨initial, -, hinv⟩ := exists_of_forall₂ h.batches hrun
    have hmax := Books.maxAttempts_le initial
    have hattempts := hinv.books.attempts_le
    show run.operation.rpcAttempts ≤ u32Max
    rw [hinv.books.rpcAttempts]
    omega
  rw [gathered]
  simp only [runBatches_eq hle]
  refine ⟨?_, ?_, ?_, ?_⟩
  · rw [(hperm.map BatchOutcome.successful).sum_eq, List.map_map]
    rfl
  · rw [(hperm.map BatchOutcome.rpcAttempts).sum_eq, List.map_map, rpcs,
      ← sum_rpcAttempts h.batches]
    rfl
  · refine (List.mergeSort_perm _ _).trans ((hperm.flatMap_right _).trans (List.Perm.of_eq ?_))
    rw [List.flatMap_map]
    rfl
  · have hsorted := @List.pairwise_mergeSort _
      (fun failure other : MutationFailure => failure.index ≤ other.index)
      (fun _ _ _ => by simpa using Nat.le_trans)
      (fun failure other => by simpa using Nat.le_total failure.index other.index)
      ((state.completed.filterMap fun number =>
        state.batches[number]?.map fun run => run.operation.outcome).flatMap
          BatchOutcome.failures)
    exact hsorted.imp fun hle => by simpa using hle

end BulkState

/-! ## The result -/

/-- What a finished bulk mutation reports agrees with the requests it issued. -/
structure Accounted (bulk : BulkMutation) (state : BulkState) (successful rpcAttempts : Nat)
    (failures : List MutationFailure) : Prop where
  total : successful + failures.length = bulk.entries.length
  sorted : (failures.map MutationFailure.index).Pairwise (· < ·)
  valid : ∀ failure ∈ failures, failure.index < bulk.entries.length
  confirmed : ∀ index < bulk.entries.length,
    index ∉ failures.map MutationFailure.index ↔
      ∃ attempt, (state.attemptsOf index).getLast? = some attempt ∧ attempt.Confirms index
  attempts : ∀ failure ∈ failures, failure.attempts = (state.attemptsOf failure.index).length
  rpcs : rpcAttempts = min state.rpcs u32Max

def Reports (bulk : BulkMutation) (state : BulkState) :
    Except BulkMutationError BulkMutationResult → Prop
  | .ok result => result.entries = bulk.entries.length ∧
      Accounted bulk state result.entries result.rpcAttempts []
  | .error error => error.failures ≠ [] ∧ error.totalEntries = bulk.entries.length ∧
      Accounted bulk state error.successfulEntries error.rpcAttempts error.failures

theorem Settled.accounted {bulk : BulkMutation} {state : BulkState} {successful rpcAttempts : Nat}
    {failures sorted : List MutationFailure}
    (h : Settled (List.range bulk.entries.length) (state.batches.flatMap BatchRun.attempts)
      successful failures)
    (hperm : sorted.Perm failures)
    (hsorted : sorted.Pairwise fun failure other => failure.index ≤ other.index)
    (hrpcs : rpcAttempts = min state.rpcs u32Max) :
    Accounted bulk state successful rpcAttempts sorted := by
  obtain ⟨succeeded, hlength, hall, hsucceeded⟩ := h.ledger
  have hnodup : (failures.map MutationFailure.index ++ succeeded).Nodup :=
    hall.nodup_iff.2 List.nodup_range
  obtain ⟨hnodupFailures, -, hdisjoint⟩ := List.nodup_append.1 hnodup
  have hindexes := hperm.map MutationFailure.index
  have hattempts : ∀ index, state.attemptsOf index =
      carriers (state.batches.flatMap BatchRun.attempts) index := fun _ => rfl
  refine ⟨?_, ?_, ?_, ?_, ?_, hrpcs⟩
  · have hcount := hall.length_eq
    rw [List.length_append, List.length_map, List.length_range] at hcount
    rw [hperm.length_eq]
    omega
  · have hne := List.pairwise_map.1 (hindexes.nodup_iff.2 hnodupFailures)
    exact List.pairwise_map.2 ((hsorted.and hne).imp fun hpair => lt_of_le_of_ne hpair.1 hpair.2)
  · intro failure hfailure
    exact List.mem_range.1 (h.mem_indexes (hperm.mem_iff.1 hfailure))
  · intro index hindex
    rw [hindexes.mem_iff, hattempts]
    constructor
    · intro hnot
      have hmem := hall.mem_iff.2 (List.mem_range.2 hindex)
      exact hsucceeded index ((List.mem_append.1 hmem).resolve_left hnot)
    · rintro ⟨attempt, hlast, hconfirms⟩ hmem
      obtain ⟨failure, hfailure, rfl⟩ := List.mem_map.1 hmem
      exact (h.failed failure hfailure).not_confirmed attempt hlast hconfirms
  · intro failure hfailure
    rw [hattempts]
    exact (h.failed failure (hperm.mem_iff.1 hfailure)).counted

namespace BulkState

variable {codec : Codec} {initials : List BatchOperation} {state next : BulkState}
  {input : BulkInput}

/-! ## Progress -/

def SameSizes (init state : BulkState) : Prop :=
  state.totalEntries = init.totalEntries ∧ state.maxInFlight = init.maxInFlight

theorem sameSizes_step {init : BulkState} (h : SameSizes init state)
    (hstep : state.step codec input = some next) : SameSizes init next := by
  cases step_of_step hstep with
  | dropped hrunning horder => exact h
  | batch batchInput hrunning hcalm hrun hstart hbatch =>
      unfold collect
      split_ifs
      · dsimp only
        split_ifs
        · rw [conclude_eq]
          exact h
        · exact h
      · exact h

/-- A batch in flight can go on without a message. -/
theorem step_inFlight (codec : Codec) {run : BatchRun} (hwaiting : run.phase.isWaiting = false)
    (hfinished : run.phase.isFinished = false) (hcalm : run.phase.isPanicked = false)
    (shared : OperationState) :
    ∃ batchInput : BatchInput, batchInput.isMessage = false ∧
      (run.step codec shared batchInput).isSome := by
  let turn : RetryTurn := { draw := 0, now := 0 }
  cases hphase : run.phase with
  | waiting =>
      rw [hphase] at hwaiting
      cases hwaiting
  | finished =>
      rw [hphase] at hfinished
      cases hfinished
  | panicked reason =>
      rw [hphase] at hcalm
      cases hcalm
  | calling current deadline telemetry attempt =>
      exact ⟨.callTimedOut turn, rfl, by simp [BatchRun.step, hphase]⟩
  | streaming current deadline telemetry attempt progress =>
      exact ⟨.streamClosed .timedOut turn, rfl, by simp [BatchRun.step, hphase]⟩
  | sleeping delay => exact ⟨.sleepTimedOut, rfl, by simp [BatchRun.step, hphase]⟩

theorem exists_mayStart (hmax : 0 < state.maxInFlight)
    (hidle : ∀ run ∈ state.batches, run.phase.isWaiting ∨ run.phase.isFinished)
    (hwaiting : ∃ run ∈ state.batches, run.phase.isWaiting) :
    ∃ number run, state.batches[number]? = some run ∧ run.phase.isWaiting ∧
      state.mayStart number := by
  let waits : BatchRun → Bool := fun run => run.phase.isWaiting
  have hlt : state.batches.findIdx waits < state.batches.length :=
    List.findIdx_lt_length_of_exists hwaiting
  have hwaits : waits (state.batches[state.batches.findIdx waits]) = true :=
    List.findIdx_getElem (w := hlt)
  refine ⟨state.batches.findIdx waits, state.batches[state.batches.findIdx waits],
    List.getElem?_eq_getElem hlt, hwaits, ?_⟩
  have hnone : state.inFlight = 0 := by
    rw [inFlight, List.countP_eq_zero]
    intro run hrun
    rcases hidle run hrun with h | h
    · simp [h]
    · simp [h]
  have htake : ∀ run ∈ state.batches.take (state.batches.findIdx waits),
      run.phase.isWaiting = false := by
    intro run hrun
    obtain ⟨i, hi, rfl⟩ := List.mem_iff_getElem.1 hrun
    rw [List.length_take] at hi
    rw [List.getElem_take]
    have hi : i < state.batches.findIdx waits := by omega
    exact List.not_of_lt_findIdx hi
  simp only [mayStart, hnone, hmax, or_true, and_true, decide_eq_true_eq, List.all_eq_true]
  intro run hrun
  simp [htake run hrun]

/-- As long as a bulk mutation is running and no batch panicked, some batch can go on without a
message. -/
theorem progress (h : Inv codec initials state) (hcalm : state.Calm) (hmax : 0 < state.maxInFlight)
    (hrunning : state.phase = .running) (hne : state.batches ≠ []) :
    ∃ number batchInput, BatchInput.isMessage batchInput = false ∧
      (state.step codec (.batch number batchInput)).isSome := by
  by_cases hflight : ∃ run ∈ state.batches,
      run.phase.isWaiting = false ∧ run.phase.isFinished = false
  · obtain ⟨run, hrun, hwaiting, hfinished⟩ := hflight
    obtain ⟨number, hnumber⟩ := List.mem_iff_getElem?.1 hrun
    have hrunCalm := eq_false_of_ne_true (List.any_eq_false.1 hcalm.1 run hrun)
    obtain ⟨batchInput, hmessage, hstep⟩ := step_inFlight codec hwaiting hfinished hrunCalm
      state.telemetry.state
    refine ⟨number, batchInput, hmessage, step_batch_isSome hrunning hcalm.1 hnumber ?_ hstep⟩
    rw [hwaiting]
    nofun
  · have hidle : ∀ run ∈ state.batches, run.phase.isWaiting ∨ run.phase.isFinished := by
      intro run hrun
      by_contra hnot
      rw [not_or, Bool.not_eq_true, Bool.not_eq_true] at hnot
      exact hflight ⟨run, hrun, hnot⟩
    obtain ⟨unfinished, hunfinished, hnot⟩ := h.running hrunning hne
    obtain ⟨number, run, hnumber, hwaiting, hmay⟩ := exists_mayStart hmax hidle
      ⟨unfinished, hunfinished, (hidle unfinished hunfinished).resolve_right (by simp [hnot])⟩
    refine ⟨number, .polled { top := 0, arm := 0, start := 0, send := 0 }, rfl,
      step_batch_isSome hrunning hcalm.1 hnumber (fun _ => hmay) ?_⟩
    cases hphase : run.phase with
    | waiting => simp [BatchRun.step, hphase]
    | _ =>
        rw [hphase] at hwaiting
        cases hwaiting

section Run

variable (encodedLen : EncodedLen) (config : ClientConfig) (bulk : BulkMutation)
  (options : BulkMutationOptions) (deadline : Instant)

theorem batches_ne_nil (hoptions : options.Valid) (hbulk : bulk.entries ≠ [])
    (h : Inv codec (initialOperations encodedLen config bulk options deadline) state) :
    state.batches ≠ [] := by
  intro hnil
  have hinitials : initialOperations encodedLen config bulk options deadline = [] := by
    have hbatches := h.batches
    rw [hnil] at hbatches
    exact List.forall₂_nil_right_iff.1 hbatches
  have hindexes := flatMap_indexes_initials encodedLen config bulk options deadline hoptions
  rw [hinitials, List.flatMap_nil] at hindexes
  exact hbulk (List.length_eq_zero_iff.1 (List.range_eq_nil.1 hindexes.symm))

theorem sameSizes_reachable
    (hreach : Reachable (step codec) (start encodedLen config bulk options deadline) state) :
    SameSizes (start encodedLen config bulk options deadline) state :=
  hreach.invariant _ ⟨rfl, rfl⟩ fun _ _ _ hsame hstep => sameSizes_step hsame hstep

theorem reports_result (hoptions : options.Valid)
    (h : Inv codec (initialOperations encodedLen config bulk options deadline) state)
    (htotal : state.totalEntries = bulk.entries.length)
    (hfinished : ∀ run ∈ state.batches, run.phase.isFinished) :
    Reports bulk state state.result := by
  obtain ⟨hsuccessful, hrpcs, hperm, hsorted⟩ := gathered_eq h hfinished
  have hnodup := nodup_initialOperations encodedLen config bulk options deadline hoptions
  have hsettled := settled_of_finished h.batches hnodup hfinished
  rw [flatMap_indexes_initials encodedLen config bulk options deadline hoptions,
    ← hsuccessful] at hsettled
  have haccounted := hsettled.accounted hperm hsorted hrpcs
  unfold result
  split_ifs with hfailures
  · rw [hfailures] at haccounted
    exact ⟨by simpa using haccounted.total, haccounted⟩
  · exact ⟨hfailures, htotal, haccounted⟩

/-- The bulk mutation returns, and what it returns accounts for every entry. -/
def HasOutcomes (bulk : BulkMutation) (state : BulkState) : Prop :=
  ∃ result, state.phase = .finished result ∧ Reports bulk state result

/-- Every entry of a bulk mutation gets one outcome, unless a step panics.  In every run, whatever
the server does and in whatever order the batches complete, the operation takes a bounded number of
steps besides messages, can go on without a message while no step panicked, and what it returns in
the end accounts for every entry and for every request.  It does return, when it was not cancelled,
exactly when every step withstood. -/
theorem every_entry_has_one_outcome (codec : Codec) (hoptions : validateOptions options = .ok ())
    (hbulk : bulk.entries ≠ []) {inputs : List BulkInput}
    (hrun : run (step codec) (start encodedLen config bulk options deadline) inputs =
      some state) :
    (∀ number, inputs.countP (BulkInput.moves number) ≤
        3 * options.retry.maxAttempts.toNat + 1) ∧
      (state.phase = .running →
        Along (step codec) (Withstands codec) (start encodedLen config bulk options deadline)
          inputs →
        ∃ number input, BatchInput.isMessage input = false ∧
          (state.step codec (.batch number input)).isSome) ∧
      (∀ result, state.phase = .finished result → Reports bulk state result) ∧
      (state.phase ≠ .running → state.phase ≠ .cancelled →
        (HasOutcomes bulk state ↔ Along (step codec) (Withstands codec)
          (start encodedLen config bulk options deadline) inputs)) := by
  have hvalid := BulkMutationOptions.valid_of_validateOptions hoptions
  have hinv := inv_reachable encodedLen config bulk options deadline hvalid ⟨inputs, hrun⟩
  have hsizes := sameSizes_reachable encodedLen config bulk options deadline ⟨inputs, hrun⟩
  have hreports : ∀ result, state.phase = .finished result → Reports bulk state result := by
    intro result hresult
    obtain ⟨rfl, hfinished⟩ := hinv.finished result hresult
    exact reports_result encodedLen config bulk options deadline hvalid hinv hsizes.1 hfinished
  refine ⟨countP_moves_le encodedLen config bulk options deadline hvalid hrun,
    fun hrunning halong => ?_, hreports, fun hover hcancelled => ?_⟩
  · have hcalm := (calm_iff_along encodedLen config bulk options deadline hvalid hrun).2 halong
    have hmax : 0 < state.maxInFlight := by
      rw [hsizes.2]
      exact hvalid.inFlight_pos
    exact progress hinv hcalm hmax hrunning
      (batches_ne_nil encodedLen config bulk options deadline hvalid hbulk hinv)
  · rw [← finished_iff_along encodedLen config bulk options deadline hvalid hrun hover hcancelled]
    exact ⟨fun ⟨result, hresult, _⟩ => ⟨result, hresult⟩,
      fun ⟨result, hresult⟩ => ⟨result, hresult, hreports result hresult⟩⟩

end Run

end BulkState

/-- The first entry succeeds at its second attempt; the second one was not safe to send again. -/
theorem BulkState.every_entry_has_one_outcome_mixedRun :
    ∃ state, mixedRun = some state ∧ BulkState.HasOutcomes sampleBulk state := by
  have hover : mixedRun.map BulkState.phase = some (.finished mixedResult) := by decide +kernel
  obtain ⟨state, hrun, hphase⟩ := Option.map_eq_some_iff.1 hover
  have houtcome := BulkState.every_entry_has_one_outcome wireLen bulkConfig sampleBulk
    pairOptions 600000000000 plainCodec validateOptions_pair (by decide) hrun
  exact ⟨state, hrun, mixedResult, hphase, houtcome.2.2.1 mixedResult hphase⟩

/-! ### An endless backoff

Two entries are confirmed and the third one is unavailable.  The backoff is no duration, so that
the future panics, and what was confirmed is not reported. -/

def endlessOptions : BulkMutationOptions :=
  { BulkMutationOptions.default with
    retry :=
      { RetryPolicy.default with
        initialBackoff := maxDuration
        maxBackoff := maxDuration } }

def endlessInputs : List BulkInput :=
  let retryTurn : RetryTurn := { draw := 1, now := 10 }
  [.batch 0 (.polled (turnAt 0)), .batch 0 .opened,
    .batch 0 (.message
      { entries :=
          [{ index := 0, status := none }, { index := 1, status := none },
            { index := 2, status := some { code := 14 } }] } retryTurn),
    .batch 0 (.streamClosed .ended retryTurn), .dropped [0]]

theorem BulkState.not_hasOutcomes_endlessInputs :
    validateOptions endlessOptions = .ok () ∧
      ∃ state, run (BulkState.step plainCodec)
          (.start wireLen bulkConfig sampleBulk endlessOptions 600000000000) endlessInputs =
            some state ∧
        state.phase = .panicked ∧ ¬ BulkState.HasOutcomes sampleBulk state := by
  have hover : (run (BulkState.step plainCodec)
      (.start wireLen bulkConfig sampleBulk endlessOptions 600000000000) endlessInputs).map
        BulkState.phase = some .panicked := by
    decide +kernel
  obtain ⟨state, hrun, hphase⟩ := Option.map_eq_some_iff.1 hover
  refine ⟨by decide +kernel, state, hrun, hphase, ?_⟩
  rintro ⟨result, hresult, -⟩
  rw [hphase] at hresult
  cases hresult

end BigtableClient
