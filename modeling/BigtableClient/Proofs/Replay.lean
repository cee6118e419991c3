import BigtableClient.Proofs.BulkInvariant

/-!
# No replay

What the requests of a bulk mutation have in common, over every run and every
interleaving of its batches: an entry is sent again only after an attempt that left
it with a retryable code, only when that is safe, and a bounded number of times.
-/

namespace BigtableClient

open ProofSupport.Transition
open ProofSupport.RetryLedger

/-! ## The requests that carried an entry -/

/-- What holds of the requests that carried an entry, in the order in which they were issued. -/
structure ReplaySafe (bulk : BulkMutation) (maxAttempts index : Nat)
    (attempts : List WriteAttempt) : Prop where
  /-- the requests carry the rows of the bulk mutation at the recorded positions -/
  rows : ∀ attempt ∈ attempts, attempt.request.entries.map some =
    attempt.indexes.map fun position => (bulk.entries[position]?).map RowMutation.intoProto
  confirmed_last : ∀ earlier attempt later, attempts = earlier ++ attempt :: later →
    attempt.Confirms index → later = []
  unsafe_once : ∀ row, bulk.entries[index]? = some row → row.isRetrySafe = false →
    attempts.length ≤ 1
  resent_code : ∀ earlier attempt later, attempts = earlier ++ attempt :: later → later ≠ [] →
    attempt.codeOf index = some .deadlineExceeded ∨ attempt.codeOf index = some .unavailable
  malformed_last : ∀ earlier attempt later, attempts = earlier ++ attempt :: later →
    ¬ attempt.Sound → later = []
  bounded : attempts.length ≤ maxAttempts

theorem replaySafe_nil (bulk : BulkMutation) (maxAttempts index : Nat) :
    ReplaySafe bulk maxAttempts index [] where
  rows := by simp
  confirmed_last := by simp
  unsafe_once := by simp
  resent_code := by simp
  malformed_last := by simp
  bounded := Nat.zero_le _

namespace Books

variable {initial operation : BatchOperation} {attempts : List WriteAttempt}
  {live : List PendingEntry} {index : Nat}

theorem attempts_carriers_eq_nil (h : Books initial operation attempts live)
    (hindex : index ∉ initial.indexes) : carriers attempts index = [] := by
  apply List.filter_eq_nil_iff.2
  intro attempt hattempt
  obtain ⟨entries, hsublist, hindexes, -⟩ := h.sends attempt hattempt
  rw [decide_eq_true_eq, hindexes]
  exact fun hmem => hindex ((hsublist.map _).subset hmem)

theorem follows_carriers (h : Books initial operation attempts live) {earlier : List WriteAttempt}
    {attempt next : WriteAttempt} {later : List WriteAttempt}
    (hcarriers : carriers attempts index = earlier ++ attempt :: next :: later) :
    attempt.Resends index ∧
      ∀ entry ∈ initial.pending, entry.originalIndex = index → entry.retrySafe := by
  have hpairwise : (carriers attempts index).Pairwise initial.Follows :=
    h.follows.sublist List.filter_sublist
  have hmem : next ∈ carriers attempts index := by simp [hcarriers]
  rw [hcarriers] at hpairwise
  have hfollows := (List.pairwise_cons.1 (List.pairwise_append.1 hpairwise).2.1).1 next (by simp)
  exact hfollows index (of_decide_eq_true (List.mem_filter.1 hmem).2)

/-- The requests of one batch that carried an entry. -/
theorem replaySafe {bulk : BulkMutation} {maxAttempts : Nat}
    (h : Books initial operation attempts live) (hmax : initial.maxAttempts = maxAttempts)
    (hsubmitted : ∀ entry ∈ initial.pending, ∃ row,
      bulk.entries[entry.originalIndex]? = some row ∧ entry.proto = row.intoProto ∧
        entry.retrySafe = row.isRetrySafe)
    (hindex : index ∈ initial.indexes) :
    ReplaySafe bulk maxAttempts index (carriers attempts index) := by
  have hagain : ∀ earlier attempt later,
      carriers attempts index = earlier ++ attempt :: later → later ≠ [] →
        attempt.Resends index ∧
          ∀ entry ∈ initial.pending, entry.originalIndex = index → entry.retrySafe := by
    intro earlier attempt later hcarriers hlater
    cases later with
    | nil => exact absurd rfl hlater
    | cons next later => exact h.follows_carriers hcarriers
  refine ⟨?_, ?_, ?_, ?_, ?_, ?_⟩
  · intro attempt hattempt
    obtain ⟨entries, hsublist, hindexes, hrequest⟩ := h.sends attempt (List.mem_filter.1 hattempt).1
    rw [hrequest, hindexes, mutateRowsRequest, List.map_map, List.map_map]
    apply List.map_congr_left
    intro entry hentry
    obtain ⟨row, hrow, hproto, -⟩ := hsubmitted entry (hsublist.subset hentry)
    simp [hrow, hproto]
  · intro earlier attempt later hcarriers hconfirms
    by_contra hlater
    exact (hagain earlier attempt later hcarriers hlater).1.not_confirms hconfirms
  · intro row hrow hsafe
    by_contra hlength
    obtain ⟨entry, hentry, rfl⟩ := List.mem_map.1 hindex
    obtain ⟨row', hrow', -, hentrySafe⟩ := hsubmitted entry hentry
    obtain rfl := Option.some.inj (hrow.symm.trans hrow')
    rcases hcarriers : carriers attempts entry.originalIndex with _ | ⟨attempt, _ | ⟨next, later⟩⟩
    · simp [hcarriers] at hlength
    · simp [hcarriers] at hlength
    · have hsplit : carriers attempts entry.originalIndex =
          [] ++ attempt :: next :: later := hcarriers
      have hfollows := h.follows_carriers hsplit
      have hretrySafe := hfollows.2 entry hentry rfl
      rw [hentrySafe, hsafe] at hretrySafe
      cases hretrySafe
  · intro earlier attempt later hcarriers hlater
    exact (hagain earlier attempt later hcarriers hlater).1.code
  · intro earlier attempt later hcarriers hsound
    by_contra hlater
    exact hsound (hagain earlier attempt later hcarriers hlater).1.sound
  · rw [← hmax]
    exact (List.length_filter_le _ _).trans h.attempts_le

end Books

/-! ## The length of a run -/

def BatchInput.isMessage : BatchInput → Bool
  | .message _ _ => true
  | _ => false

namespace BatchRun

variable {codec : Codec} {initial : BatchOperation} {run run' : BatchRun}
  {shared shared' : OperationState} {input : BatchInput}

def weight (maxAttempts : Nat) (run : BatchRun) : Nat :=
  match run.phase with
  | .waiting => 3 * (maxAttempts - run.past.length) + 1
  | .sleeping _ => 3 * (maxAttempts - run.past.length) + 1
  | .calling _ _ _ _ => 3 * (maxAttempts - run.past.length - 1) + 3
  | .streaming _ _ _ _ _ => 3 * (maxAttempts - run.past.length - 1) + 2
  | .finished => 0
  | .panicked _ => 0

theorem weight_of_isResting {maxAttempts : Nat} (h : run.phase.isResting) :
    run.weight maxAttempts = 3 * (maxAttempts - run.past.length) + 1 := by
  unfold weight
  cases hphase : run.phase with
  | waiting => rfl
  | sleeping delay => rfl
  | _ =>
      rw [hphase] at h
      cases h

theorem weight_of_ends (maxAttempts : Nat) {current : List PendingEntry} {attempt : WriteAttempt}
    {ending : AttemptEnd} {outcome : AttemptOutcome}
    (h : Ends codec run current attempt ending outcome) :
    3 * (maxAttempts - run.past.length - 1) + 2 ≤ run.weight maxAttempts := by
  cases h with
  | refused status hphase =>
      rw [weight, hphase]
      exact Nat.le_succ _
  | malformed hphase hresponse =>
      rw [weight, hphase]
  | closed streamEnd hphase houtcome =>
      rw [weight, hphase]

/-- Every input but a message leaves less to do. -/
theorem weight_step (h : Inv codec initial run)
    (hstep : run.step codec shared input = some (run', shared')) :
    (if input.isMessage then 0 else 1) + run'.weight initial.maxAttempts ≤
      run.weight initial.maxAttempts := by
  have hone : (if input.isMessage then 0 else 1) ≤ 1 := by split_ifs <;> omega
  cases move_of_step hstep with
  | exhausted _ hresting hpending => exact absurd hpending (h.resting hresting).2
  | expired _ hresting =>
      have hzero : run.expire.weight initial.maxAttempts = 0 := rfl
      rw [weight_of_isResting hresting]
      omega
  | called _ turn hresting hpending =>
      have hlt := (h.resting hresting).1
      rw [weight_of_isResting hresting]
      have hcalling : (run.issue shared turn).1.weight initial.maxAttempts =
          3 * (initial.maxAttempts - run.past.length - 1) + 3 := rfl
      omega
  | crashed _ hresting hpending =>
      have hzero : weight initial.maxAttempts { run with phase := .panicked .timeout } = 0 := rfl
      rw [weight_of_isResting hresting]
      omega
  | opened hphase =>
      simp only [weight, hphase]
      omega
  | received turn hphase hresponse =>
      simp only [weight, hphase, BatchInput.isMessage, if_true]
      omega
  | settled _ hends hheard hreschedules =>
      have hweight := weight_of_ends initial.maxAttempts hends
      have hnext : run'.weight initial.maxAttempts ≤
          3 * (initial.maxAttempts - run.past.length - 1) + 1 := by
        cases hreschedules with
        | done hpending => exact Nat.zero_le _
        | crashed hpending => exact Nat.zero_le _
        | expired hpending => exact Nat.zero_le _
        | sleeping delay hpending =>
            simp only [weight, book, List.length_append, List.length_singleton]
            omega
      omega
  | panicked _ hphase houtcome =>
      simp only [weight, hphase]
      omega

end BatchRun

def BulkInput.moves (number : Nat) : BulkInput → Bool
  | .batch other input => other = number && !input.isMessage
  | .dropped _ => false

namespace BulkState

def weight (maxAttempts number : Nat) (state : BulkState) : Nat :=
  ((state.batches[number]?).map (BatchRun.weight maxAttempts)).getD 0

variable {codec : Codec} {initials : List BatchOperation} {state next : BulkState}
  {input : BulkInput} {index : Nat}

/-- An entry belongs to one batch, so its requests are requests of that batch. -/
theorem filter_attempts {batches : List BatchRun}
    (h : List.Forall₂ (BatchRun.Inv codec) initials batches)
    (hnodup : (initials.flatMap BatchOperation.indexes).Nodup) (index : Nat) :
    (index ∉ initials.flatMap BatchOperation.indexes ∧
        carriers (batches.flatMap BatchRun.attempts) index = []) ∨
      ∃ initial ∈ initials, ∃ run ∈ batches, BatchRun.Inv codec initial run ∧
        index ∈ initial.indexes ∧
        carriers (batches.flatMap BatchRun.attempts) index = carriers run.attempts index := by
  induction h with
  | nil => exact Or.inl ⟨by simp, rfl⟩
  | cons hinv htail ih =>
      rename_i initial run initials batches
      rw [List.flatMap_cons, List.nodup_append] at hnodup
      have hsplit : carriers ((run :: batches).flatMap BatchRun.attempts) index =
          carriers run.attempts index ++ carriers (batches.flatMap BatchRun.attempts) index := by
        rw [List.flatMap_cons, carriers, carrying, List.filter_append]
        rfl
      rw [hsplit]
      by_cases hindex : index ∈ initial.indexes
      · refine Or.inr ⟨initial, by simp, run, by simp, hinv, hindex, ?_⟩
        rcases ih hnodup.2.1 with ⟨-, hnil⟩ | ⟨other, hother, -, -, -, hmem, -⟩
        · rw [hnil, List.append_nil]
        · exact absurd rfl (hnodup.2.2 index hindex index (List.mem_flatMap_of_mem hother hmem))
      · rw [hinv.books.attempts_carriers_eq_nil hindex, List.nil_append]
        rcases ih hnodup.2.1 with ⟨hnot, hnil⟩ | ⟨other, hother, batch, hbatch, hrest⟩
        · refine Or.inl ⟨?_, hnil⟩
          rw [List.flatMap_cons, List.mem_append]
          exact fun hmem => hmem.elim hindex hnot
        · exact Or.inr ⟨other, List.mem_cons_of_mem _ hother, batch, List.mem_cons_of_mem _ hbatch,
            hrest⟩

theorem weight_step (maxAttempts number : Nat) (h : Inv codec initials state)
    (hmax : ∀ initial ∈ initials, initial.maxAttempts = maxAttempts)
    (hstep : state.step codec input = some next) :
    (if input.moves number then 1 else 0) + next.weight maxAttempts number ≤
      state.weight maxAttempts number := by
  cases step_of_step hstep with
  | dropped hrunning horder => simp [BulkInput.moves, weight, drop]
  | batch batchInput hrunning hcalm hrun hstart hbatch =>
      rename_i other run run' shared
      obtain ⟨initial, hinitial, hinv⟩ := exists_of_forall₂ h.batches (List.mem_of_getElem? hrun)
      have hweight := BatchRun.weight_step hinv hbatch
      rw [hmax initial hinitial] at hweight
      rw [weight, batches_collect, weight]
      show _ + (((state.batches.set other run')[number]?).map _).getD 0 ≤ _
      rw [getElem?_set_run hrun]
      by_cases heq : other = number
      · subst heq
        rw [if_pos rfl, hrun]
        simp only [BulkInput.moves, Option.map_some, Option.getD_some, decide_true, Bool.true_and]
        cases hmessage : batchInput.isMessage with
        | true =>
            rw [hmessage, if_pos rfl] at hweight
            simpa using hweight
        | false =>
            rw [hmessage, if_neg Bool.false_ne_true] at hweight
            simpa using hweight
      · rw [if_neg heq]
        simp [BulkInput.moves, heq]

theorem attempts_le (h : Inv codec initials state) {maxAttempts : Nat}
    (hmax : ∀ initial ∈ initials, initial.maxAttempts = maxAttempts) {run : BatchRun}
    (hrun : run ∈ state.batches) : run.attempts.length ≤ maxAttempts := by
  obtain ⟨initial, hinitial, hinv⟩ := exists_of_forall₂ h.batches hrun
  rw [← hmax initial hinitial]
  exact hinv.books.attempts_le

theorem not_unreachable (h : Inv codec initials state) {run : BatchRun}
    (hrun : run ∈ state.batches) : run.phase ≠ .panicked .unreachable := by
  obtain ⟨initial, -, hinv⟩ := exists_of_forall₂ h.batches hrun
  intro hphase
  have hrecords := hinv.records
  rw [hphase] at hrecords
  exact hrecords

section Run

variable (encodedLen : EncodedLen) (config : ClientConfig) (bulk : BulkMutation)
  (options : BulkMutationOptions) (deadline : Instant)

theorem attemptsOf_eq_nil_or (hoptions : options.Valid)
    (h : Inv codec (initialOperations encodedLen config bulk options deadline) state)
    (index : Nat) :
    state.attemptsOf index = [] ∨ ∃ batch ∈ state.batches, state.attemptsOf index =
      batch.attempts.filter fun attempt => index ∈ attempt.indexes := by
  rcases filter_attempts h.batches
      (nodup_initialOperations encodedLen config bulk options deadline hoptions) index with
    ⟨-, hnil⟩ | ⟨-, -, run, hrun, -, -, hcarriers⟩
  · exact Or.inl hnil
  · exact Or.inr ⟨run, hrun, hcarriers⟩

theorem replaySafe_attemptsOf (hoptions : options.Valid)
    (h : Inv codec (initialOperations encodedLen config bulk options deadline) state)
    (index : Nat) :
    ReplaySafe bulk options.retry.maxAttempts.toNat index (state.attemptsOf index) := by
  rcases filter_attempts h.batches
      (nodup_initialOperations encodedLen config bulk options deadline hoptions) index with
    ⟨-, hnil⟩ | ⟨initial, hinitial, run, -, hinv, hindex, hcarriers⟩
  · rw [show state.attemptsOf index = [] from hnil]
    exact replaySafe_nil _ _ _
  · rw [show state.attemptsOf index = carriers run.attempts index from hcarriers]
    exact hinv.books.replaySafe
      (maxAttempts_initialOperations encodedLen config bulk options deadline hinitial)
      (fun entry hentry =>
        row_of_mem_pending encodedLen config bulk options deadline hoptions hinitial hentry)
      hindex

theorem countP_moves_le (hoptions : options.Valid) {inputs : List BulkInput}
    (hrun : run (step codec) (start encodedLen config bulk options deadline) inputs = some state)
    (number : Nat) :
    inputs.countP (BulkInput.moves number) ≤ 3 * options.retry.maxAttempts.toNat + 1 := by
  have hmax : ∀ initial ∈ initialOperations encodedLen config bulk options deadline,
      initial.maxAttempts = options.retry.maxAttempts.toNat :=
    fun initial hinitial =>
      maxAttempts_initialOperations encodedLen config bulk options deadline hinitial
  have hcount := run_countP_add_le
    (Inv codec (initialOperations encodedLen config bulk options deadline))
    (weight options.retry.maxAttempts.toNat number) (BulkInput.moves number)
    (fun _ _ _ hinv hstep => inv_step hinv hstep)
    (fun _ _ _ hinv hstep => weight_step _ number hinv hmax hstep)
    (inv_start encodedLen config bulk options deadline hoptions) hrun
  have hstart : (start encodedLen config bulk options deadline).weight
      options.retry.maxAttempts.toNat number ≤ 3 * options.retry.maxAttempts.toNat + 1 := by
    rw [weight]
    cases hbatch : (start encodedLen config bulk options deadline).batches[number]? with
    | none => exact Nat.zero_le _
    | some batch =>
        obtain ⟨entries, -, rfl⟩ := getElem?_start encodedLen config bulk options deadline hbatch
        exact le_rfl
  omega

/-- Bulk writes never replay what must not be replayed.  In every run, whatever the server does and
however the batches interleave, the requests that carried an entry are requests of one batch, and
each of them is a safe retry of the one before.  No batch meets the `unreachable!` branch or issues
more than `max_attempts` requests, and besides messages it takes a bounded number of steps. -/
theorem no_replay (codec : Codec) (hoptions : validateOptions options = .ok ())
    {inputs : List BulkInput}
    (hrun : run (step codec) (start encodedLen config bulk options deadline) inputs =
      some state) :
    (∀ index,
      ReplaySafe bulk options.retry.maxAttempts.toNat index (state.attemptsOf index) ∧
        (state.attemptsOf index = [] ∨ ∃ batch ∈ state.batches, state.attemptsOf index =
          batch.attempts.filter fun attempt => index ∈ attempt.indexes)) ∧
      (∀ batch ∈ state.batches, batch.phase ≠ .panicked .unreachable ∧
        batch.attempts.length ≤ options.retry.maxAttempts.toNat) ∧
      ∀ number, inputs.countP (BulkInput.moves number) ≤
        3 * options.retry.maxAttempts.toNat + 1 := by
  have hvalid := BulkMutationOptions.valid_of_validateOptions hoptions
  have hinv := inv_reachable encodedLen config bulk options deadline hvalid ⟨inputs, hrun⟩
  refine ⟨fun index => ⟨?_, ?_⟩, fun batch hbatch => ⟨?_, ?_⟩,
    countP_moves_le encodedLen config bulk options deadline hvalid hrun⟩
  · exact replaySafe_attemptsOf encodedLen config bulk options deadline hvalid hinv index
  · exact attemptsOf_eq_nil_or encodedLen config bulk options deadline hvalid hinv index
  · exact not_unreachable hinv hbatch
  · exact attempts_le hinv
      (fun initial hinitial =>
        maxAttempts_initialOperations encodedLen config bulk options deadline hinitial) hbatch

end Run

end BulkState

/-! ### A run with a retry -/

def bulkConfig : ClientConfig where
  projectId := "project"
  instanceId := "instance"
  appProfileId := "default"

def sampleRow (key : UInt8) (timestampMicros : Int) : RowMutation where
  rowKey := [key]
  mutations := [.new (.setCell "family" [1] timestampMicros [2])]
  idempotency := none
  rowKey_valid := by simp [validateRowKey, maxRowKeyBytes]
  length_le := by simp [maxMutationsPerEntry]

theorem validateTableId_table : validateTableId "table" = .ok () := by decide

/-- The second row is written at the time of the server. -/
def sampleBulk : BulkMutation where
  tableId := ⟨"table", validateTableId_table⟩
  entries := [sampleRow 1 0, sampleRow 2 (-1), sampleRow 3 1000]
  entries_nonempty := by decide

def pairOptions : BulkMutationOptions :=
  { BulkMutationOptions.default with
    batch := { BatchPolicy.default with maxEntriesPerRequest := 2 } }

theorem validateOptions_pair : validateOptions pairOptions = .ok () := by decide +kernel

def turnAt (now : Instant) : AttemptTurn where
  top := now
  arm := now
  start := now
  send := now

/-- The first batch is refused and tries its safe entry again while the second one succeeds. -/
def mixedInputs : List BulkInput :=
  let unavailable : Status := { code := .unavailable, message := "", details := [] }
  let retryTurn : RetryTurn := { draw := 1, now := 10 }
  [.batch 0 (.polled (turnAt 0)), .batch 1 (.polled (turnAt 0)), .batch 1 .opened,
    .batch 0 (.refused unavailable retryTurn),
    .batch 1 (.message { entries := [{ index := 0, status := none }] } retryTurn),
    .batch 0 (.woke (turnAt 20)), .batch 1 (.streamClosed .ended retryTurn), .batch 0 .opened,
    .batch 0 (.message { entries := [{ index := 0, status := none }] } retryTurn),
    .batch 0 (.streamClosed .ended retryTurn)]

def mixedRun : Option BulkState :=
  run (BulkState.step plainCodec)
    (.start wireLen bulkConfig sampleBulk pairOptions 600000000000) mixedInputs

def mixedResult : Except BulkMutationError BulkMutationResult :=
  .error
    { totalEntries := 3
      successfulEntries := 2
      rpcAttempts := 3
      failures :=
        [{ index := 1
           attempts := 1
           cause := .rpcStatus { code := .unavailable, message := "", details := [] } false }] }

theorem BulkState.no_replay_mixedRun :
    ∃ state, mixedRun = some state ∧ ReplaySafe sampleBulk 10 1 (state.attemptsOf 1) := by
  have hsome : mixedRun.isSome := by decide +kernel
  obtain ⟨state, hrun⟩ := Option.isSome_iff_exists.1 hsome
  have hsafe := (BulkState.no_replay wireLen bulkConfig sampleBulk pairOptions 600000000000
    plainCodec validateOptions_pair hrun).1 1
  exact ⟨state, hrun, hsafe.1⟩

end BigtableClient
