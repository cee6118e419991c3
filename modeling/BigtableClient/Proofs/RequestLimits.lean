import BigtableClient.Proofs.Replay

/-!
# The limits of every request

`split_batches` cuts the rows of a bulk mutation into batches that keep the limits
and are as long as the limits allow.  A retry sends a part of a batch, so it keeps
them as well.
-/

namespace BigtableClient

open Proto (MutateRowsRequest)
open ProofSupport ProofSupport.Transition

/-! ## Limits of a request -/

/-- A request with a single entry may be larger than the target. -/
structure RequestLimits (encodedLen : EncodedLen) (policy : BatchPolicy)
    (request : MutateRowsRequest) : Prop where
  entries : request.entries.length ≤ policy.maxEntriesPerRequest
  mutations :
    (request.entries.map fun entry => entry.mutations.length).sum ≤ maxMutationsPerRequest
  bytes : 2 ≤ request.entries.length → encodedLen.request request ≤ policy.maxRequestBytes

section Limits

variable {encodedLen : EncodedLen} {tableName appProfileId : String} {policy : BatchPolicy}
  {entries batch : List PendingEntry}

theorem encodedSize_le_of_sublist (h : encodedLen.Repeated) (hsublist : entries.Sublist batch) :
    encodedSize encodedLen tableName appProfileId entries ≤
      encodedSize encodedLen tableName appProfileId batch := by
  rw [← countedSize_eq_encodedSize h, countedSize, countedSize]
  exact Nat.add_le_add_left ((hsublist.map _).sum_le_sum fun _ _ => Nat.zero_le _) _

/-- A part of a batch keeps the limits that the batch keeps. -/
theorem RequestLimits.of_sublist (hlen : encodedLen.Repeated) (hsublist : entries.Sublist batch)
    (h : RequestLimits encodedLen policy (mutateRowsRequest tableName appProfileId batch)) :
    RequestLimits encodedLen policy (mutateRowsRequest tableName appProfileId entries) := by
  have hprotos := hsublist.map PendingEntry.proto
  have hlength := hprotos.length_le
  refine ⟨hlength.trans h.entries, ?_, fun htwo => ?_⟩
  · exact ((hprotos.map _).sum_le_sum fun _ _ => Nat.zero_le _).trans h.mutations
  · exact (encodedSize_le_of_sublist hlen hsublist).trans (h.bytes (htwo.trans hlength))

theorem requestLimits_of_fits (hlen : encodedLen.Repeated)
    (h : Fits encodedLen tableName appProfileId policy batch) :
    RequestLimits encodedLen policy (mutateRowsRequest tableName appProfileId batch) := by
  have hbytes := h.bytes
  rw [countedSize_eq_encodedSize hlen] at hbytes
  refine ⟨?_, ?_, fun _ => hbytes⟩
  · simpa [mutateRowsRequest] using h.entries
  · simpa [mutateRowsRequest, Function.comp_def] using h.mutations

/-- A row has at most as many mutations as a request may have. -/
theorem requestLimits_singleton (hpolicy : 0 < policy.maxEntriesPerRequest) (row : RowMutation)
    {entry : PendingEntry} (hentry : entry.proto = row.intoProto) :
    RequestLimits encodedLen policy (mutateRowsRequest tableName appProfileId [entry]) := by
  refine ⟨hpolicy, ?_, fun htwo => ?_⟩
  · have hrow : row.intoProto.mutations.length ≤ maxMutationsPerRequest :=
      row.length_intoProto_mutations_le
    simpa [mutateRowsRequest, hentry] using hrow
  · simp [mutateRowsRequest] at htwo

theorem requestLimits_splitBatches (hlen : encodedLen.Repeated)
    (hpolicy : 0 < policy.maxEntriesPerRequest) {rows : List RowMutation}
    (hbatch : batch ∈ splitBatches encodedLen rows tableName appProfileId policy) :
    RequestLimits encodedLen policy (mutateRowsRequest tableName appProfileId batch) := by
  rcases (greedy_splitBatches hpolicy rows).singleton_or_fits batch hbatch with
    ⟨entry, rfl⟩ | hfits
  · have hmem : entry ∈ submittedEntries rows := by
      rw [← flatten_splitBatches hpolicy rows]
      exact List.mem_flatten_of_mem hbatch (List.mem_singleton_self entry)
    obtain ⟨item, -, rfl⟩ := List.mem_map.1 hmem
    exact requestLimits_singleton hpolicy item.1 rfl
  · exact requestLimits_of_fits hlen hfits

end Limits

/-! ## Requests of a run -/

namespace BulkState

variable {codec : Codec} {state : BulkState} (encodedLen : EncodedLen) (config : ClientConfig)
  (bulk : BulkMutation) (options : BulkMutationOptions) (deadline : Instant)

theorem requestLimits_attempts (hlen : encodedLen.Repeated) (hoptions : options.Valid)
    (h : Inv codec (initialOperations encodedLen config bulk options deadline) state)
    {batch : BatchRun} (hbatch : batch ∈ state.batches) {attempt : WriteAttempt}
    (hattempt : attempt ∈ batch.attempts) :
    RequestLimits encodedLen options.batch attempt.request := by
  obtain ⟨initial, hinitial, hinv⟩ := exists_of_forall₂ h.batches hbatch
  obtain ⟨entries, hsublist, -, hrequest⟩ := hinv.books.sends attempt hattempt
  obtain ⟨pending, number, hpending, rfl⟩ :=
    mem_initialOperations encodedLen config bulk options deadline hinitial
  rw [hrequest]
  exact (requestLimits_splitBatches hlen hoptions.entries_pos hpending).of_sublist hlen hsublist

end BulkState

/-- Batch splitting is a lossless and greedy partition within the limits, and the requests of
every run of a bulk mutation, retries included, keep the limits. -/
theorem splitBatches_within_limits {encodedLen : EncodedLen} (hlen : encodedLen.Repeated)
    {options : BulkMutationOptions} (hoptions : validateOptions options = .ok ()) :
    (∀ (rows : List RowMutation) (tableName appProfileId : String),
      let batches := splitBatches encodedLen rows tableName appProfileId options.batch
      batches.flatten = rows.zipIdx.map pendingEntry ∧
        (∀ (position : Nat) (entry : PendingEntry), batches.flatten[position]? = some entry →
          entry.originalIndex = position) ∧
        (∀ batch ∈ batches, batch ≠ [] ∧
          RequestLimits encodedLen options.batch
            (mutateRowsRequest tableName appProfileId batch)) ∧
        (rows ≠ [] → batches ≠ []) ∧
        batches.IsChain (GreedySplit.Forced
          (WithinLimits (encodedSize encodedLen tableName appProfileId) options.batch))) ∧
      ∀ (codec : Codec) (config : ClientConfig) (bulk : BulkMutation) (deadline : Instant)
        (inputs : List BulkInput) (state : BulkState),
        run (BulkState.step codec) (.start encodedLen config bulk options deadline) inputs =
          some state →
        ∀ batch ∈ state.batches, ∀ attempt ∈ batch.attempts,
          RequestLimits encodedLen options.batch attempt.request := by
  have hvalid := BulkMutationOptions.valid_of_validateOptions hoptions
  refine ⟨fun rows tableName appProfileId => ?_, ?_⟩
  · intro batches
    have hflatten : batches.flatten = rows.zipIdx.map pendingEntry :=
      flatten_splitBatches hvalid.entries_pos rows
    have hgreedy : GreedySplit.Greedy (Fits encodedLen tableName appProfileId options.batch)
        batches := greedy_splitBatches hvalid.entries_pos rows
    refine ⟨hflatten, ?_, fun batch hbatch => ⟨hgreedy.ne_nil batch hbatch, ?_⟩, ?_, ?_⟩
    · intro position entry hentry
      rw [hflatten, List.getElem?_map, List.getElem?_zipIdx] at hentry
      obtain ⟨item, hitem, rfl⟩ := Option.map_eq_some_iff.1 hentry
      obtain ⟨row, -, rfl⟩ := Option.map_eq_some_iff.1 hitem
      exact Nat.zero_add position
    · exact requestLimits_splitBatches hlen hvalid.entries_pos hbatch
    · intro hrows hbatches
      rw [hbatches, List.flatten_nil] at hflatten
      exact hrows (by simpa using hflatten.symm)
    · rw [← countedSize_eq_encodedSize hlen]
      exact hgreedy.forced
  · intro codec config bulk deadline inputs state hrun batch hbatch attempt hattempt
    exact BulkState.requestLimits_attempts encodedLen config bulk options deadline hlen hvalid
      (BulkState.inv_reachable encodedLen config bulk options deadline hvalid ⟨inputs, hrun⟩)
      hbatch hattempt

theorem splitBatches_within_limits_sampleBulk :
    (splitBatches wireLen sampleBulk.entries "table" "profile" pairOptions.batch).map
        List.length = [2, 1] ∧
      ∀ batch ∈ splitBatches wireLen sampleBulk.entries "table" "profile" pairOptions.batch,
        batch ≠ [] ∧ RequestLimits wireLen pairOptions.batch
          (mutateRowsRequest "table" "profile" batch) := by
  have hsplit := (splitBatches_within_limits wireLen_repeated validateOptions_pair).1
    sampleBulk.entries "table" "profile"
  exact ⟨by decide +kernel, hsplit.2.2.1⟩

end BigtableClient
