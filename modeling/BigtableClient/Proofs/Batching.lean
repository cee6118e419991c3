import BigtableClient.ProofSupport.GreedySplit
import BigtableClient.WireLen

/-!
# Batch splitting

`split_batches` is a greedy split by the limits on a whole request: its running
totals are those of the open batch, so the check on the next entry asks whether the
open batch would still be within the limits together with it.
-/

namespace BigtableClient

open Proto (MutateRowsEntry MutateRowsRequest)
open ProofSupport

/-! ## Varints -/

theorem varintSizeFrom_eq (value bytes : Nat) :
    varintSizeFrom value bytes = Nat.log 128 value + bytes := by
  induction value, bytes using varintSizeFrom.induct with
  | case1 value bytes hlarge ih =>
      have hlog : Nat.log 128 value = Nat.log 128 (value / 128) + 1 :=
        Nat.log_of_one_lt_of_le (by omega) hlarge
      have hshift : value >>> 7 = value / 128 := Nat.shiftRight_eq_div_pow value 7
      rw [varintSizeFrom, if_pos hlarge, ih, hshift, hlog]
      omega
  | case2 value bytes hsmall =>
      rw [varintSizeFrom, if_neg hsmall, Nat.log_of_lt (by omega), Nat.zero_add]

/-- The hand-written size is the number of base-128 digits. -/
theorem varintSize_eq (value : Nat) : varintSize value = Nat.log 128 value + 1 :=
  varintSizeFrom_eq value 1

/-! ## Limits -/

structure WithinLimits (size : List PendingEntry → Nat) (policy : BatchPolicy)
    (batch : List PendingEntry) : Prop where
  entries : batch.length ≤ policy.maxEntriesPerRequest
  mutations : (batch.map fun entry => entry.proto.mutations.length).sum ≤ maxMutationsPerRequest
  bytes : size batch ≤ policy.maxRequestBytes

instance {size : List PendingEntry → Nat} {policy : BatchPolicy} :
    DecidablePred (WithinLimits size policy) := fun batch =>
  decidable_of_iff
    (batch.length ≤ policy.maxEntriesPerRequest ∧
      (batch.map fun entry => entry.proto.mutations.length).sum ≤ maxMutationsPerRequest ∧
      size batch ≤ policy.maxRequestBytes)
    ⟨fun h => ⟨h.1, h.2.1, h.2.2⟩, fun h => ⟨h.entries, h.mutations, h.bytes⟩⟩

variable {encodedLen : EncodedLen} {tableName appProfileId : String} {policy : BatchPolicy}

/-- The bytes of the whole request, as the encoder counts them. -/
def encodedSize (encodedLen : EncodedLen) (tableName appProfileId : String)
    (batch : List PendingEntry) : Nat :=
  encodedLen.request (mutateRowsRequest tableName appProfileId batch)

/-- The bytes of the whole request, as `split_batches` counts them. -/
def countedSize (encodedLen : EncodedLen) (tableName appProfileId : String)
    (batch : List PendingEntry) : Nat :=
  encodedLen.request (mutateRowsRequest tableName appProfileId []) +
    (batch.map fun entry => repeatedMessageSize (encodedLen.entry entry.proto)).sum

theorem countedSize_eq_encodedSize (h : encodedLen.Repeated) :
    countedSize encodedLen tableName appProfileId =
      encodedSize encodedLen tableName appProfileId := by
  funext batch
  rw [encodedSize, h]
  simp only [countedSize, mutateRowsRequest, List.map_map, List.map_nil, repeatedMessageSize,
    varintSize_eq, Function.comp_def]

@[simp] theorem countedSize_append (batch : List PendingEntry) (entry : PendingEntry) :
    countedSize encodedLen tableName appProfileId (batch ++ [entry]) =
      countedSize encodedLen tableName appProfileId batch +
        repeatedMessageSize (encodedLen.entry entry.proto) := by
  simp [countedSize, Nat.add_assoc]

/-! ## The loop -/

def pendingEntry (item : RowMutation × Nat) : PendingEntry where
  originalIndex := item.2
  proto := item.1.intoProto
  retrySafe := item.1.isRetrySafe
  attempts := 0

abbrev Fits (encodedLen : EncodedLen) (tableName appProfileId : String) (policy : BatchPolicy) :
    List PendingEntry → Prop :=
  WithinLimits (countedSize encodedLen tableName appProfileId) policy

/-- The running totals are those of the open batch. -/
structure Splitting.Tracks (encodedLen : EncodedLen) (tableName appProfileId : String)
    (policy : BatchPolicy) (splitting : Splitting) : Prop where
  bytes : splitting.currentBytes =
    countedSize encodedLen tableName appProfileId splitting.current
  mutations : splitting.currentMutations =
    (splitting.current.map fun entry => entry.proto.mutations.length).sum
  entries : splitting.current.length ≤ policy.maxEntriesPerRequest

def Splitting.split (splitting : Splitting) : GreedySplit.Split PendingEntry :=
  (splitting.batches, splitting.current)

theorem Splitting.Tracks.exceedsTarget_iff {splitting : Splitting}
    (h : splitting.Tracks encodedLen tableName appProfileId policy) (item : RowMutation × Nat) :
    (splitting.current.length = policy.maxEntriesPerRequest ∨
        splitting.currentMutations + item.1.intoProto.mutations.length >
          maxMutationsPerRequest ∨
        splitting.currentBytes + repeatedMessageSize (encodedLen.entry item.1.intoProto) >
          policy.maxRequestBytes) ↔
      ¬ Fits encodedLen tableName appProfileId policy
        (splitting.current ++ [pendingEntry item]) := by
  have hentries := h.entries
  rw [h.bytes, h.mutations]
  constructor
  · intro hover hfits
    have hlength := hfits.entries
    have hmutations := hfits.mutations
    have hbytes := hfits.bytes
    simp only [List.map_append, List.sum_append, List.length_append, List.map_cons, List.map_nil,
      List.sum_cons, List.sum_nil, List.length_singleton, countedSize_append, pendingEntry]
      at hlength hmutations hbytes
    omega
  · intro hfits
    by_contra hover
    refine hfits ⟨?_, ?_, ?_⟩
    · rw [List.length_append, List.length_singleton]
      omega
    · simp only [List.map_append, List.sum_append, List.map_cons, List.map_nil, List.sum_cons,
        List.sum_nil, pendingEntry]
      omega
    · simp only [countedSize_append, pendingEntry]
      omega

section Loop

variable {splitting : Splitting} (item : RowMutation × Nat)
  (h : splitting.Tracks encodedLen tableName appProfileId policy)

include h

theorem Splitting.Tracks.push (hpolicy : 0 < policy.maxEntriesPerRequest) :
    (splitting.push encodedLen policy
        (encodedLen.request (mutateRowsRequest tableName appProfileId [])) item).Tracks
      encodedLen tableName appProfileId policy := by
  unfold Splitting.push
  dsimp only
  split_ifs with hcut
  · refine ⟨?_, ?_, ?_⟩
    · exact (countedSize_append [] (pendingEntry item)).symm
    · simp
    · exact hpolicy
  · have hentries := h.entries
    refine ⟨?_, ?_, ?_⟩
    · rw [h.bytes]
      exact (countedSize_append splitting.current (pendingEntry item)).symm
    · simp [h.mutations]
    · simp only [List.length_append, List.length_singleton]
      rcases Decidable.em (splitting.current = []) with hnil | hne
      · rw [hnil]
        exact hpolicy
      · have : splitting.current.length ≠ policy.maxEntriesPerRequest :=
          fun heq => hcut ⟨hne, Or.inl heq⟩
        omega

theorem Splitting.Tracks.split_push :
    (splitting.push encodedLen policy
        (encodedLen.request (mutateRowsRequest tableName appProfileId [])) item).split =
      GreedySplit.add (Fits encodedLen tableName appProfileId policy) splitting.split
        (pendingEntry item) := by
  have hiff := h.exceedsTarget_iff item
  unfold Splitting.push GreedySplit.add Splitting.split
  by_cases hcut : splitting.current ≠ [] ∧
      ¬ Fits encodedLen tableName appProfileId policy (splitting.current ++ [pendingEntry item])
  · have hover := hiff.2 hcut.2
    simp only [if_pos hcut]
    simp only [if_pos (And.intro hcut.1 hover)]
    rfl
  · simp only [if_neg hcut]
    rw [← hiff] at hcut
    simp only [if_neg hcut]
    rfl

end Loop

theorem foldl_push_split (hpolicy : 0 < policy.maxEntriesPerRequest)
    (items : List (RowMutation × Nat)) (splitting : Splitting)
    (h : splitting.Tracks encodedLen tableName appProfileId policy) :
    (items.foldl (Splitting.push encodedLen policy
        (encodedLen.request (mutateRowsRequest tableName appProfileId []))) splitting).split =
      (items.map pendingEntry).foldl
        (GreedySplit.add (Fits encodedLen tableName appProfileId policy)) splitting.split := by
  induction items generalizing splitting with
  | nil => rfl
  | cons item items ih =>
      rw [List.foldl_cons, List.map_cons, List.foldl_cons, ← h.split_push item]
      exact ih _ (h.push item hpolicy)

/-! ## The batches -/

def submittedEntries (entries : List RowMutation) : List PendingEntry :=
  entries.zipIdx.map pendingEntry

section Batches

variable (hpolicy : 0 < policy.maxEntriesPerRequest) (entries : List RowMutation)

include hpolicy

/-- The batches are the greedy split of the rows by the limits. -/
theorem splitBatches_eq_close :
    splitBatches encodedLen entries tableName appProfileId policy =
      GreedySplit.close ((submittedEntries entries).foldl
        (GreedySplit.add (Fits encodedLen tableName appProfileId policy)) ([], [])) := by
  let start : Splitting :=
    { batches := []
      current := []
      currentBytes := encodedLen.request (mutateRowsRequest tableName appProfileId [])
      currentMutations := 0 }
  have hstart : start.Tracks encodedLen tableName appProfileId policy := ⟨rfl, rfl, Nat.zero_le _⟩
  have hfold := foldl_push_split hpolicy entries.zipIdx start hstart
  rw [submittedEntries, ← show start.split = ([], []) from rfl, ← hfold]
  rfl

theorem flatten_splitBatches :
    (splitBatches encodedLen entries tableName appProfileId policy).flatten =
      submittedEntries entries := by
  rw [splitBatches_eq_close hpolicy]
  exact (GreedySplit.splitsInto_foldl _).flatten_close

theorem greedy_splitBatches :
    GreedySplit.Greedy (Fits encodedLen tableName appProfileId policy)
      (splitBatches encodedLen entries tableName appProfileId policy) := by
  rw [splitBatches_eq_close hpolicy]
  exact (GreedySplit.splitsInto_foldl _).greedy_close

end Batches

end BigtableClient
