import BigtableClient.Mutation
import BigtableClient.Retry

/-!
# Options and batches of a bulk mutation

The policy checks, and `split_batches`: the rows of a bulk mutation are cut into
requests on the way through them once, with three running totals.
-/

namespace BigtableClient

open Proto (MutateRowsEntry MutateRowsRequest)

/-! ## Options -/

structure BatchPolicy where
  maxEntriesPerRequest : Nat
  maxRequestBytes : Nat
  maxInFlightRequests : Nat
  deriving DecidableEq, Repr

structure BulkMutationOptions where
  retry : RetryPolicy
  deadlines : DeadlinePolicy
  batch : BatchPolicy
  deriving DecidableEq, Repr

def BatchPolicy.default : BatchPolicy where
  maxEntriesPerRequest := 100
  maxRequestBytes := 20 * 1024 * 1024
  maxInFlightRequests := 5

def BulkMutationOptions.default : BulkMutationOptions where
  retry := .default
  deadlines :=
    { operationTimeout := 600 * 1000000000
      attemptTimeout := 60 * 1000000000 }
  batch := .default

inductive BulkMutationPolicyIssue where
  | zeroMaxAttempts
  | zeroInitialBackoff
  | zeroMaxBackoff
  | maxBackoffTooSmall
  | invalidBackoffMultiplier
  | zeroOperationTimeout
  | zeroAttemptTimeout
  | zeroEntriesPerRequest
  | zeroRequestBytes
  | zeroInFlightRequests
  | deadlineTooLarge
  deriving DecidableEq, Repr

def PolicyIssue.toBulkMutationPolicyIssue : PolicyIssue → BulkMutationPolicyIssue
  | .zeroMaxAttempts => .zeroMaxAttempts
  | .zeroInitialBackoff => .zeroInitialBackoff
  | .zeroMaxBackoff => .zeroMaxBackoff
  | .maxBackoffTooSmall => .maxBackoffTooSmall
  | .invalidBackoffMultiplier => .invalidBackoffMultiplier
  | .zeroOperationTimeout => .zeroOperationTimeout
  | .zeroAttemptTimeout => .zeroAttemptTimeout

def validateOptions (options : BulkMutationOptions) : Except BulkMutationPolicyIssue Unit :=
  match validatePolicies options.retry options.deadlines with
  | .error issue => .error issue.toBulkMutationPolicyIssue
  | .ok () =>
      if options.batch.maxEntriesPerRequest = 0 then
        .error .zeroEntriesPerRequest
      else if options.batch.maxRequestBytes = 0 then
        .error .zeroRequestBytes
      else if options.batch.maxInFlightRequests = 0 then
        .error .zeroInFlightRequests
      else
        .ok ()

/-- What the checks of the options leave to rely on. -/
structure BulkMutationOptions.Valid (options : BulkMutationOptions) : Prop where
  attempts_pos : 0 < options.retry.maxAttempts.toNat
  entries_pos : 0 < options.batch.maxEntriesPerRequest
  inFlight_pos : 0 < options.batch.maxInFlightRequests

theorem validPolicies_attempts_pos {retry : RetryPolicy} {deadlines : DeadlinePolicy}
    (h : validatePolicies retry deadlines = .ok ()) : 0 < retry.maxAttempts.toNat := by
  have hne : retry.maxAttempts ≠ 0 := by
    intro hzero
    simp [validatePolicies, hzero] at h
  have hnat : retry.maxAttempts.toNat ≠ 0 := fun h0 => hne (UInt32.toNat_inj.1 h0)
  omega

theorem BulkMutationOptions.valid_of_validateOptions {options : BulkMutationOptions}
    (h : validateOptions options = .ok ()) : options.Valid := by
  unfold validateOptions at h
  split at h
  · cases h
  · next hpolicies =>
    split_ifs at h with hentries hbytes hinFlight
    exact ⟨validPolicies_attempts_pos hpolicies, by omega, by omega⟩

example : validateOptions .default = .ok () := by decide +kernel

/-! ## Encoded sizes -/

/-- `encoded_len` of the protobuf messages that are sized. -/
structure EncodedLen where
  request : MutateRowsRequest → Nat
  entry : MutateRowsEntry → Nat

def varintSizeFrom (value bytes : Nat) : Nat :=
  if value ≥ 0x80 then varintSizeFrom (value >>> 7) (bytes + 1) else bytes
termination_by value
decreasing_by
  rw [Nat.shiftRight_eq_div_pow]
  omega

def varintSize (value : Nat) : Nat := varintSizeFrom value 1

def repeatedMessageSize (messageLen : Nat) : Nat := 1 + varintSize messageLen + messageLen

/-! ## Batches -/

structure PendingEntry where
  originalIndex : Nat
  proto : MutateRowsEntry
  retrySafe : Bool
  attempts : Nat
  deriving DecidableEq, Repr

def maxMutationsPerRequest : Nat := 100000

/-- The message that sends these entries; its other fields keep their defaults. -/
def mutateRowsRequest (tableName appProfileId : String) (entries : List PendingEntry) :
    MutateRowsRequest where
  tableName := tableName
  appProfileId := appProfileId
  entries := entries.map PendingEntry.proto

/-- The loop variables of `split_batches`. -/
structure Splitting where
  batches : List (List PendingEntry)
  current : List PendingEntry
  currentBytes : Nat
  currentMutations : Nat
  deriving DecidableEq, Repr

/-- One turn of the loop in `split_batches`. -/
def Splitting.push (encodedLen : EncodedLen) (policy : BatchPolicy) (baseSize : Nat)
    (splitting : Splitting) (item : RowMutation × Nat) : Splitting :=
  let (row, originalIndex) := item
  let retrySafe := row.isRetrySafe
  let proto := row.intoProto
  let mutationCount := proto.mutations.length
  let entryBytes := repeatedMessageSize (encodedLen.entry proto)
  let exceedsTarget := splitting.current ≠ [] ∧
    (splitting.current.length = policy.maxEntriesPerRequest ∨
      splitting.currentMutations + mutationCount > maxMutationsPerRequest ∨
      splitting.currentBytes + entryBytes > policy.maxRequestBytes)
  let splitting :=
    if exceedsTarget then
      { batches := splitting.batches ++ [splitting.current]
        current := []
        currentBytes := baseSize
        currentMutations := 0 }
    else
      splitting
  { splitting with
    current := splitting.current ++
      [{ originalIndex := originalIndex
         proto := proto
         retrySafe := retrySafe
         attempts := 0 }]
    currentBytes := splitting.currentBytes + entryBytes
    currentMutations := splitting.currentMutations + mutationCount }

def splitBatches (encodedLen : EncodedLen) (entries : List RowMutation)
    (tableName appProfileId : String) (policy : BatchPolicy) : List (List PendingEntry) :=
  let baseSize := encodedLen.request (mutateRowsRequest tableName appProfileId [])
  let last := entries.zipIdx.foldl (Splitting.push encodedLen policy baseSize)
    { batches := [], current := [], currentBytes := baseSize, currentMutations := 0 }
  if last.current = [] then last.batches else last.batches ++ [last.current]

end BigtableClient
