import BigtableClient.Classify

/-!
# Outcomes by lookup

What `consume_stream` is for: every entry of the request, in the order of the
request, is settled by the result that the stream holds for its position, or by the
way the stream ended when there is none.
-/

namespace BigtableClient

open Proto (MutateRowsResult MutateRowsResponse)

structure WellIndexed (entryCount : Nat) (results : List MutateRowsResult) : Prop where
  inRange : ∀ result ∈ results, 0 ≤ result.index ∧ result.index < entryCount
  distinct : (results.map MutateRowsResult.index).Nodup

instance {entryCount : Nat} : DecidablePred (WellIndexed entryCount) := fun results =>
  decidable_of_iff
    ((∀ result ∈ results, 0 ≤ result.index ∧ result.index < entryCount) ∧
      (results.map MutateRowsResult.index).Nodup)
    ⟨fun h => ⟨h.1, h.2⟩, fun h => ⟨h.inRange, h.distinct⟩⟩

def streamResults (messages : List MutateRowsResponse) : List MutateRowsResult :=
  messages.flatMap MutateRowsResponse.entries

def resultAt (results : List MutateRowsResult) (position : Nat) : Option MutateRowsResult :=
  results.find? fun result => result.index = position

/-- What an attempt means for one entry. -/
inductive Verdict where
  | succeeded
  /-- to be classified by this status -/
  | refused (status : Status) (origin : FailureOrigin)
  | missing (position : Nat)
  deriving DecidableEq, Repr

def verdictAt (codec : Codec) (results : List MutateRowsResult) (streamFailure : Option Status)
    (position : Nat) : Verdict :=
  match resultAt results position with
  | some result =>
      match statusResult codec result.status with
      | .ok () => .succeeded
      | .error status => .refused status .entry
  | none =>
      match streamFailure with
      | some status => .refused status .rpc
      | none => .missing position

def Verdict.settle (codec : Codec) (maxAttempts : Nat) (verdict : Verdict) (entry : PendingEntry)
    (outcome : AttemptOutcome) : AttemptOutcome :=
  match verdict with
  | .succeeded => { outcome with successful := outcome.successful + 1 }
  | .refused status origin => classifyStatus codec maxAttempts entry status origin outcome
  | .missing position =>
      { outcome with
        code := .unknown
        failures := outcome.failures ++ [invalidResponse (.missingIndex position) entry] }

/-- Settle entries one by one, each with its position in the request. -/
def settleAll (codec : Codec) (maxAttempts : Nat) (verdict : Nat → Verdict)
    (items : List (PendingEntry × Nat)) (outcome : AttemptOutcome) : AttemptOutcome :=
  items.foldl (fun outcome item => (verdict item.2).settle codec maxAttempts item.1 outcome)
    outcome

def lookupOutcome (codec : Codec) (maxAttempts : Nat) (current : List PendingEntry)
    (results : List MutateRowsResult) (streamFailure : Option Status) : AttemptOutcome :=
  settleAll codec maxAttempts (verdictAt codec results streamFailure) current.zipIdx {}

/-! ## What a failure says -/

def entryError (codec : Codec) (result : MutateRowsResult) : Option Status :=
  match statusResult codec result.status with
  | .ok () => none
  | .error status => some status

/-- The failure is that of the row sent at this position: by the status of its result, or by the
way the stream ended when it has none. -/
structure MutationFailure.Blames (codec : Codec) (results : List MutateRowsResult)
    (streamFailure : Option Status) (failure : MutationFailure) (position : Nat)
    (entry : PendingEntry) : Prop where
  index : failure.index = entry.originalIndex
  attempts : failure.attempts = entry.attempts
  cause :
    (∃ status, (resultAt results position).bind (entryError codec) = some status ∧
        failure.cause = .entryStatus status entry.retrySafe) ∨
      resultAt results position = none ∧
        ((∃ status, streamFailure = some status ∧
            failure.cause = .rpcStatus status entry.retrySafe) ∨
          streamFailure = none ∧ failure.cause = .invalidResponse (.missingIndex position))

/-- The issue is what is wrong with a result after the results before it. -/
def MutateRowsResponseIssue.Names (entryCount : Nat) (before : List MutateRowsResult)
    (result : MutateRowsResult) : MutateRowsResponseIssue → Prop
  | .negativeIndex index => index = result.index ∧ index < 0
  | .indexOutOfRange index count => index = result.index ∧ count = entryCount ∧ count ≤ index
  | .duplicateIndex index => result.index = index ∧ ∃ earlier ∈ before, earlier.index = index
  | .missingIndex _ => False

/-! ## One verdict -/

namespace Verdict

def retries (maxAttempts : Nat) (verdict : Verdict) (entry : PendingEntry) : Bool :=
  match verdict with
  | .refused status _ =>
      entry.retrySafe ∧ isMutateRetryable status ∧ entry.attempts < maxAttempts
  | _ => false

def failure? (maxAttempts : Nat) (verdict : Verdict) (entry : PendingEntry) :
    Option MutationFailure :=
  match verdict with
  | .succeeded => none
  | .refused status origin =>
      if verdict.retries maxAttempts entry then
        none
      else
        some
          { index := entry.originalIndex
            attempts := entry.attempts
            cause := origin.cause status entry.retrySafe }
  | .missing position => some (invalidResponse (.missingIndex position) entry)

variable {codec : Codec} {maxAttempts : Nat} {entry : PendingEntry} {outcome : AttemptOutcome}

theorem retry_settle (verdict : Verdict) :
    (verdict.settle codec maxAttempts entry outcome).retry =
      outcome.retry ++ if verdict.retries maxAttempts entry then [entry] else [] := by
  cases verdict with
  | succeeded => simp [settle, retries]
  | missing position => simp [settle, retries]
  | refused status origin =>
      by_cases h : entry.retrySafe ∧ isMutateRetryable status ∧ entry.attempts < maxAttempts
      · simp [settle, classifyStatus, retries, h]
      · simp only [settle, classifyStatus, retries, if_neg h, decide_eq_false h]
        simp

theorem failures_settle (verdict : Verdict) :
    (verdict.settle codec maxAttempts entry outcome).failures =
      outcome.failures ++ (verdict.failure? maxAttempts entry).toList := by
  cases verdict with
  | succeeded => simp [settle, failure?]
  | missing position => simp [settle, failure?]
  | refused status origin =>
      by_cases h : entry.retrySafe ∧ isMutateRetryable status ∧ entry.attempts < maxAttempts
      · simp [settle, classifyStatus, failure?, retries, h]
      · simp only [settle, classifyStatus, failure?, retries, if_neg h, decide_eq_false h]
        simp

theorem successful_settle (verdict : Verdict) :
    (verdict.settle codec maxAttempts entry outcome).successful =
      outcome.successful + if verdict = .succeeded then 1 else 0 := by
  cases verdict with
  | succeeded => simp [settle]
  | missing position => simp [settle]
  | refused status origin =>
      rw [if_neg (by simp)]
      simp only [settle, classifyStatus]
      split_ifs <;> rfl

end Verdict

/-! ## All verdicts -/

section SettleAll

variable {codec : Codec} {maxAttempts : Nat} {verdict : Nat → Verdict}
  (items : List (PendingEntry × Nat)) (outcome : AttemptOutcome)

theorem retry_settleAll :
    (settleAll codec maxAttempts verdict items outcome).retry =
      outcome.retry ++
        (items.filter fun item => (verdict item.2).retries maxAttempts item.1).map Prod.fst := by
  induction items generalizing outcome with
  | nil => simp [settleAll]
  | cons item items ih =>
      rw [settleAll, List.foldl_cons, ← settleAll, ih, Verdict.retry_settle, List.filter_cons]
      split_ifs with hretries <;> simp_all

theorem failures_settleAll :
    (settleAll codec maxAttempts verdict items outcome).failures =
      outcome.failures ++
        items.filterMap fun item => (verdict item.2).failure? maxAttempts item.1 := by
  induction items generalizing outcome with
  | nil => simp [settleAll]
  | cons item items ih =>
      rw [settleAll, List.foldl_cons, ← settleAll, ih, Verdict.failures_settle,
        List.filterMap_cons]
      cases (verdict item.2).failure? maxAttempts item.1 <;> simp

theorem successful_settleAll :
    (settleAll codec maxAttempts verdict items outcome).successful =
      outcome.successful + items.countP fun item => verdict item.2 = .succeeded := by
  induction items generalizing outcome with
  | nil => simp [settleAll]
  | cons item items ih =>
      rw [settleAll, List.foldl_cons, ← settleAll, ih, Verdict.successful_settle,
        List.countP_cons]
      simp only [decide_eq_true_eq]
      omega

end SettleAll

theorem rpcFailure_eq_settleAll (codec : Codec) (maxAttempts : Nat) (current : List PendingEntry)
    (status : Status) :
    rpcFailure codec maxAttempts current status =
      settleAll codec maxAttempts (fun _ => .refused status .rpc) current.zipIdx
        { code := status.code } := by
  rw [rpcFailure, settleAll]
  conv_lhs => rw [← List.zipIdx_map_fst 0 current, List.foldl_map]
  rfl

end BigtableClient
