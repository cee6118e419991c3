import BigtableClient.EntryLookup
import BigtableClient.Write

/-!
# What an attempt says about an entry

What the record of an attempt shows: the status code that it left an entry with,
whether that code confirms the entry, fails it or has it sent again, and the delay that
the server asks for.  All of it is read off the requests, the messages and the end of
the stream, and none off the variables that the code keeps.
-/

namespace BigtableClient

open Proto (MutateRowsResult)

/-- The status code of a result; a result without a status is a success. -/
def resultCode (result : MutateRowsResult) : Int := (result.status.getD {}).code

def AttemptEnd.status : AttemptEnd → Option Status
  | .refused status => some status
  | .closed streamEnd => streamEnd.failure
  | .malformed _ => none

namespace WriteAttempt

def results (attempt : WriteAttempt) : List MutateRowsResult := streamResults attempt.messages

def Sound (attempt : WriteAttempt) : Prop :=
  WellIndexed attempt.indexes.length attempt.results

instance : DecidablePred Sound := fun attempt =>
  inferInstanceAs (Decidable (WellIndexed attempt.indexes.length attempt.results))

/-- The result for an entry, which is named by its position in the bulk mutation. -/
def resultOf (attempt : WriteAttempt) (index : Nat) : Option MutateRowsResult :=
  resultAt attempt.results (attempt.indexes.idxOf index)

/-- The status code that the attempt left the entry with: that of its own result, or else that of
the status which ended the RPC or the stream. -/
def codeOf (attempt : WriteAttempt) (index : Nat) : Option Code :=
  match attempt.resultOf index with
  | some result => some (.fromI32 (resultCode result))
  | none => (attempt.ending.bind AttemptEnd.status).map Status.code

def statusOf (codec : Codec) (attempt : WriteAttempt) (index : Nat) : Option Status :=
  match attempt.resultOf index with
  | some result => entryError codec result
  | none => attempt.ending.bind AttemptEnd.status

def askedDelay (codec : Codec) (attempt : WriteAttempt) (index : Nat) : Duration :=
  ((attempt.statusOf codec index).bind (retryDelay codec)).getD 0

structure Confirms (attempt : WriteAttempt) (index : Nat) : Prop where
  carried : index ∈ attempt.indexes
  sound : attempt.Sound
  ok : ∃ result, attempt.resultOf index = some result ∧ resultCode result = 0

structure Resends (attempt : WriteAttempt) (index : Nat) : Prop where
  carried : index ∈ attempt.indexes
  sound : attempt.Sound
  code : attempt.codeOf index = some .deadlineExceeded ∨
    attempt.codeOf index = some .unavailable

/-! ### What it reports -/

def confirmed (attempt : WriteAttempt) : List Nat :=
  attempt.indexes.filter fun index =>
    attempt.Sound ∧ (attempt.resultOf index).any fun result => resultCode result = 0

/-- The stream was sound, and left the entry with a code that asks for another attempt. -/
def asksAgain (attempt : WriteAttempt) (index : Nat) : Bool :=
  attempt.Sound ∧ (attempt.codeOf index = some .deadlineExceeded ∨
    attempt.codeOf index = some .unavailable)

/-- Every entry was left with a code: a stream that ended normally had a result for each. -/
def Complete (attempt : WriteAttempt) : Prop :=
  ∀ index ∈ attempt.indexes, (attempt.codeOf index).isSome

instance : DecidablePred Complete := fun attempt =>
  inferInstanceAs (Decidable (∀ index ∈ attempt.indexes, (attempt.codeOf index).isSome))

def firstFailure (attempt : WriteAttempt) : Option Code :=
  (attempt.indexes.filterMap attempt.codeOf).find? fun code => code ≠ .ok

def reportedCode (attempt : WriteAttempt) : Code :=
  if attempt.Sound ∧ attempt.Complete then attempt.firstFailure.getD .ok else .unknown

theorem mem_confirmed {attempt : WriteAttempt} {index : Nat} :
    index ∈ attempt.confirmed ↔ attempt.Confirms index := by
  simp only [confirmed, List.mem_filter, decide_eq_true_eq, Option.any_eq_true]
  constructor
  · rintro ⟨hcarried, hsound, result, hresult, hzero⟩
    exact ⟨hcarried, hsound, result, hresult, hzero⟩
  · rintro ⟨hcarried, hsound, result, hresult, hzero⟩
    exact ⟨hcarried, hsound, result, hresult, hzero⟩

theorem resends_iff {attempt : WriteAttempt} {index : Nat} :
    attempt.Resends index ↔ index ∈ attempt.indexes ∧ attempt.asksAgain index := by
  rw [asksAgain, decide_eq_true_eq]
  constructor
  · exact fun h => ⟨h.carried, h.sound, h.code⟩
  · exact fun h => ⟨h.1, h.2.1, h.2.2⟩

theorem resultCode_eq_zero_iff {codec : Codec} {result : MutateRowsResult} :
    resultCode result = 0 ↔ entryError codec result = none := by
  unfold resultCode entryError statusResult
  dsimp only
  split_ifs with h
  · simp [h]
  · simp [h]

theorem fromI32_resultCode {codec : Codec} {result : MutateRowsResult} {status : Status}
    (h : entryError codec result = some status) :
    Code.fromI32 (resultCode result) = status.code := by
  unfold entryError statusResult at h
  by_cases hzero : (result.status.getD {}).code = 0
  · simp [hzero] at h
  · simp only [if_neg hzero, Option.some.injEq] at h
    rw [← h]
    rfl

theorem Resends.not_confirms {attempt : WriteAttempt} {index : Nat} (h : attempt.Resends index) :
    ¬ attempt.Confirms index := by
  rintro ⟨-, -, result, hresult, hzero⟩
  have hcode : attempt.codeOf index = some .ok := by
    simp [codeOf, hresult, hzero, Code.fromI32]
  rcases h.code with h | h
  · rw [hcode] at h
    cases h
  · rw [hcode] at h
    cases h

end WriteAttempt

end BigtableClient
