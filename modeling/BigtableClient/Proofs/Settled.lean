import BigtableClient.AttemptReading
import BigtableClient.Proofs.BatchView
import BigtableClient.Proofs.StreamOutcome

/-!
# The contract of an attempt

However an attempt ends, its outcome gives each entry of the request one of three
fates, and the fate agrees with what the record of the attempt says: confirmed,
sent again, or failed.
-/

namespace BigtableClient

open Proto (MutateRowsResult MutateRowsResponse)

variable {codec : Codec} {maxAttempts : Nat} {current : List PendingEntry}
  {attempt : WriteAttempt} {outcome : AttemptOutcome}

/-- The outcome of a recorded attempt on the entries it sent. -/
structure Settles (maxAttempts : Nat) (attempt : WriteAttempt) (current : List PendingEntry)
    (outcome : AttemptOutcome) : Prop where
  retry_sublist : outcome.retry.Sublist current
  accounted : ∃ succeeded : List Nat, succeeded.length = outcome.successful ∧
    (∀ index ∈ succeeded, attempt.Confirms index) ∧
    (outcome.retry.map PendingEntry.originalIndex ++
        (outcome.failures.map MutationFailure.index ++ succeeded)).Perm
      (current.map PendingEntry.originalIndex)
  retried : ∀ entry ∈ outcome.retry, entry.retrySafe ∧ entry.attempts < maxAttempts ∧
    attempt.Resends entry.originalIndex
  failed : ∀ failure ∈ outcome.failures, ∃ entry ∈ current,
    failure.index = entry.originalIndex ∧ failure.attempts = entry.attempts ∧
      ¬ attempt.Confirms failure.index

/-! ## Verdicts -/

def Verdict.Reads (attempt : WriteAttempt) (index : Nat) : Verdict → Prop
  | .succeeded => attempt.Confirms index
  | .refused status _ => attempt.codeOf index = some status.code ∧ ¬ attempt.Confirms index
  | .missing _ => ¬ attempt.Confirms index

namespace Verdict

theorem index_of_failure? {verdict : Verdict} {entry : PendingEntry} {failure : MutationFailure}
    (h : verdict.failure? maxAttempts entry = some failure) :
    failure.index = entry.originalIndex ∧ failure.attempts = entry.attempts ∧
      verdict ≠ .succeeded := by
  cases verdict with
  | succeeded => cases h
  | missing position =>
      obtain rfl := Option.some.inj h
      exact ⟨rfl, rfl, by simp⟩
  | refused status origin =>
      simp only [failure?] at h
      split_ifs at h
      obtain rfl := Option.some.inj h
      exact ⟨rfl, rfl, by simp⟩

theorem Reads.not_confirms {verdict : Verdict} {index : Nat} (h : verdict.Reads attempt index)
    (hne : verdict ≠ .succeeded) : ¬ attempt.Confirms index := by
  cases verdict with
  | succeeded => exact absurd rfl hne
  | missing position => exact h
  | refused status origin => exact h.2

theorem Reads.resends {verdict : Verdict} {entry : PendingEntry}
    (h : verdict.Reads attempt entry.originalIndex) (hsound : attempt.Sound)
    (hcarried : entry.originalIndex ∈ attempt.indexes)
    (hretries : verdict.retries maxAttempts entry = true) :
    entry.retrySafe ∧ entry.attempts < maxAttempts ∧ attempt.Resends entry.originalIndex := by
  cases verdict with
  | succeeded => cases hretries
  | missing position => cases hretries
  | refused status origin =>
      obtain ⟨hsafe, hretryable, hattempts⟩ := of_decide_eq_true hretries
      refine ⟨hsafe, hattempts, hcarried, hsound, ?_⟩
      have hcode : status.code = .deadlineExceeded ∨ status.code = .unavailable := by
        unfold isMutateRetryable at hretryable
        split at hretryable
        · next hcode => exact Or.inl hcode
        · next hcode => exact Or.inr hcode
        · cases hretryable
      exact hcode.imp (fun hcode => h.1.trans (congrArg some hcode))
        fun hcode => h.1.trans (congrArg some hcode)

end Verdict

/-- Each entry is retried, failed or succeeded. -/
theorem perm_of_verdicts (verdict : Nat → Verdict) (items : List (PendingEntry × Nat)) :
    (((items.filter fun item => (verdict item.2).retries maxAttempts item.1).map
          fun item => item.1.originalIndex) ++
        ((items.filterMap fun item => (verdict item.2).failure? maxAttempts item.1).map
            MutationFailure.index ++
          (items.filter fun item => verdict item.2 = .succeeded).map
            fun item => item.1.originalIndex)).Perm
      (items.map fun item => item.1.originalIndex) := by
  induction items with
  | nil => exact List.Perm.refl _
  | cons item items ih =>
      cases hverdict : verdict item.2 with
      | succeeded =>
          simp only [List.filter_cons, List.filterMap_cons, hverdict, Verdict.retries,
            Verdict.failure?, decide_true, if_true, Bool.false_eq_true, if_false, List.map_cons]
          rw [← List.append_assoc]
          exact List.perm_middle.trans ((List.append_assoc _ _ _ ▸ ih).cons _)
      | missing position =>
          simp only [List.filter_cons, List.filterMap_cons, hverdict, Verdict.retries,
            Verdict.failure?, reduceCtorEq, decide_false, Bool.false_eq_true, if_false,
            List.map_cons, List.cons_append, invalidResponse]
          exact List.perm_middle.trans (ih.cons _)
      | refused status origin =>
          by_cases hretries : (Verdict.refused status origin).retries maxAttempts item.1 = true
          · simp only [List.filter_cons, List.filterMap_cons, hverdict, Verdict.failure?,
              hretries, if_true, reduceCtorEq, decide_false, Bool.false_eq_true, if_false,
              List.map_cons, List.cons_append]
            exact ih.cons _
          · simp only [List.filter_cons, List.filterMap_cons, hverdict, Verdict.failure?,
              hretries, reduceCtorEq, decide_false, Bool.false_eq_true, if_false, List.map_cons,
              List.cons_append]
            exact List.perm_middle.trans (ih.cons _)

/-- Settling by verdicts that agree with the record keeps the contract. -/
theorem settles_settleAll {verdict : Nat → Verdict} {code : Code}
    (hindexes : attempt.indexes = current.map PendingEntry.originalIndex)
    (hsound : attempt.Sound)
    (hreads : ∀ entry position, current[position]? = some entry →
      (verdict position).Reads attempt entry.originalIndex) :
    Settles maxAttempts attempt current
      (settleAll codec maxAttempts verdict current.zipIdx { code := code }) := by
  have hmap : (current.zipIdx.map fun item => item.1.originalIndex) =
      current.map PendingEntry.originalIndex := by
    conv_rhs => rw [← List.zipIdx_map_fst 0 current, List.map_map]
    rfl
  have hitem : ∀ item ∈ current.zipIdx, (verdict item.2).Reads attempt item.1.originalIndex :=
    fun item hitem => hreads item.1 item.2 (List.mem_zipIdx_iff_getElem?.1 hitem)
  have hmem : ∀ item ∈ current.zipIdx, item.1 ∈ current := fun item hitem =>
    List.mem_of_getElem? (List.mem_zipIdx_iff_getElem?.1 hitem)
  refine ⟨?_, ?_, ?_, ?_⟩
  · rw [retry_settleAll, List.nil_append]
    conv_rhs => rw [← List.zipIdx_map_fst 0 current]
    exact List.filter_sublist.map Prod.fst
  · refine ⟨(current.zipIdx.filter fun item => verdict item.2 = .succeeded).map
      fun item => item.1.originalIndex, ?_, ?_, ?_⟩
    · rw [List.length_map, successful_settleAll, List.countP_eq_length_filter, Nat.zero_add]
    · intro index hindex
      obtain ⟨item, hfilter, rfl⟩ := List.mem_map.1 hindex
      obtain ⟨hzip, hsucceeded⟩ := List.mem_filter.1 hfilter
      have hread := hitem item hzip
      rw [of_decide_eq_true hsucceeded] at hread
      exact hread
    · rw [retry_settleAll, failures_settleAll, List.nil_append, List.nil_append, List.map_map,
        ← hmap]
      exact perm_of_verdicts verdict current.zipIdx
  · intro entry hentry
    rw [retry_settleAll, List.nil_append] at hentry
    obtain ⟨item, hfilter, rfl⟩ := List.mem_map.1 hentry
    obtain ⟨hzip, hretries⟩ := List.mem_filter.1 hfilter
    refine (hitem item hzip).resends hsound ?_ hretries
    rw [hindexes]
    exact List.mem_map_of_mem (hmem item hzip)
  · intro failure hfailure
    rw [failures_settleAll, List.nil_append] at hfailure
    obtain ⟨item, hzip, hitemFailure⟩ := List.mem_filterMap.1 hfailure
    obtain ⟨hindex, hattempts, hne⟩ := Verdict.index_of_failure? hitemFailure
    exact ⟨item.1, hmem item hzip, hindex, hattempts,
      hindex ▸ (hitem item hzip).not_confirms hne⟩

/-! ## The ways to end -/

def BatchPhase.Records (codec : Codec) : BatchPhase → Prop
  | .calling current _ _ attempt =>
      attempt.indexes = current.map PendingEntry.originalIndex ∧ attempt.messages = []
  | .streaming current _ _ attempt progress =>
      attempt.indexes = current.map PendingEntry.originalIndex ∧
        WellIndexed current.length attempt.results ∧
        progress = recorded codec current.length attempt.results
  | .panicked .unreachable => False
  | _ => True

theorem recordResponse_recorded {entryCount : Nat} {messages : List MutateRowsResponse}
    {response : MutateRowsResponse} {progress : StreamProgress}
    (h : WellIndexed entryCount (streamResults messages)) :
    recordResponse codec entryCount (recorded codec entryCount (streamResults messages)) response =
        .ok progress ↔
      WellIndexed entryCount (streamResults (messages ++ [response])) ∧
        progress = recorded codec entryCount (streamResults (messages ++ [response])) := by
  have happend : streamResults (messages ++ [response]) =
      streamResults messages ++ response.entries := by
    simp [streamResults]
  have hbefore := foldlM_recordResult.2 ⟨h, (rfl : recorded codec entryCount _ = _)⟩
  rw [happend, ← foldlM_recordResult, List.foldlM_append, hbefore]
  rfl

theorem not_wellIndexed_of_recordResponse_error {entryCount : Nat}
    {messages : List MutateRowsResponse} {response : MutateRowsResponse}
    {issue : MutateRowsResponseIssue} (h : WellIndexed entryCount (streamResults messages))
    (herror : recordResponse codec entryCount
      (recorded codec entryCount (streamResults messages)) response = .error issue) :
    ¬ WellIndexed entryCount (streamResults (messages ++ [response])) := by
  intro hwell
  have hok := (recordResponse_recorded h).2 ⟨hwell, (rfl : recorded codec entryCount _ = _)⟩
  rw [herror] at hok
  cases hok

theorem settles_refused {status : Status}
    (hindexes : attempt.indexes = current.map PendingEntry.originalIndex)
    (hmessages : attempt.messages = []) :
    Settles maxAttempts { attempt with ending := some (.refused status) } current
      (rpcFailure codec maxAttempts current status) := by
  have hresults : ({ attempt with ending := some (.refused status) } : WriteAttempt).results =
      [] := by
    simp [WriteAttempt.results, streamResults, hmessages]
  rw [rpcFailure_eq_settleAll]
  refine settles_settleAll hindexes ?_ ?_
  · rw [WriteAttempt.Sound, hresults]
    exact WellIndexed.nil
  · intro entry position _
    have hresult : ({ attempt with ending := some (.refused status) } : WriteAttempt).resultOf
        entry.originalIndex = none := by
      rw [WriteAttempt.resultOf, hresults]
      rfl
    constructor
    · rw [WriteAttempt.codeOf, hresult]
      rfl
    · rintro ⟨-, -, result, hsome, -⟩
      rw [hresult] at hsome
      cases hsome

theorem idxOf_originalIndex (hnodup : (current.map PendingEntry.originalIndex).Nodup)
    {position : Nat} {entry : PendingEntry} (h : current[position]? = some entry) :
    (current.map PendingEntry.originalIndex).idxOf entry.originalIndex = position := by
  obtain ⟨hlt, rfl⟩ := List.getElem?_eq_some_iff.1 h
  have hget := hnodup.idxOf_getElem position (by simpa using hlt)
  rwa [List.getElem_map] at hget

/-- The verdict by lookup agrees with the record of an attempt whose stream closed. -/
theorem reads_verdictAt {streamEnd : StreamEnd}
    (hindexes : attempt.indexes = current.map PendingEntry.originalIndex)
    (hnodup : (current.map PendingEntry.originalIndex).Nodup)
    (hending : attempt.ending = some (.closed streamEnd)) (hsound : attempt.Sound)
    {position : Nat} {entry : PendingEntry} (h : current[position]? = some entry) :
    (verdictAt codec attempt.results streamEnd.failure position).Reads attempt
      entry.originalIndex := by
  have hresult : attempt.resultOf entry.originalIndex = resultAt attempt.results position := by
    rw [WriteAttempt.resultOf, hindexes, idxOf_originalIndex hnodup h]
  cases hfind : resultAt attempt.results position with
  | some result =>
      rw [hfind] at hresult
      rw [verdictAt_of_some hfind]
      cases herror : entryError codec result with
      | none =>
          refine ⟨?_, hsound, result, hresult, WriteAttempt.resultCode_eq_zero_iff.2 herror⟩
          rw [hindexes]
          exact List.mem_map_of_mem (List.mem_of_getElem? h)
      | some status =>
          constructor
          · rw [WriteAttempt.codeOf, hresult]
            exact congrArg some (WriteAttempt.fromI32_resultCode herror)
          · rintro ⟨-, -, other, hother, hzero⟩
            obtain rfl := Option.some.inj (hresult.symm.trans hother)
            rw [WriteAttempt.resultCode_eq_zero_iff.1 hzero] at herror
            cases herror
  | none =>
      rw [hfind] at hresult
      have hnot : ¬ attempt.Confirms entry.originalIndex := by
        rintro ⟨-, -, result, hsome, -⟩
        rw [hresult] at hsome
        cases hsome
      cases hfailure : streamEnd.failure with
      | none =>
          simp only [verdictAt, hfind]
          exact hnot
      | some status =>
          simp only [verdictAt, hfind]
          refine ⟨?_, hnot⟩
          rw [WriteAttempt.codeOf, hresult, hending]
          simp [AttemptEnd.status, hfailure]

theorem settles_closed {streamEnd : StreamEnd}
    (hindexes : attempt.indexes = current.map PendingEntry.originalIndex)
    (hnodup : (current.map PendingEntry.originalIndex).Nodup)
    (hending : attempt.ending = some (.closed streamEnd))
    (hwell : WellIndexed current.length attempt.results) :
    Settles maxAttempts attempt current
      (lookupOutcome codec maxAttempts current attempt.results streamEnd.failure) := by
  have hsound : attempt.Sound := by
    rw [WriteAttempt.Sound, hindexes, List.length_map]
    exact hwell
  exact settles_settleAll hindexes hsound fun entry position h =>
    reads_verdictAt hindexes hnodup hending hsound h

theorem settles_malformed {issue : MutateRowsResponseIssue}
    (hindexes : attempt.indexes = current.map PendingEntry.originalIndex)
    (hwell : ¬ WellIndexed current.length attempt.results) :
    Settles maxAttempts { attempt with ending := some (.malformed issue) } current
      (invalidResponseOutcome current issue) where
  retry_sublist := List.nil_sublist _
  accounted := by
    refine ⟨[], rfl, by simp, ?_⟩
    simp [invalidResponseOutcome, invalidResponse, Function.comp_def]
  retried := by simp [invalidResponseOutcome]
  failed failure hfailure := by
    obtain ⟨entry, hentry, rfl⟩ := List.mem_map.1 hfailure
    refine ⟨entry, hentry, rfl, rfl, ?_⟩
    rintro ⟨-, hsound, -⟩
    apply hwell
    rw [WriteAttempt.Sound, hindexes, List.length_map] at hsound
    exact hsound

/-- However the attempt that is under way ends, its outcome agrees with its record. -/
theorem settles_of_ends {run : BatchRun} {ending : AttemptEnd}
    (hends : run.Ends codec current attempt ending outcome)
    (hrecords : run.phase.Records codec)
    (hnodup : (current.map PendingEntry.originalIndex).Nodup) :
    attempt.indexes = current.map PendingEntry.originalIndex ∧
      Settles run.operation.maxAttempts { attempt with ending := some ending } current outcome := by
  cases hends with
  | refused status hphase =>
      rw [hphase] at hrecords
      obtain ⟨hindexes, hmessages⟩ := hrecords
      exact ⟨hindexes, settles_refused hindexes hmessages⟩
  | malformed hphase hresponse =>
      rw [hphase] at hrecords
      obtain ⟨hindexes, hwell, rfl⟩ := hrecords
      exact ⟨hindexes, settles_malformed hindexes
        (not_wellIndexed_of_recordResponse_error hwell hresponse)⟩
  | closed streamEnd hphase houtcome =>
      rw [hphase] at hrecords
      obtain ⟨hindexes, hwell, rfl⟩ := hrecords
      rw [streamOutcome_recorded hwell] at houtcome
      obtain rfl := Option.some.inj houtcome
      refine ⟨hindexes, settles_closed ?_ hnodup rfl ?_⟩
      · exact hindexes
      · exact hwell

end BigtableClient
