import BigtableClient.Proofs.Settled

/-!
# The summary of an attempt

The code, the retry list and the retry delay of an outcome, from the record of the
attempt.  A missing result overrides every code, and otherwise the first code that
is not OK stays.
-/

namespace BigtableClient

variable {codec : Codec} {maxAttempts : Nat} {current : List PendingEntry}
  {attempt : WriteAttempt} {outcome : AttemptOutcome}

/-! ## Codes -/

def joinCode (code : Code) : Option Code → Code
  | none => .unknown
  | some found => if code = .ok then found else code

theorem foldl_joinCode_of_ne_ok {codes : List (Option Code)} {code : Code} (h : code ≠ .ok) :
    codes.foldl joinCode code = if none ∈ codes then .unknown else code := by
  induction codes generalizing code with
  | nil => simp
  | cons found codes ih =>
      cases found with
      | none =>
          have hunknown : Code.unknown ≠ .ok := nofun
          rw [List.foldl_cons, joinCode, ih hunknown]
          simp
      | some found =>
          rw [List.foldl_cons, joinCode, if_neg h, ih h]
          simp

theorem foldl_joinCode (codes : List (Option Code)) :
    codes.foldl joinCode .ok =
      if none ∈ codes then .unknown
      else ((codes.filterMap id).find? fun code => code ≠ .ok).getD .ok := by
  induction codes with
  | nil => simp
  | cons found codes ih =>
      cases found with
      | none =>
          have hunknown : Code.unknown ≠ .ok := nofun
          rw [List.foldl_cons, joinCode, foldl_joinCode_of_ne_ok hunknown]
          simp
      | some found =>
          rw [List.foldl_cons, joinCode, if_pos rfl]
          by_cases hok : found = .ok
          · subst hok
            rw [ih]
            simp
          · rw [foldl_joinCode_of_ne_ok hok]
            simp [hok]

namespace Verdict

def code? : Verdict → Option Code
  | .succeeded => some .ok
  | .refused status _ => some status.code
  | .missing _ => none

def status? : Verdict → Option Status
  | .refused status _ => some status
  | _ => none

theorem code_settle (verdict : Verdict) (entry : PendingEntry) :
    (verdict.settle codec maxAttempts entry outcome).code =
      joinCode outcome.code verdict.code? := by
  cases verdict with
  | succeeded =>
      show outcome.code = if outcome.code = .ok then .ok else outcome.code
      split_ifs with hok
      · exact hok
      · rfl
  | missing position => rfl
  | refused status origin =>
      simp only [settle, classifyStatus, code?, joinCode]
      split_ifs <;> rfl

theorem retryDelay_settle (verdict : Verdict) (entry : PendingEntry) :
    (verdict.settle codec maxAttempts entry outcome).retryDelay =
      if verdict.retries maxAttempts entry then
        max outcome.retryDelay ((verdict.status?.bind (retryDelay codec)).getD 0)
      else outcome.retryDelay := by
  cases verdict with
  | succeeded => simp [settle, retries]
  | missing position => simp [settle, retries]
  | refused status origin =>
      by_cases h : entry.retrySafe ∧ isMutateRetryable status ∧ entry.attempts < maxAttempts
      · simp [settle, classifyStatus, retries, status?, h]
      · simp only [settle, classifyStatus, retries, if_neg h, decide_eq_false h]
        simp

theorem retries_iff {verdict : Verdict} {entry : PendingEntry} :
    verdict.retries maxAttempts entry ↔ entry.retrySafe ∧ entry.attempts < maxAttempts ∧
      (verdict.code? = some .deadlineExceeded ∨ verdict.code? = some .unavailable) := by
  cases verdict with
  | succeeded => simp [retries, code?]
  | missing position => simp [retries, code?]
  | refused status origin =>
      have hretryable : isMutateRetryable status ↔
          status.code = .deadlineExceeded ∨ status.code = .unavailable := by
        unfold isMutateRetryable
        split
        · next hcode => simp [hcode]
        · next hcode => simp [hcode]
        · next hdeadline hunavailable =>
          constructor
          · intro h
            cases h
          · rintro (hcode | hcode)
            · exact absurd hcode hdeadline
            · exact absurd hcode hunavailable
      simp only [retries, code?, decide_eq_true_eq, Option.some.injEq, hretryable]
      tauto

end Verdict

section SettleAll

variable {verdict : Nat → Verdict} (items : List (PendingEntry × Nat))

theorem code_settleAll :
    (settleAll codec maxAttempts verdict items outcome).code =
      (items.map fun item => (verdict item.2).code?).foldl joinCode outcome.code := by
  induction items generalizing outcome with
  | nil => rfl
  | cons item items ih =>
      rw [settleAll, List.foldl_cons, ← settleAll, ih, Verdict.code_settle, List.map_cons,
        List.foldl_cons]

theorem retryDelay_settleAll :
    (settleAll codec maxAttempts verdict items outcome).retryDelay =
      ((items.filter fun item => (verdict item.2).retries maxAttempts item.1).map fun item =>
        ((verdict item.2).status?.bind (retryDelay codec)).getD 0).foldl max
          outcome.retryDelay := by
  induction items generalizing outcome with
  | nil => rfl
  | cons item items ih =>
      rw [settleAll, List.foldl_cons, ← settleAll, ih, Verdict.retryDelay_settle,
        List.filter_cons]
      split_ifs <;> rfl

end SettleAll

/-! ## The summary -/

structure Verdict.Tells (codec : Codec) (attempt : WriteAttempt) (index : Nat)
    (verdict : Verdict) : Prop where
  code : verdict.code? = attempt.codeOf index
  status : verdict.status? = attempt.statusOf codec index

def MutationFailure.isDeadline (failure : MutationFailure) : Bool :=
  match failure.cause with
  | .deadlineExceeded _ => true
  | _ => false

theorem Verdict.isDeadline_of_failure? {verdict : Verdict} {entry : PendingEntry}
    {failure : MutationFailure} (h : verdict.failure? maxAttempts entry = some failure) :
    failure.isDeadline = false := by
  cases verdict with
  | succeeded => cases h
  | missing position =>
      obtain rfl := Option.some.inj h
      rfl
  | refused status origin =>
      simp only [failure?] at h
      split_ifs at h
      obtain rfl := Option.some.inj h
      cases origin <;> rfl

/-- What an outcome sums up, from the record of the attempt. -/
structure Summarises (codec : Codec) (maxAttempts : Nat) (attempt : WriteAttempt)
    (current : List PendingEntry) (outcome : AttemptOutcome) : Prop where
  code : outcome.code = attempt.reportedCode
  retry : outcome.retry = current.filter fun entry =>
    entry.retrySafe ∧ entry.attempts < maxAttempts ∧ attempt.asksAgain entry.originalIndex
  retryDelay : outcome.retryDelay =
    (outcome.retry.map fun entry => attempt.askedDelay codec entry.originalIndex).foldl max 0
  causes : ∀ failure ∈ outcome.failures, failure.isDeadline = false

theorem reportedCode_eq (hsound : attempt.Sound) :
    attempt.reportedCode = (attempt.indexes.map attempt.codeOf).foldl joinCode .ok := by
  have hcomplete : attempt.Complete ↔ none ∉ attempt.indexes.map attempt.codeOf := by
    simp only [WriteAttempt.Complete, List.mem_map, not_exists, not_and, Option.isSome_iff_ne_none]
  rw [foldl_joinCode, WriteAttempt.reportedCode, WriteAttempt.firstFailure, List.filterMap_map]
  by_cases h : attempt.Complete
  · rw [if_pos ⟨hsound, h⟩, if_neg (hcomplete.1 h), Function.id_comp]
  · rw [if_neg (fun hboth => h hboth.2), if_pos (not_not.1 (fun hnot => h (hcomplete.2 hnot)))]

/-- Settling by verdicts that the record of the attempt tells. -/
theorem summarises_settleAll {verdict : Nat → Verdict} {code : Code}
    (hindexes : attempt.indexes = current.map PendingEntry.originalIndex)
    (hsound : attempt.Sound)
    (hcode : attempt.reportedCode = (attempt.indexes.map attempt.codeOf).foldl joinCode code)
    (htells : ∀ entry position, current[position]? = some entry →
      (verdict position).Tells codec attempt entry.originalIndex) :
    Summarises codec maxAttempts attempt current
      (settleAll codec maxAttempts verdict current.zipIdx { code := code }) := by
  have hitem : ∀ item ∈ current.zipIdx,
      (verdict item.2).Tells codec attempt item.1.originalIndex :=
    fun item hitem => htells item.1 item.2 (List.mem_zipIdx_iff_getElem?.1 hitem)
  have hretries : ∀ item ∈ current.zipIdx,
      (verdict item.2).retries maxAttempts item.1 =
        decide (item.1.retrySafe ∧ item.1.attempts < maxAttempts ∧
          attempt.asksAgain item.1.originalIndex) := by
    intro item hmem
    rw [Bool.eq_iff_iff, Verdict.retries_iff, (hitem item hmem).code, decide_eq_true_eq,
      WriteAttempt.asksAgain, decide_eq_true_eq]
    simp only [hsound, true_and]
  have hfilter : (current.zipIdx.filter fun item => (verdict item.2).retries maxAttempts item.1) =
      current.zipIdx.filter fun item => decide (item.1.retrySafe ∧ item.1.attempts < maxAttempts ∧
        attempt.asksAgain item.1.originalIndex) :=
    List.filter_congr hretries
  have hretry : (settleAll codec maxAttempts verdict current.zipIdx { code := code }).retry =
      current.filter fun entry => entry.retrySafe ∧ entry.attempts < maxAttempts ∧
        attempt.asksAgain entry.originalIndex := by
    rw [retry_settleAll, List.nil_append, hfilter]
    conv_rhs => rw [← List.zipIdx_map_fst 0 current, List.filter_map]
    rfl
  refine ⟨?_, hretry, ?_, ?_⟩
  · have hcodes : (current.zipIdx.map fun item => (verdict item.2).code?) =
        attempt.indexes.map attempt.codeOf := by
      rw [hindexes, List.map_map]
      conv_rhs => rw [← List.zipIdx_map_fst 0 current, List.map_map]
      exact List.map_congr_left fun item hmem => (hitem item hmem).code
    rw [code_settleAll, hcode, hcodes]
  · rw [retryDelay_settleAll, retry_settleAll, List.nil_append, List.map_map]
    refine congrArg (List.foldl max 0) (List.map_congr_left fun item hmem => ?_)
    rw [(hitem item (List.mem_of_mem_filter hmem)).status]
    rfl
  · intro failure hfailure
    rw [failures_settleAll, List.nil_append] at hfailure
    obtain ⟨item, -, hfound⟩ := List.mem_filterMap.1 hfailure
    exact Verdict.isDeadline_of_failure? hfound

/-! ## The ways to end -/

/-- The verdict by lookup tells what is on record of an attempt whose stream closed. -/
theorem tells_verdictAt {streamEnd : StreamEnd}
    (hindexes : attempt.indexes = current.map PendingEntry.originalIndex)
    (hnodup : (current.map PendingEntry.originalIndex).Nodup)
    (hending : attempt.ending = some (.closed streamEnd)) {position : Nat} {entry : PendingEntry}
    (h : current[position]? = some entry) :
    (verdictAt codec attempt.results streamEnd.failure position).Tells codec attempt
      entry.originalIndex := by
  have hresult : attempt.resultOf entry.originalIndex = resultAt attempt.results position := by
    rw [WriteAttempt.resultOf, hindexes, idxOf_originalIndex hnodup h]
  cases hfind : resultAt attempt.results position with
  | some result =>
      rw [hfind] at hresult
      rw [verdictAt_of_some hfind]
      cases herror : entryError codec result with
      | none =>
          have hzero := WriteAttempt.resultCode_eq_zero_iff.2 herror
          constructor
          · rw [WriteAttempt.codeOf, hresult]
            simp [Verdict.code?, hzero, Code.fromI32]
          · rw [WriteAttempt.statusOf, hresult]
            exact herror.symm
      | some status =>
          constructor
          · rw [WriteAttempt.codeOf, hresult]
            exact congrArg some (WriteAttempt.fromI32_resultCode herror).symm
          · rw [WriteAttempt.statusOf, hresult]
            exact herror.symm
  | none =>
      rw [hfind] at hresult
      cases hfailure : streamEnd.failure with
      | none =>
          simp only [verdictAt, hfind]
          constructor
          · simp [WriteAttempt.codeOf, hresult, hending, AttemptEnd.status, hfailure, Verdict.code?]
          · simp [WriteAttempt.statusOf, hresult, hending, AttemptEnd.status, hfailure,
              Verdict.status?]
      | some status =>
          simp only [verdictAt, hfind]
          constructor
          · simp [WriteAttempt.codeOf, hresult, hending, AttemptEnd.status, hfailure, Verdict.code?]
          · simp [WriteAttempt.statusOf, hresult, hending, AttemptEnd.status, hfailure,
              Verdict.status?]

theorem summarises_closed {streamEnd : StreamEnd}
    (hindexes : attempt.indexes = current.map PendingEntry.originalIndex)
    (hnodup : (current.map PendingEntry.originalIndex).Nodup)
    (hending : attempt.ending = some (.closed streamEnd))
    (hwell : WellIndexed current.length attempt.results) :
    Summarises codec maxAttempts attempt current
      (lookupOutcome codec maxAttempts current attempt.results streamEnd.failure) := by
  have hsound : attempt.Sound := by
    rw [WriteAttempt.Sound, hindexes, List.length_map]
    exact hwell
  exact summarises_settleAll hindexes hsound (reportedCode_eq hsound)
    fun entry position h => tells_verdictAt hindexes hnodup hending h

theorem summarises_refused {status : Status} (hne : current ≠ [])
    (hindexes : attempt.indexes = current.map PendingEntry.originalIndex)
    (hmessages : attempt.messages = []) (hending : attempt.ending = some (.refused status)) :
    Summarises codec maxAttempts attempt current
      (rpcFailure codec maxAttempts current status) := by
  have hresults : attempt.results = [] := by
    simp [WriteAttempt.results, streamResults, hmessages]
  have hsound : attempt.Sound := by
    rw [WriteAttempt.Sound, hresults]
    exact WellIndexed.nil
  have hresult : ∀ index, attempt.resultOf index = none := by
    intro index
    rw [WriteAttempt.resultOf, hresults]
    rfl
  have hcode : ∀ index, attempt.codeOf index = some status.code := by
    intro index
    simp [WriteAttempt.codeOf, hresult, hending, AttemptEnd.status]
  rw [rpcFailure_eq_settleAll]
  refine summarises_settleAll hindexes hsound ?_ fun entry position _ => ⟨(hcode _).symm, ?_⟩
  · -- The code is that of the status from the start, and every entry brings it again.
    rw [reportedCode_eq hsound, hindexes, List.map_map]
    cases current with
    | nil => exact absurd rfl hne
    | cons entry current =>
        simp only [List.map_cons, List.foldl_cons, Function.comp_apply, hcode, joinCode, if_true]
        split_ifs <;> rfl
  · simp [WriteAttempt.statusOf, hresult, hending, AttemptEnd.status, Verdict.status?]

theorem summarises_malformed {issue : MutateRowsResponseIssue}
    (hindexes : attempt.indexes = current.map PendingEntry.originalIndex)
    (hwell : ¬ WellIndexed current.length attempt.results) :
    Summarises codec maxAttempts attempt current (invalidResponseOutcome current issue) := by
  have hunsound : ¬ attempt.Sound := by
    rw [WriteAttempt.Sound, hindexes, List.length_map]
    exact hwell
  refine ⟨?_, ?_, rfl, ?_⟩
  · rw [WriteAttempt.reportedCode, if_neg fun hboth => hunsound hboth.1]
    rfl
  · have hnone : ∀ entry ∈ current, ¬ (entry.retrySafe ∧ entry.attempts < maxAttempts ∧
        attempt.asksAgain entry.originalIndex) := by
      rintro entry - ⟨-, -, hasks⟩
      exact hunsound (of_decide_eq_true hasks).1
    rw [List.filter_eq_nil_iff.2 fun entry hentry => by simpa using hnone entry hentry]
    rfl
  · intro failure hfailure
    obtain ⟨entry, -, rfl⟩ := List.mem_map.1 hfailure
    rfl

/-- However the attempt that is under way ends, its outcome sums up its record. -/
theorem summarises_of_ends {run : BatchRun} {ending : AttemptEnd} (hne : current ≠ [])
    (hends : run.Ends codec current attempt ending outcome)
    (hrecords : run.phase.Records codec)
    (hnodup : (current.map PendingEntry.originalIndex).Nodup) :
    Summarises codec run.operation.maxAttempts { attempt with ending := some ending } current
      outcome := by
  cases hends with
  | refused status hphase =>
      rw [hphase] at hrecords
      obtain ⟨hindexes, hmessages⟩ := hrecords
      refine summarises_refused hne ?_ ?_ rfl
      · exact hindexes
      · exact hmessages
  | malformed hphase hresponse =>
      rw [hphase] at hrecords
      obtain ⟨hindexes, hwell, rfl⟩ := hrecords
      refine summarises_malformed ?_ ?_
      · exact hindexes
      · exact not_wellIndexed_of_recordResponse_error hwell hresponse
  | closed streamEnd hphase houtcome =>
      rw [hphase] at hrecords
      obtain ⟨hindexes, hwell, rfl⟩ := hrecords
      rw [streamOutcome_recorded hwell] at houtcome
      obtain rfl := Option.some.inj houtcome
      refine summarises_closed ?_ hnodup rfl ?_
      · exact hindexes
      · exact hwell

end BigtableClient
