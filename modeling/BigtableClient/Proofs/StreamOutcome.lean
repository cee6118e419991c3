import BigtableClient.Proofs.Classify

/-!
# The outcome of a stream

`consume_stream` settles every entry by the result for its position, in whatever
order and grouping the results arrived.  Its shortcut for full success agrees with
the walk, and the walk never meets the branch it calls unreachable.
-/

namespace BigtableClient

open Proto (MutateRowsResult MutateRowsResponse)
open ProofSupport.Binary64 (F64)

variable {codec : Codec} {maxAttempts : Nat} {current : List PendingEntry}
  {results : List MutateRowsResult} {streamFailure : Option Status}

/-! ## The walk -/

theorem verdictAt_of_some {position : Nat} {result : MutateRowsResult}
    (h : resultAt results position = some result) :
    verdictAt codec results streamFailure position =
      match entryError codec result with
      | none => .succeeded
      | some status => .refused status .entry := by
  simp only [verdictAt, h, entryError]
  cases statusResult codec result.status <;> rfl

/-- The walk over the entries from position `k` on, with the failures from there on beside it. -/
theorem classifyEntries_eq {seen : List Bool} {k : Nat} {entryFailures : List (Nat × Status)}
    (outcome : AttemptOutcome) (h : FailuresFrom codec results k entryFailures)
    (hrange : ∀ position result, resultAt results position = some result →
      position < k + current.length)
    (hseen : ∀ position < k + current.length,
      seen.getD position false = (resultAt results position).isSome) :
    classifyEntries codec maxAttempts seen streamFailure k current entryFailures outcome =
      some (settleAll codec maxAttempts (verdictAt codec results streamFailure)
        (current.zipIdx k) outcome, []) := by
  induction current generalizing k entryFailures outcome with
  | nil =>
      rw [h.eq_nil (by simpa using hrange)]
      rfl
  | cons entry current ih =>
      have hlength : k + (entry :: current).length = k + 1 + current.length := by
        simp only [List.length_cons]
        omega
      rw [hlength] at hrange hseen
      rw [List.zipIdx_cons, settleAll, List.foldl_cons, ← settleAll, classifyEntries.eq_def]
      dsimp only
      rw [hseen k (by omega)]
      cases hresult : resultAt results k with
      | none =>
          have hnone : (resultAt results k).bind (entryError codec) = none := by
            rw [hresult, Option.bind_none]
          rw [Option.isSome_none, if_neg Bool.false_ne_true]
          simp only [verdictAt, hresult]
          cases streamFailure with
          | none => exact ih _ (h.skip hnone) hrange hseen
          | some status => exact ih _ (h.skip hnone) hrange hseen
      | some result =>
          rw [Option.isSome_some, if_pos rfl, verdictAt_of_some hresult]
          cases herror : entryError codec result with
          | none =>
              have hnone : (resultAt results k).bind (entryError codec) = none := by
                rw [hresult, Option.bind_some, herror]
              rw [h.head?_any_eq_false hnone, if_neg Bool.false_ne_true]
              exact ih _ (h.skip hnone) hrange hseen
          | some status =>
              obtain ⟨rest, rfl, hrest⟩ := h.head (by rw [hresult, Option.bind_some, herror])
              rw [List.head?_cons, Option.any_some, decide_eq_true rfl, if_pos rfl]
              exact ih _ hrest hrange hseen

theorem classifyEntries_recorded (h : WellIndexed current.length results)
    (streamFailure : Option Status) :
    classifyEntries codec maxAttempts (recorded codec current.length results).seen streamFailure 0
        current ((recorded codec current.length results).entryFailures.mergeSort
          fun failure other => failure.1 ≤ other.1) {} =
      some (lookupOutcome codec maxAttempts current results streamFailure, []) := by
  refine classifyEntries_eq {} (failuresFrom_mergeSort h) ?_ ?_
  · intro position result hresult
    have hlt := h.lt_of_resultAt hresult
    omega
  · intro position hposition
    exact getD_seen_recorded codec results (by omega)

/-! ## The shortcut -/

theorem settleAll_of_succeeded {verdict : Nat → Verdict} (items : List (PendingEntry × Nat))
    (outcome : AttemptOutcome) (h : ∀ item ∈ items, verdict item.2 = .succeeded) :
    settleAll codec maxAttempts verdict items outcome =
      { outcome with successful := outcome.successful + items.length } := by
  induction items generalizing outcome with
  | nil => rfl
  | cons item items ih =>
      rw [settleAll, List.foldl_cons, ← settleAll, h item (by simp),
        ih _ fun item hitem => h item (List.mem_cons_of_mem _ hitem)]
      simp only [Verdict.settle, List.length_cons, Nat.add_assoc, Nat.add_comm 1]

/-- As many results as entries and no failure among them: every entry succeeded. -/
theorem lookupOutcome_of_all_seen (h : WellIndexed current.length results)
    (hcount : (recorded codec current.length results).seenCount = current.length)
    (hfailures : (recorded codec current.length results).entryFailures = []) :
    lookupOutcome codec maxAttempts current results streamFailure =
      { successful := current.length } := by
  rw [lookupOutcome, settleAll_of_succeeded]
  · simp
  · rintro ⟨entry, position⟩ hitem
    have hposition := List.snd_lt_of_mem_zipIdx hitem
    obtain ⟨result, hresult⟩ := h.resultAt_isSome hcount (by simpa using hposition)
    have hnone : entryError codec result = none := by
      cases herror : entryError codec result with
      | none => rfl
      | some status =>
          have hmem := (mem_entryFailures_recorded h position status).2
            (by rw [hresult, Option.bind_some, herror])
          rw [hfailures] at hmem
          cases hmem
    rw [verdictAt_of_some hresult, hnone]

/-! ## The stream -/

theorem streamOutcome_recorded (h : WellIndexed current.length results) :
    streamOutcome codec maxAttempts current (recorded codec current.length results)
        streamFailure =
      some (lookupOutcome codec maxAttempts current results streamFailure) := by
  unfold streamOutcome
  split_ifs with hall
  · rw [lookupOutcome_of_all_seen h hall.1 hall.2]
  · simp only [classifyEntries_recorded h]

variable {messages : List MutateRowsResponse} {streamEnd : StreamEnd}

theorem consumeStream_of_wellIndexed
    (h : WellIndexed current.length (streamResults messages)) :
    consumeStream codec maxAttempts current messages streamEnd =
      some (lookupOutcome codec maxAttempts current (streamResults messages)
        streamEnd.failure) := by
  have hfold := foldlM_recordResult.2 ⟨h, (rfl : recorded codec _ _ = _)⟩
  rw [consumeStream, foldlM_recordResponse, hfold]
  exact streamOutcome_recorded h

theorem consumeStream_of_not_wellIndexed
    (h : ¬ WellIndexed current.length (streamResults messages)) :
    ∃ before result after issue, streamResults messages = before ++ result :: after ∧
      WellIndexed current.length before ∧
      MutateRowsResponseIssue.Names current.length before result issue ∧
      consumeStream codec maxAttempts current messages streamEnd =
        some (invalidResponseOutcome current issue) := by
  rw [consumeStream, foldlM_recordResponse]
  cases hfold : (streamResults messages).foldlM (recordResult codec current.length)
      (.new current.length) with
  | error issue =>
      obtain ⟨before, result, after, hresults, hbefore, hnames⟩ := foldlM_recordResult_error hfold
      exact ⟨before, result, after, issue, hresults, hbefore, hnames, rfl⟩
  | ok progress => exact absurd (foldlM_recordResult.1 hfold).1 h

theorem lookupOutcome_perm {results' : List MutateRowsResult}
    (h : WellIndexed current.length results) (hperm : results'.Perm results) :
    lookupOutcome codec maxAttempts current results' streamFailure =
      lookupOutcome codec maxAttempts current results streamFailure := by
  have hverdict : verdictAt codec results' streamFailure = verdictAt codec results streamFailure :=
    funext fun position => by simp only [verdictAt, h.resultAt_perm hperm]
  rw [lookupOutcome, hverdict, lookupOutcome]

theorem Verdict.blames_of_failure? {position : Nat} {entry : PendingEntry}
    {failure : MutationFailure}
    (h : (verdictAt codec results streamFailure position).failure? maxAttempts entry =
      some failure) :
    failure.Blames codec results streamFailure position entry := by
  cases hresult : resultAt results position with
  | some result =>
      rw [verdictAt_of_some hresult] at h
      cases herror : entryError codec result with
      | none =>
          rw [herror] at h
          cases h
      | some status =>
          simp only [herror, Verdict.failure?] at h
          split_ifs at h
          obtain rfl := Option.some.inj h
          exact ⟨rfl, rfl, Or.inl ⟨status, by rw [hresult, Option.bind_some, herror], rfl⟩⟩
  | none =>
      cases streamFailure with
      | none =>
          simp only [verdictAt, hresult, Verdict.failure?] at h
          obtain rfl := Option.some.inj h
          exact ⟨rfl, rfl, Or.inr ⟨hresult, Or.inr ⟨rfl, rfl⟩⟩⟩
      | some status =>
          simp only [verdictAt, hresult, Verdict.failure?] at h
          split_ifs at h
          obtain rfl := Option.some.inj h
          exact ⟨rfl, rfl, Or.inr ⟨hresult, Or.inl ⟨status, rfl, rfl⟩⟩⟩

theorem blames_of_mem_lookupOutcome {failure : MutationFailure}
    (h : failure ∈ (lookupOutcome codec maxAttempts current results streamFailure).failures) :
    ∃ position entry, current[position]? = some entry ∧
      failure.Blames codec results streamFailure position entry := by
  rw [lookupOutcome, failures_settleAll, List.nil_append] at h
  obtain ⟨⟨entry, position⟩, hitem, hfailure⟩ := List.mem_filterMap.1 h
  exact ⟨position, entry, List.mk_mem_zipIdx_iff_getElem?.1 hitem,
    Verdict.blames_of_failure? hfailure⟩

/-! ## The whole attempt -/

/-- One attempt is classified by looking up each entry's own result: the walk and its shortcut,
every order of the results and every grouping into messages give that outcome, and each failure is
that of the row sent at its position.  A stream with an ill-formed index fails every entry with
the issue of the first such result. -/
theorem consumeStream_by_lookup (codec : Codec) (maxAttempts : Nat) (current : List PendingEntry)
    (messages : List MutateRowsResponse) (streamEnd : StreamEnd) :
    let results := streamResults messages
    let outcome := lookupOutcome codec maxAttempts current results streamEnd.failure
    (WellIndexed current.length results →
      consumeStream codec maxAttempts current messages streamEnd = some outcome ∧
        (∃ progress,
          messages.foldlM (recordResponse codec current.length) (.new current.length) =
              .ok progress ∧
            classifyEntries codec maxAttempts progress.seen streamEnd.failure 0 current
                (progress.entryFailures.mergeSort fun failure other => failure.1 ≤ other.1) {} =
              some (outcome, [])) ∧
        (∀ messages', (streamResults messages').Perm results →
          consumeStream codec maxAttempts current messages' streamEnd = some outcome) ∧
        ∀ failure ∈ outcome.failures, ∃ position entry, current[position]? = some entry ∧
          failure.Blames codec results streamEnd.failure position entry) ∧
      (¬ WellIndexed current.length results →
        ∃ before result after issue, results = before ++ result :: after ∧
          WellIndexed current.length before ∧
          MutateRowsResponseIssue.Names current.length before result issue ∧
          consumeStream codec maxAttempts current messages streamEnd =
            some (invalidResponseOutcome current issue)) := by
  intro results outcome
  refine ⟨fun h => ⟨consumeStream_of_wellIndexed h, ?_, ?_, ?_⟩,
    consumeStream_of_not_wellIndexed⟩
  · refine ⟨recorded codec current.length results, ?_, classifyEntries_recorded h _⟩
    rw [foldlM_recordResponse]
    exact foldlM_recordResult.2 ⟨h, rfl⟩
  · intro messages' hperm
    rw [consumeStream_of_wellIndexed (h.perm hperm), lookupOutcome_perm h hperm]
  · exact fun failure hfailure => blames_of_mem_lookupOutcome hfailure

/-! ### A stream that leaves an entry out -/

def plainCodec : Codec where
  encodeStatus _ := []
  decodeStatus _ := none
  decodeRetryInfo _ := none
  powi := F64.power
  takesTimeout timeout := timeout < 100000000 * (3600 * 1000000000)

def sentEntry (index : Nat) : PendingEntry where
  originalIndex := 10 + index
  proto :=
    { rowKey := [7]
      mutations := [{ mutation := some .deleteFromRow }]
      idempotency := none }
  retrySafe := true
  attempts := 1

def sparseStream : List MutateRowsResponse :=
  [{ entries := [{ index := 2, status := some { code := 14 } }] },
    { entries := [{ index := 0, status := none }] }]

theorem consumeStream_by_lookup_sparseStream :
    WellIndexed 3 (streamResults sparseStream) ∧
      consumeStream plainCodec 4 [sentEntry 0, sentEntry 1, sentEntry 2] sparseStream .ended =
        some (lookupOutcome plainCodec 4 [sentEntry 0, sentEntry 1, sentEntry 2]
          (streamResults sparseStream) none) :=
  ⟨by decide, ((consumeStream_by_lookup plainCodec 4 [sentEntry 0, sentEntry 1, sentEntry 2]
    sparseStream .ended).1 (by decide)).1⟩

end BigtableClient
