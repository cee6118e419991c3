import BigtableClient.EntryLookup

/-!
# Classification by lookup

The bitmap, the counter and the list of failures that the stream loop keeps are
functions of the results so far.  From that, the walk over the entries with the
sorted failures beside it takes the result of each entry.
-/

namespace BigtableClient

open Proto (MutateRowsResult MutateRowsResponse)

variable {codec : Codec} {maxAttempts entryCount : Nat} {results : List MutateRowsResult}
  {result : MutateRowsResult}

/-! ## Results -/

theorem resultAt_eq_none_iff {position : Nat} :
    resultAt results position = none ↔ ∀ result ∈ results, result.index ≠ position := by
  simp [resultAt]

theorem resultAt_append_singleton (position : Nat) :
    resultAt (results ++ [result]) position =
      (resultAt results position).or (if result.index = position then some result else none) := by
  rw [resultAt, List.find?_append]
  congr 1
  by_cases h : result.index = position
  · simp [h]
  · simp [h]

theorem mem_of_resultAt {position : Nat} (h : resultAt results position = some result) :
    result ∈ results :=
  List.mem_of_find?_eq_some h

theorem index_of_resultAt {position : Nat} (h : resultAt results position = some result) :
    result.index = position := by
  simpa using List.find?_some h

namespace WellIndexed

theorem nil : WellIndexed entryCount [] where
  inRange := by simp
  distinct := by simp

theorem append_singleton_iff :
    WellIndexed entryCount (results ++ [result]) ↔
      WellIndexed entryCount results ∧ 0 ≤ result.index ∧ result.index < entryCount ∧
        resultAt results result.index.toNat = none := by
  rw [resultAt_eq_none_iff]
  constructor
  · intro h
    obtain ⟨hnonneg, hlt⟩ := h.inRange result (by simp)
    have hdistinct := h.distinct
    rw [List.map_append, List.nodup_append] at hdistinct
    refine ⟨⟨fun other hother => h.inRange other (by simp [hother]), hdistinct.1⟩, hnonneg, hlt,
      ?_⟩
    intro other hother heq
    apply hdistinct.2.2 other.index (List.mem_map_of_mem hother) result.index (by simp)
    omega
  · rintro ⟨h, hnonneg, hlt, hfresh⟩
    constructor
    · intro other hother
      rcases List.mem_append.1 hother with hother | hother
      · exact h.inRange other hother
      · rw [List.mem_singleton.1 hother]
        exact ⟨hnonneg, hlt⟩
    · rw [List.map_append, List.nodup_append]
      refine ⟨h.distinct, by simp, ?_⟩
      intro index hindex last hlast heq
      obtain ⟨other, hother, rfl⟩ := List.mem_map.1 hindex
      simp only [List.map_cons, List.map_nil, List.mem_singleton] at hlast
      exact hfresh other hother (by omega)

theorem perm (h : WellIndexed entryCount results) {results' : List MutateRowsResult}
    (hperm : results'.Perm results) : WellIndexed entryCount results' where
  inRange result hresult := h.inRange result (hperm.mem_iff.1 hresult)
  distinct := (hperm.map _).nodup_iff.2 h.distinct

theorem resultAt_eq_some_iff (h : WellIndexed entryCount results) {position : Nat} :
    resultAt results position = some result ↔
      result ∈ results ∧ result.index = position := by
  constructor
  · exact fun hresult => ⟨mem_of_resultAt hresult, index_of_resultAt hresult⟩
  · rintro ⟨hmem, hindex⟩
    cases hfind : resultAt results position with
    | none => exact absurd hindex (resultAt_eq_none_iff.1 hfind result hmem)
    | some other =>
        have hother := mem_of_resultAt hfind
        have heq : other.index = result.index := (index_of_resultAt hfind).trans hindex.symm
        rw [List.inj_on_of_nodup_map h.distinct hother hmem heq]

theorem resultAt_perm (h : WellIndexed entryCount results) {results' : List MutateRowsResult}
    (hperm : results'.Perm results) (position : Nat) :
    resultAt results' position = resultAt results position := by
  ext result
  rw [h.resultAt_eq_some_iff,
    (h.perm hperm).resultAt_eq_some_iff, hperm.mem_iff]

theorem lt_of_resultAt (h : WellIndexed entryCount results) {position : Nat}
    (hresult : resultAt results position = some result) : position < entryCount := by
  have hrange := (h.inRange result (mem_of_resultAt hresult)).2
  rw [index_of_resultAt hresult] at hrange
  omega

/-- As many results as entries are one result for each entry. -/
theorem resultAt_isSome (h : WellIndexed entryCount results) (hlength : results.length = entryCount)
    {position : Nat} (hposition : position < entryCount) :
    ∃ result, resultAt results position = some result := by
  have hsub : results.map MutateRowsResult.index ⊆
      (List.range entryCount).map fun position : Nat => (position : Int) := by
    intro index hindex
    obtain ⟨other, hother, rfl⟩ := List.mem_map.1 hindex
    obtain ⟨hnonneg, hlt⟩ := h.inRange other hother
    exact List.mem_map.2 ⟨other.index.toNat, List.mem_range.2 (by omega), by omega⟩
  have hperm := (h.distinct.subperm hsub).perm_of_length_le (by simp [hlength])
  obtain ⟨other, hother, hindex⟩ := List.mem_map.1 (hperm.mem_iff.2
    (List.mem_map.2 ⟨position, List.mem_range.2 hposition, rfl⟩))
  exact ⟨other, h.resultAt_eq_some_iff.2 ⟨hother, hindex⟩⟩

end WellIndexed

/-! ## The loop over the stream -/

def recorded (codec : Codec) (entryCount : Nat) (results : List MutateRowsResult) :
    StreamProgress where
  seen := (List.range entryCount).map fun position => (resultAt results position).isSome
  seenCount := results.length
  entryFailures := results.filterMap fun result =>
    (entryError codec result).map fun status => (result.index.toNat, status)

theorem recorded_nil : recorded codec entryCount [] = .new entryCount := by
  simp [recorded, StreamProgress.new, resultAt, List.map_const']

theorem getD_seen_recorded (codec : Codec) (results : List MutateRowsResult) {position : Nat}
    (h : position < entryCount) :
    (recorded codec entryCount results).seen.getD position false =
      (resultAt results position).isSome := by
  simp [recorded, List.getD_eq_getElem?_getD, h]

theorem set_seen_recorded (codec : Codec) (entryCount : Nat) (results : List MutateRowsResult)
    {position : Nat} (hindex : result.index = position) :
    (recorded codec entryCount results).seen.set position true =
      (recorded codec entryCount (results ++ [result])).seen := by
  apply List.ext_getElem (by simp [recorded])
  intro i hi hi'
  simp only [recorded, List.getElem_set, List.getElem_map, List.getElem_range,
    resultAt_append_singleton]
  by_cases h : position = i
  · simp [h, hindex]
  · have hne : (position : Int) ≠ i := by omega
    simp [h, hindex, hne]

theorem recorded_append_singleton (entryCount : Nat) (hnonneg : 0 ≤ result.index) :
    recorded codec entryCount (results ++ [result]) =
      (recorded codec entryCount results).mark result.index.toNat
        (statusResult codec result.status) := by
  have hseen := set_seen_recorded codec entryCount results
    (Int.toNat_of_nonneg hnonneg).symm
  have hcount : (recorded codec entryCount (results ++ [result])).seenCount =
      (recorded codec entryCount results).seenCount + 1 := by
    simp [recorded]
  cases h : statusResult codec result.status with
  | error status =>
      simp only [StreamProgress.mark, hseen, ← hcount]
      simp [recorded, entryError, h]
  | ok =>
      simp only [StreamProgress.mark, hseen, ← hcount]
      simp [recorded, entryError, h]

/-- One more result is recorded, or it makes the indexes ill-formed. -/
theorem recordResult_recorded (h : WellIndexed entryCount results) {progress : StreamProgress} :
    recordResult codec entryCount (recorded codec entryCount results) result = .ok progress ↔
      WellIndexed entryCount (results ++ [result]) ∧
        progress = recorded codec entryCount (results ++ [result]) := by
  rw [WellIndexed.append_singleton_iff]
  by_cases hneg : result.index < 0
  · rw [recordResult, if_pos hneg]
    exact ⟨nofun, fun hall => absurd hneg (by have := hall.1.2.1; omega)⟩
  by_cases hlarge : result.index.toNat ≥ entryCount
  · simp only [recordResult, if_neg hneg, if_pos hlarge]
    exact ⟨nofun, fun hall => absurd hlarge (by have := hall.1.2.2.1; omega)⟩
  have hseen := getD_seen_recorded codec results (not_le.1 hlarge)
  cases hfind : resultAt results result.index.toNat with
  | some other =>
      rw [hfind, Option.isSome_some] at hseen
      simp only [recordResult, if_neg hneg, if_neg hlarge, if_pos hseen]
      exact ⟨nofun, fun hall => absurd hall.1.2.2.2 (by simp)⟩
  | none =>
      rw [hfind, Option.isSome_none] at hseen
      simp only [recordResult, if_neg hneg, if_neg hlarge, hseen, Bool.false_eq_true, if_false,
        Except.ok.injEq, ← recorded_append_singleton entryCount (not_lt.1 hneg)]
      constructor
      · exact fun hprogress => ⟨⟨h, by omega, by omega, trivial⟩, hprogress.symm⟩
      · exact fun hall => hall.2.symm

theorem recordResult_error {issue : MutateRowsResponseIssue}
    (h : recordResult codec entryCount (recorded codec entryCount results) result =
      .error issue) : issue.Names entryCount results result := by
  unfold recordResult at h
  dsimp only at h
  split_ifs at h with hneg hlarge hseen
  · obtain rfl := Except.error.inj h
    exact ⟨rfl, hneg⟩
  · obtain rfl := Except.error.inj h
    exact ⟨rfl, rfl, by omega⟩
  · obtain rfl := Except.error.inj h
    rw [getD_seen_recorded codec results (not_le.1 hlarge), Option.isSome_iff_exists] at hseen
    obtain ⟨earlier, hearlier⟩ := hseen
    exact ⟨by omega, earlier, mem_of_resultAt hearlier, index_of_resultAt hearlier⟩

/-- The loop reads on as long as the indexes are well formed, and records the results. -/
theorem foldlM_recordResult {progress : StreamProgress} :
    results.foldlM (recordResult codec entryCount) (.new entryCount) = .ok progress ↔
      WellIndexed entryCount results ∧ progress = recorded codec entryCount results := by
  induction results using List.reverseRecOn generalizing progress with
  | nil =>
      rw [recorded_nil]
      simp only [List.foldlM_nil, pure, Except.pure, Except.ok.injEq, WellIndexed.nil, true_and]
      exact eq_comm
  | append_singleton results result ih =>
      rw [List.foldlM_append]
      simp only [List.foldlM_cons, List.foldlM_nil, bind_pure]
      cases hfold : results.foldlM (recordResult codec entryCount) (.new entryCount) with
      | error issue =>
          refine ⟨nofun, fun hall => ?_⟩
          have hok := ih.2 ⟨(WellIndexed.append_singleton_iff.1 hall.1).1, rfl⟩
          rw [hfold] at hok
          cases hok
      | ok middle =>
          obtain ⟨hwell, rfl⟩ := ih.1 hfold
          exact recordResult_recorded hwell

theorem foldlM_recordResult_error {issue : MutateRowsResponseIssue}
    (h : results.foldlM (recordResult codec entryCount) (.new entryCount) = .error issue) :
    ∃ before result after, results = before ++ result :: after ∧
      WellIndexed entryCount before ∧ issue.Names entryCount before result := by
  induction results using List.reverseRecOn with
  | nil => cases h
  | append_singleton results result ih =>
      cases hfold : results.foldlM (recordResult codec entryCount) (.new entryCount) with
      | error earlier =>
          rw [List.foldlM_append, hfold] at h
          cases h
          obtain ⟨before, bad, after, rfl, hbefore, hnames⟩ := ih hfold
          exact ⟨before, bad, after ++ [result], by simp, hbefore, hnames⟩
      | ok middle =>
          obtain ⟨hwell, rfl⟩ := foldlM_recordResult.1 hfold
          rw [List.foldlM_append, hfold] at h
          simp only [List.foldlM_cons, List.foldlM_nil, bind_pure] at h
          exact ⟨results, result, [], rfl, hwell, recordResult_error h⟩

theorem foldlM_recordResponse (messages : List MutateRowsResponse) (progress : StreamProgress) :
    messages.foldlM (recordResponse codec entryCount) progress =
      (streamResults messages).foldlM (recordResult codec entryCount) progress := by
  induction messages generalizing progress with
  | nil => rfl
  | cons message messages ih =>
      simp only [List.foldlM_cons, streamResults, List.flatMap_cons, List.foldlM_append]
      exact bind_congr fun middle => ih middle

/-! ## The sorted failures -/

/-- The failures of the positions from `k` on, in order. -/
structure FailuresFrom (codec : Codec) (results : List MutateRowsResult) (k : Nat)
    (entryFailures : List (Nat × Status)) : Prop where
  sorted : entryFailures.Pairwise fun failure other => failure.1 < other.1
  mem_iff : ∀ position status, (position, status) ∈ entryFailures ↔
    k ≤ position ∧ (resultAt results position).bind (entryError codec) = some status

namespace FailuresFrom

variable {k : Nat} {entryFailures : List (Nat × Status)}

theorem skip (h : FailuresFrom codec results k entryFailures)
    (hnone : (resultAt results k).bind (entryError codec) = none) :
    FailuresFrom codec results (k + 1) entryFailures where
  sorted := h.sorted
  mem_iff position status := by
    rw [h.mem_iff]
    constructor
    · rintro ⟨hle, hstatus⟩
      refine ⟨?_, hstatus⟩
      rcases Nat.eq_or_lt_of_le hle with rfl | hlt
      · rw [hnone] at hstatus
        cases hstatus
      · exact hlt
    · exact fun hall => ⟨by omega, hall.2⟩

theorem head?_any_eq_false (h : FailuresFrom codec results k entryFailures)
    (hnone : (resultAt results k).bind (entryError codec) = none) :
    (entryFailures.head?.any fun failure => failure.1 = k) = false := by
  cases entryFailures with
  | nil => rfl
  | cons failure rest =>
      have hmem := (h.mem_iff failure.1 failure.2).1 (by simp)
      have hne : failure.1 ≠ k := by
        intro heq
        rw [heq, hnone] at hmem
        cases hmem.2
      simp [hne]

theorem head (h : FailuresFrom codec results k entryFailures) {status : Status}
    (hsome : (resultAt results k).bind (entryError codec) = some status) :
    ∃ rest, entryFailures = (k, status) :: rest ∧ FailuresFrom codec results (k + 1) rest := by
  have hmem := (h.mem_iff k status).2 ⟨le_rfl, hsome⟩
  cases entryFailures with
  | nil => cases hmem
  | cons failure rest =>
      obtain ⟨hfirst, hsorted⟩ := List.pairwise_cons.1 h.sorted
      have hle := ((h.mem_iff failure.1 failure.2).1 (by simp)).1
      have heq : failure = (k, status) := by
        rcases List.mem_cons.1 hmem with heq | hrest
        · exact heq.symm
        · have := hfirst _ hrest
          simp only at this
          omega
      subst heq
      refine ⟨rest, rfl, hsorted, fun position other => ?_⟩
      constructor
      · intro hrest
        have hlt := hfirst _ hrest
        exact ⟨hlt, ((h.mem_iff position other).1 (List.mem_cons_of_mem _ hrest)).2⟩
      · rintro ⟨hlt, hother⟩
        rcases List.mem_cons.1 ((h.mem_iff position other).2 ⟨by omega, hother⟩) with heq | hrest
        · cases heq
          omega
        · exact hrest

theorem eq_nil (h : FailuresFrom codec results k entryFailures)
    (hrange : ∀ position result, resultAt results position = some result → position < k) :
    entryFailures = [] := by
  cases entryFailures with
  | nil => rfl
  | cons failure rest =>
      obtain ⟨hle, hstatus⟩ := (h.mem_iff failure.1 failure.2).1 (by simp)
      obtain ⟨result, hresult, -⟩ := Option.bind_eq_some_iff.1 hstatus
      have := hrange _ _ hresult
      omega

end FailuresFrom

theorem mem_entryFailures_recorded (h : WellIndexed entryCount results) (position : Nat)
    (status : Status) :
    (position, status) ∈ (recorded codec entryCount results).entryFailures ↔
      (resultAt results position).bind (entryError codec) = some status := by
  simp only [recorded, List.mem_filterMap, Option.map_eq_some_iff, Prod.mk.injEq,
    Option.bind_eq_some_iff]
  constructor
  · rintro ⟨result, hresult, other, herror, hindex, rfl⟩
    have hnonneg := (h.inRange result hresult).1
    exact ⟨result, h.resultAt_eq_some_iff.2 ⟨hresult, by omega⟩, herror⟩
  · rintro ⟨result, hresult, herror⟩
    have hindex := index_of_resultAt hresult
    exact ⟨result, mem_of_resultAt hresult, status, herror, by omega, rfl⟩

theorem nodup_keys_recorded (h : WellIndexed entryCount results) :
    ((recorded codec entryCount results).entryFailures.map Prod.fst).Nodup := by
  have hsub : ((recorded codec entryCount results).entryFailures.map Prod.fst).Sublist
      ((results.map MutateRowsResult.index).map Int.toNat) := by
    clear h
    induction results with
    | nil => simp [recorded]
    | cons result results ih =>
        simp only [recorded, List.filterMap_cons, List.map_cons] at ih ⊢
        cases entryError codec result with
        | none => exact ih.cons _
        | some status => exact ih.cons_cons _
  refine hsub.nodup (h.distinct.map_on ?_)
  intro index hindex other hother heq
  obtain ⟨result, hresult, rfl⟩ := List.mem_map.1 hindex
  obtain ⟨result', hresult', rfl⟩ := List.mem_map.1 hother
  have hnonneg := (h.inRange result hresult).1
  have hnonneg' := (h.inRange result' hresult').1
  omega

/-- Sorting the recorded failures puts them in the order of the request. -/
theorem failuresFrom_mergeSort (h : WellIndexed entryCount results) :
    FailuresFrom codec results 0 ((recorded codec entryCount results).entryFailures.mergeSort
      fun failure other => failure.1 ≤ other.1) where
  sorted := by
    have hperm := List.mergeSort_perm (recorded codec entryCount results).entryFailures
      fun failure other => failure.1 ≤ other.1
    have hle := @List.pairwise_mergeSort _ (fun failure other : Nat × Status =>
      failure.1 ≤ other.1) (fun _ _ _ => by simpa using Nat.le_trans)
      (fun failure other => by simpa using Nat.le_total failure.1 other.1)
      (recorded codec entryCount results).entryFailures
    have hne := List.pairwise_map.1 ((hperm.map Prod.fst).nodup_iff.2 (nodup_keys_recorded h))
    exact (hle.and hne).imp fun hpair => lt_of_le_of_ne (by simpa using hpair.1) hpair.2
  mem_iff position status := by
    rw [List.mem_mergeSort, mem_entryFailures_recorded h]
    simp

end BigtableClient
