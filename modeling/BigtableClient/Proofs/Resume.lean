import BigtableClient.Query
import BigtableClient.Resume
import BigtableClient.Selection

/-!
# What a resumed request selects

A trimmed range selects the unread keys of the range it came from, unless its end
is the empty key: such an end leaves the range open, but the comparisons with the
progress key take it for the least key.
-/

namespace BigtableClient

open Proto Selection
open ProofSupport.ScanOrder (Beyond)

def EmptyEnd (range : Proto.RowRange) : Prop :=
  range.endKey = some (.endKeyOpen []) ∨ range.endKey = some (.endKeyClosed [])

instance (range : Proto.RowRange) : Decidable (EmptyEnd range) :=
  inferInstanceAs (Decidable (_ ∨ _))

def dropEmptyEnds (rows : RowSet) : RowSet :=
  { rows with rowRanges := rows.rowRanges.filter fun range => ¬ EmptyEnd range }

variable {range : Proto.RowRange} {progress key : Bytes}

/-! ## Bounds -/

theorem startAdmits_open_of_startAtOrBefore {start : Option StartKey}
    (h : startAtOrBefore start progress = true) (hkey : progress < key) :
    StartAdmits start key := by
  rcases start with - | start | start
  · trivial
  · exact Or.inr ((of_decide_eq_true h).trans hkey.le)
  · exact Or.inr ((of_decide_eq_true h).trans_lt hkey)

theorem lt_of_startAdmits {start : Option StartKey}
    (h : startAtOrBefore start progress = false) (hkey : StartAdmits start key) :
    progress < key := by
  rcases start with - | start | start
  · simp [startAtOrBefore] at h
  · have hlt : progress < start := not_le.1 (of_decide_eq_false h)
    rcases hkey with rfl | hle
    · exact absurd hlt (not_lt.2 (nil_le progress))
    · exact hlt.trans_le hle
  · have hlt : progress < start := not_le.1 (of_decide_eq_false h)
    rcases hkey with rfl | hle
    · exact absurd hlt (not_lt.2 (nil_le progress))
    · exact hlt.trans hle

theorem startAdmits_of_not_startAtOrAfter {start : Option StartKey}
    (h : startAtOrAfter start progress = false) : StartAdmits start progress := by
  rcases start with - | start | start
  · trivial
  · exact Or.inr (not_le.1 (of_decide_eq_false h)).le
  · exact Or.inr (not_le.1 (of_decide_eq_false h))

theorem not_lt_of_startAtOrAfter {start : Option StartKey}
    (h : startAtOrAfter start progress = true) (hprogress : progress ≠ [])
    (hkey : StartAdmits start key) : ¬ key < progress := by
  rcases start with - | start | start
  · simp [startAtOrAfter] at h
  · have hle : progress ≤ start := of_decide_eq_true h
    rcases hkey with rfl | hstart
    · exact absurd (le_nil_iff.1 hle) hprogress
    · exact not_lt.2 (hle.trans hstart)
  · have hle : progress ≤ start := of_decide_eq_true h
    rcases hkey with rfl | hstart
    · exact absurd (le_nil_iff.1 hle) hprogress
    · exact not_lt.2 (hle.trans hstart.le)

theorem endAtOrBefore_of_emptyEnd (h : EmptyEnd range) (progress : Bytes) :
    endAtOrBefore range.endKey progress = true := by
  rcases h with h | h <;> simp [h, endAtOrBefore, nil_le]

theorem not_lt_of_endAtOrBefore (h : endAtOrBefore range.endKey progress = true)
    (hend : ¬ EmptyEnd range) (hkey : EndAdmits range.endKey key) : ¬ progress < key := by
  unfold EmptyEnd at hend
  rcases hstop : range.endKey with - | stop | stop
  · rw [hstop] at h
    simp [endAtOrBefore] at h
  · rw [hstop] at h hend hkey
    have hle : stop ≤ progress := of_decide_eq_true h
    rcases hkey with rfl | hlt
    · simp at hend
    · exact not_lt.2 (hlt.le.trans hle)
  · rw [hstop] at h hend hkey
    have hle : stop ≤ progress := of_decide_eq_true h
    rcases hkey with rfl | hlt
    · simp at hend
    · exact not_lt.2 (hlt.trans hle)

theorem endAdmits_of_endAtOrAfter {stop : Option EndKey}
    (h : endAtOrAfter stop progress = true) (hkey : key < progress) : EndAdmits stop key := by
  rcases stop with - | stop | stop
  · trivial
  · exact Or.inr (hkey.trans_le (of_decide_eq_true h))
  · exact Or.inr (hkey.le.trans (of_decide_eq_true h))

theorem lt_of_not_endAtOrAfter (h : endAtOrAfter range.endKey progress = false)
    (hend : ¬ EmptyEnd range) (hkey : EndAdmits range.endKey key) : key < progress := by
  unfold EmptyEnd at hend
  rcases hstop : range.endKey with - | stop | stop
  · rw [hstop] at h
    simp [endAtOrAfter] at h
  · rw [hstop] at h hend hkey
    have hlt : stop < progress := not_le.1 (of_decide_eq_false h)
    rcases hkey with rfl | hle
    · simp at hend
    · exact hle.trans hlt
  · rw [hstop] at h hend hkey
    have hlt : stop < progress := not_le.1 (of_decide_eq_false h)
    rcases hkey with rfl | hle
    · simp at hend
    · exact hle.trans_lt hlt

theorem endAdmits_of_emptyEnd (h : EmptyEnd range) (key : Bytes) :
    EndAdmits range.endKey key := by
  rcases h with h | h <;> simp [h, EndAdmits]

/-! ## Ranges -/

def TrimmedSelects (range : Proto.RowRange) (progress : Bytes) (reversed : Bool)
    (key : Bytes) : Prop :=
  ∃ trimmed ∈ trimRange range progress reversed, RangeSelects trimmed key

theorem not_trimmedSelects_of_emptyEnd (h : EmptyEnd range) (progress key : Bytes) :
    ¬ TrimmedSelects range progress false key := by
  simp [TrimmedSelects, trimRange, endAtOrBefore_of_emptyEnd h]

theorem trimmedSelects_forward (hprogress : progress ≠ []) (hend : ¬ EmptyEnd range) :
    TrimmedSelects range progress false key ↔ RangeSelects range key ∧ progress < key := by
  unfold TrimmedSelects trimRange
  rw [if_neg Bool.false_ne_true]
  split_ifs with hstop hstart
  · constructor
    · rintro ⟨_, hnone, -⟩
      simp at hnone
    · rintro ⟨hselects, hlt⟩
      exact absurd hlt (not_lt_of_endAtOrBefore hstop hend hselects.2)
  · constructor
    · rintro ⟨_, ⟨⟩, hopen, hadmits⟩
      have hlt : progress < key := hopen.resolve_left hprogress
      exact ⟨⟨startAdmits_open_of_startAtOrBefore hstart hlt, hadmits⟩, hlt⟩
    · rintro ⟨hselects, hlt⟩
      exact ⟨_, rfl, Or.inr hlt, hselects.2⟩
  · constructor
    · rintro ⟨_, ⟨⟩, hselects⟩
      exact ⟨hselects, lt_of_startAdmits (eq_false_of_ne_true hstart) hselects.1⟩
    · rintro ⟨hselects, -⟩
      exact ⟨_, rfl, hselects⟩

theorem trimmedSelects_reversed (hprogress : progress ≠ [])
    (hend : EmptyEnd range → startAtOrAfter range.startKey progress = true) :
    TrimmedSelects range progress true key ↔ RangeSelects range key ∧ key < progress := by
  unfold TrimmedSelects trimRange
  rw [if_pos rfl]
  split_ifs with hstart hstop
  · constructor
    · rintro ⟨_, hnone, -⟩
      simp at hnone
    · rintro ⟨hselects, hlt⟩
      exact absurd hlt (not_lt_of_startAtOrAfter hstart hprogress hselects.1)
  · constructor
    · rintro ⟨_, ⟨⟩, hadmits, hopen⟩
      have hlt : key < progress := hopen.resolve_left hprogress
      exact ⟨⟨hadmits, endAdmits_of_endAtOrAfter hstop hlt⟩, hlt⟩
    · rintro ⟨hselects, hlt⟩
      exact ⟨_, rfl, hselects.1, Or.inr hlt⟩
  · constructor
    · rintro ⟨_, ⟨⟩, hselects⟩
      have hne : ¬ EmptyEnd range := fun h => hstart (hend h)
      exact ⟨hselects,
        lt_of_not_endAtOrAfter (eq_false_of_ne_true hstop) hne hselects.2⟩
    · rintro ⟨hselects, -⟩
      exact ⟨_, rfl, hselects⟩

/-- A reversed read keeps such a range as it is, and with it the progress key. -/
theorem trimmedSelects_progress_of_emptyEnd (hprogress : progress ≠ []) (hend : EmptyEnd range)
    (hstart : startAtOrAfter range.startKey progress = false) :
    TrimmedSelects range progress true progress := by
  have hstop : endAtOrAfter range.endKey progress = false := by
    rcases hend with h | h <;> simp [h, endAtOrAfter, nil_lt_iff, hprogress]
  refine ⟨range, ?_, startAdmits_of_not_startAtOrAfter hstart, endAdmits_of_emptyEnd hend _⟩
  simp [trimRange, hstart, hstop]

/-! ## Row sets -/

/-- Where trimming the row set is exact: forward, the ranges that end at the empty key select
no unread key of their own; reversed, none of them starts before the progress key. -/
def EmptyEndsHarmless (rows : RowSet) (progress : Bytes) (reversed : Bool) : Prop :=
  if reversed then
    ∀ range ∈ rows.rowRanges, EmptyEnd range → startAtOrAfter range.startKey progress = true
  else
    ∀ key, progress < key → RowSetSelects rows key → RowSetSelects (dropEmptyEnds rows) key

theorem emptyEndsHarmless_of_forall {rows : RowSet} {reversed : Bool}
    (h : ∀ range ∈ rows.rowRanges, ¬ EmptyEnd range) :
    EmptyEndsHarmless rows progress reversed := by
  cases reversed with
  | true => exact fun range hrange hend => absurd hend (h range hrange)
  | false =>
      intro key _ hselects
      rwa [dropEmptyEnds, List.filter_eq_self.2 (by simpa using h)]

def trimmedRows (rows : RowSet) (progress : Bytes) (reversed : Bool) : RowSet where
  rowKeys := rows.rowKeys.filter fun key => Beyond reversed progress key
  rowRanges := rows.rowRanges.filterMap fun range => trimRange range progress reversed

theorem trimRowSet_eq (rows : RowSet) (progress : Bytes) (reversed : Bool) :
    trimRowSet rows progress reversed =
      if trimmedRows rows progress reversed = { rowKeys := [], rowRanges := [] } then
        none
      else
        some (trimmedRows rows progress reversed) := by
  cases reversed <;> simp [trimRowSet, trimmedRows]

theorem rowSetSelects_trimmedRows {rows : RowSet} {reversed : Bool} :
    RowSetSelects (trimmedRows rows progress reversed) key ↔
      (key ∈ rows.rowKeys ∧ Beyond reversed progress key) ∨
        ∃ range ∈ rows.rowRanges, TrimmedSelects range progress reversed key := by
  unfold RowSetSelects TrimmedSelects trimmedRows
  simp only [List.mem_filter, List.mem_filterMap, decide_eq_true_eq, Option.mem_def]
  grind

/-- The trimmed row set selects exactly the unread keys. -/
def TrimsExactly (rows : RowSet) (progress : Bytes) (reversed : Bool) : Prop :=
  ∀ key ≠ [], RowSetSelects (trimmedRows rows progress reversed) key ↔
    RowSetSelects rows key ∧ Beyond reversed progress key

theorem rowSetSelects_dropEmptyEnds {rows : RowSet} :
    RowSetSelects (dropEmptyEnds rows) key ↔
      key ∈ rows.rowKeys ∨ ∃ range ∈ rows.rowRanges, ¬ EmptyEnd range ∧ RangeSelects range key := by
  simp [RowSetSelects, dropEmptyEnds, and_assoc]

theorem trimsExactly_iff (rows : RowSet) (reversed : Bool) (hprogress : progress ≠ []) :
    TrimsExactly rows progress reversed ↔ EmptyEndsHarmless rows progress reversed := by
  cases reversed with
  | false =>
      have htrimmed : ∀ key, ((key ∈ rows.rowKeys ∧ progress < key) ∨
          ∃ range ∈ rows.rowRanges, TrimmedSelects range progress false key) ↔
            RowSetSelects (dropEmptyEnds rows) key ∧ progress < key := by
        intro key
        have hrange : ∀ range, TrimmedSelects range progress false key ↔
            (¬ EmptyEnd range ∧ RangeSelects range key) ∧ progress < key := by
          intro range
          by_cases hend : EmptyEnd range
          · simp [hend, not_trimmedSelects_of_emptyEnd hend]
          · simp [hend, trimmedSelects_forward hprogress hend]
        simp only [hrange, rowSetSelects_dropEmptyEnds]
        grind
      simp only [TrimsExactly, rowSetSelects_trimmedRows, ProofSupport.ScanOrder.beyond_false,
        htrimmed]
      unfold EmptyEndsHarmless
      rw [if_neg Bool.false_ne_true]
      constructor
      · intro h key hlt hselects
        have hkey : key ≠ [] := nil_lt_iff.1 ((nil_le progress).trans_lt hlt)
        exact ((h key hkey).2 ⟨hselects, hlt⟩).1
      · intro h key _
        refine and_congr_left fun hlt => ⟨fun hselects => ?_, h key hlt⟩
        rw [rowSetSelects_dropEmptyEnds] at hselects
        refine hselects.imp_right ?_
        rintro ⟨range, hrange, -, hr⟩
        exact ⟨range, hrange, hr⟩
  | true =>
      unfold TrimsExactly EmptyEndsHarmless
      simp only [rowSetSelects_trimmedRows, ProofSupport.ScanOrder.beyond_true, if_pos]
      constructor
      · intro h range hrange hend
        by_contra hstart
        have hkept := trimmedSelects_progress_of_emptyEnd hprogress hend
          (eq_false_of_ne_true hstart)
        have hself := ((h progress hprogress).1 (Or.inr ⟨range, hrange, hkept⟩)).2
        exact lt_irrefl _ hself
      · intro h key _
        have hrange : (∃ range ∈ rows.rowRanges, TrimmedSelects range progress true key) ↔
            (∃ range ∈ rows.rowRanges, RangeSelects range key) ∧ key < progress := by
          constructor
          · rintro ⟨range, hmem, hr⟩
            obtain ⟨hselects, hlt⟩ := (trimmedSelects_reversed hprogress (h range hmem)).1 hr
            exact ⟨⟨range, hmem, hselects⟩, hlt⟩
          · rintro ⟨⟨range, hmem, hselects⟩, hlt⟩
            exact ⟨range, hmem,
              (trimmedSelects_reversed hprogress (h range hmem)).2 ⟨hselects, hlt⟩⟩
        rw [hrange, ← or_and_right]
        rfl

/-! ## Requests -/

/-- The row set of a request.  An absent one is a range without bounds. -/
def requestedRows (original : ReadRowsRequest) : RowSet :=
  original.rows.getD { rowKeys := [], rowRanges := [{}] }

theorem rowSetSelects_requestedRows {original : ReadRowsRequest} :
    RowSetSelects (requestedRows original) key ↔ Selects original.rows key := by
  unfold requestedRows
  cases original.rows with
  | none => simp [RowSetSelects, RangeSelects, StartAdmits, EndAdmits, selects_none]
  | some rows => simp [selects_some]

def LimitUsedUp (original : ReadRowsRequest) (rowsReturned : Int) : Prop :=
  0 < original.rowsLimit ∧ original.rowsLimit ≤ rowsReturned

instance (original : ReadRowsRequest) (rowsReturned : Int) :
    Decidable (LimitUsedUp original rowsReturned) :=
  inferInstanceAs (Decidable (_ ∧ _))

def remainingLimit (original : ReadRowsRequest) (rowsReturned : Int) : Int :=
  if 0 < original.rowsLimit then original.rowsLimit - rowsReturned else original.rowsLimit

theorem resumeRequest_eq (original : ReadRowsRequest) (progress : Bytes) (rowsReturned : Int) :
    resumeRequest original (some progress) rowsReturned =
      if LimitUsedUp original rowsReturned then
        none
      else
        (trimRowSet (requestedRows original) progress original.reversed).map fun rows =>
          { original with
            rows := some rows
            rowsLimit := remainingLimit original rowsReturned } := by
  unfold resumeRequest
  by_cases hused : LimitUsedUp original rowsReturned
  · rw [if_pos hused]
    exact if_pos hused
  · rw [if_neg hused]
    apply (if_neg hused).trans
    unfold remainingLimit requestedRows
    simp only [gt_iff_lt]
    cases trimRowSet (original.rows.getD { rowKeys := [], rowRanges := [{}] }) progress
      original.reversed with
    | none => rfl
    | some rows => split_ifs <;> rfl

theorem resumeRequest_none_eq (original : ReadRowsRequest) (rowsReturned : Int) :
    resumeRequest original none rowsReturned =
      if LimitUsedUp original rowsReturned then
        none
      else
        some { original with rowsLimit := remainingLimit original rowsReturned } := by
  unfold resumeRequest
  by_cases hused : LimitUsedUp original rowsReturned
  · rw [if_pos hused]
    exact if_pos hused
  · rw [if_neg hused]
    apply (if_neg hused).trans
    unfold remainingLimit
    simp only [gt_iff_lt]
    split_ifs <;> rfl

/-- A request for the unread part: it selects the unread keys, asks for the rows that are
still owed, and is otherwise the original. -/
def RequestsUnread (original request : ReadRowsRequest) (progress : Bytes)
    (rowsReturned : Int) : Prop :=
  ∃ rows : RowSet,
    request = { original with rows := some rows, rowsLimit := request.rowsLimit } ∧
      rows ≠ { rowKeys := [], rowRanges := [] } ∧
      (∀ key ≠ [], RowSetSelects rows key ↔
        Selects original.rows key ∧ Beyond original.reversed progress key) ∧
      (original.rowsLimit = 0 → request.rowsLimit = 0) ∧
      (original.rowsLimit ≠ 0 →
        request.rowsLimit = original.rowsLimit - rowsReturned ∧ 0 < request.rowsLimit)

def NothingUnread (original : ReadRowsRequest) (progress : Bytes) (rowsReturned : Int) : Prop :=
  LimitUsedUp original rowsReturned ∨
    ∀ key ≠ [], Selects original.rows key → ¬ Beyond original.reversed progress key

/-- Resuming narrows the read to exactly the unread part. -/
def NarrowsToUnread (original : ReadRowsRequest) (progress : Bytes) (rowsReturned : Int) :
    Prop :=
  match resumeRequest original (some progress) rowsReturned with
  | some request => RequestsUnread original request progress rowsReturned
  | none => NothingUnread original progress rowsReturned

theorem narrowsToUnread_iff {original : ReadRowsRequest} (rowsReturned : Int)
    (hlimit : 0 ≤ original.rowsLimit) (hprogress : progress ≠ []) :
    NarrowsToUnread original progress rowsReturned ↔
      LimitUsedUp original rowsReturned ∨
        EmptyEndsHarmless (requestedRows original) progress original.reversed := by
  rw [← trimsExactly_iff _ _ hprogress]
  unfold NarrowsToUnread
  rw [resumeRequest_eq, trimRowSet_eq]
  by_cases hused : LimitUsedUp original rowsReturned
  · simp [hused, NothingUnread]
  · rw [if_neg hused]
    have hselects : ∀ key, Selects original.rows key ↔ RowSetSelects (requestedRows original) key :=
      fun key => rowSetSelects_requestedRows.symm
    by_cases hempty : trimmedRows (requestedRows original) progress original.reversed =
        { rowKeys := [], rowRanges := [] }
    · have hnone : ∀ key, ¬ RowSetSelects (trimmedRows (requestedRows original) progress
          original.reversed) key := by
        simp [hempty, RowSetSelects]
      simp only [if_pos hempty, Option.map_none, NothingUnread, hused, TrimsExactly, hnone,
        hselects, false_or, false_iff, not_and]
    · have hlimits : (original.rowsLimit = 0 → remainingLimit original rowsReturned = 0) ∧
          (original.rowsLimit ≠ 0 → remainingLimit original rowsReturned =
            original.rowsLimit - rowsReturned ∧ 0 < remainingLimit original rowsReturned) := by
        unfold remainingLimit
        unfold LimitUsedUp at hused
        constructor
        · intro hzero
          rw [if_neg (by omega), hzero]
        · intro hne
          rw [if_pos (by omega)]
          omega
      simp only [if_neg hempty, Option.map_some, hused, false_or]
      constructor
      · rintro ⟨rows, hrequest, -, hkeys, -⟩ key hkey
        have hrows := congrArg ReadRowsRequest.rows hrequest
        obtain rfl := Option.some.inj hrows
        rw [hkeys key hkey, hselects]
      · intro hexact
        refine ⟨_, rfl, hempty, ?_, hlimits⟩
        intro key hkey
        rw [hexact key hkey, hselects]

/-! ## Queries -/

theorem intoRequest_rowsLimit_nonneg (query : Query) (config : ClientConfig) :
    0 ≤ (query.intoRequest config).rowsLimit := by
  show 0 ≤ (query.limit.map Subtype.val).getD 0
  cases query.limit with
  | none => exact Int.le_refl 0
  | some limit => exact Int.le_of_lt limit.2.1

/-- Resuming the request of a query narrows it to exactly the unread part if and only if the
limit is used up or its ranges that end at the empty key do no harm. -/
theorem Query.resumeRequest_narrows_iff (query : Query) (config : ClientConfig)
    (progress : Bytes) (rowsReturned : Int) (hprogress : progress ≠ []) :
    NarrowsToUnread (query.intoRequest config) progress rowsReturned ↔
      LimitUsedUp (query.intoRequest config) rowsReturned ∨
        EmptyEndsHarmless (requestedRows (query.intoRequest config)) progress query.reversed :=
  narrowsToUnread_iff rowsReturned (intoRequest_rowsLimit_nonneg query config) hprogress

theorem validateTableId_events : validateTableId "events" = .ok () := by decide

def openEndedQuery : Query where
  tableId := ⟨"events", validateTableId_events⟩
  rowKeys := []
  rowRanges := [{ start := .inclusive [97], stop := .exclusive [] }]
  filter := none
  limit := none
  reversed := false

/-- A header value has no control characters but the tabulator. -/
def printableHeader (text : String) : Option MetadataValue :=
  if text.toList.all fun c => c.toNat = 9 ∨ (32 ≤ c.toNat ∧ c.toNat ≠ 127) then
    some { text := text }
  else
    none

def sampleConfig : ClientConfig where
  projectId := "project"
  instanceId := "instance"
  appProfileId := "analytics"

theorem Query.resumeRequest_narrows_iff_openEndedQuery :
    NarrowsToUnread (openEndedQuery.intoRequest sampleConfig) [98] 0 ↔
      LimitUsedUp (openEndedQuery.intoRequest sampleConfig) 0 ∨
        EmptyEndsHarmless (requestedRows (openEndedQuery.intoRequest sampleConfig)) [98]
          openEndedQuery.reversed :=
  Query.resumeRequest_narrows_iff openEndedQuery sampleConfig [98] 0 (by decide)

/-- After "b" nothing is read again, though "c" is still unread. -/
theorem openEndedQuery_not_narrowed :
    openEndedQuery.validate = .ok () ∧
      ¬ NarrowsToUnread (openEndedQuery.intoRequest sampleConfig) [98] 0 := by
  refine ⟨by decide, ?_⟩
  have hnone : resumeRequest (openEndedQuery.intoRequest sampleConfig) (some [98]) 0 = none := by
    decide
  unfold NarrowsToUnread
  rw [hnone]
  rintro (hused | hread)
  · exact absurd hused (by decide)
  · exact hread [99] (by decide) (by decide) (by decide)

end BigtableClient
