import BigtableClient.Proofs.ReadOrder
import BigtableClient.Proofs.Resume
import BigtableClient.ReadServer

/-!
# Scans and resumed scans

The scan of a resumed request is what is left of the original scan, and a stream
that answers it is one that the merger accepts where it stands.
-/

namespace BigtableClient

open Proto Selection
open ProofSupport.ScanOrder
open ChunkGrammar

/-! ## Scans -/

def RowsInOrder (reversed : Bool) (rows : List Row) : Prop :=
  rows.Pairwise fun earlier later => Beyond reversed earlier.key later.key

namespace Table

variable (table : Table) {rows rows' : Option RowSet} {reversed : Bool}

theorem mem_select {row : Row} :
    row ∈ table.select rows reversed ↔ row ∈ table.rows ∧ Selects rows row.key := by
  unfold select
  cases reversed <;> simp

theorem key_ne_nil_of_mem_select {row : Row} (h : row ∈ table.select rows reversed) :
    row.key ≠ [] :=
  table.keys_ne_nil row (table.mem_select.1 h).1

theorem select_inOrder (rows : Option RowSet) (reversed : Bool) :
    RowsInOrder reversed (table.select rows reversed) := by
  have hsorted := table.sorted.filter fun row => decide (Selects rows row.key)
  unfold select RowsInOrder
  cases reversed with
  | false => simpa using hsorted
  | true => simpa [List.pairwise_reverse] using hsorted

/-- A narrowed row set selects the rows beyond the position. -/
theorem select_narrowed {progress : Bytes} (h : ∀ key ≠ [], Selects rows' key ↔
      Selects rows key ∧ Beyond reversed progress key) :
    table.select rows' reversed =
      (table.select rows reversed).filter fun row => Beyond reversed progress row.key := by
  have hfilter : table.rows.filter (fun row => decide (Selects rows' row.key)) =
      (table.rows.filter fun row => decide (Selects rows row.key)).filter
        fun row => Beyond reversed progress row.key := by
    rw [List.filter_filter]
    apply List.filter_congr
    intro row hrow
    have hkey := h row.key (table.keys_ne_nil row hrow)
    rw [← Bool.decide_and]
    exact decide_eq_decide.2 (hkey.trans and_comm)
  unfold select
  cases reversed <;> simp [hfilter]

end Table

/-! ## Resumed scans -/

/-- How far a read has come: the rows let through are the first ones of the scan, and the
others lie beyond the progress. -/
structure Advanced (table : Table) (original : ReadRowsRequest) (progress : Option Bytes)
    (accepted : List Output) (rowsReturned : Int) : Prop where
  nonneg : 0 ≤ rowsReturned
  count : (outputRows accepted).length = rowsReturned.toNat
  rows : outputRows accepted = (table.scan original).take rowsReturned.toNat
  ahead : ∀ row ∈ (table.scan original).drop rowsReturned.toNat,
    After original.reversed progress row.key

section Resume

variable {table : Table} {original request : ReadRowsRequest} {progress : Option Bytes}
variable {accepted : List Output} {rowsReturned : Int}

theorem scan_eq_take (table : Table) (original : ReadRowsRequest) :
    table.scan original = table.select original.rows original.reversed ∨
      table.scan original =
        (table.select original.rows original.reversed).take original.rowsLimit.toNat := by
  unfold Table.scan
  split_ifs with h
  · exact Or.inl rfl
  · exact Or.inr rfl

theorem scan_inOrder (table : Table) (original : ReadRowsRequest) :
    RowsInOrder original.reversed (table.scan original) := by
  rcases scan_eq_take table original with h | h <;> rw [h]
  · exact table.select_inOrder _ _
  · exact (table.select_inOrder _ _).sublist (List.take_sublist _ _)

/-- Once the limit is used up, the whole scan was let through. -/
theorem Advanced.rows_of_limitUsedUp (h : Advanced table original progress accepted rowsReturned)
    (hused : LimitUsedUp original rowsReturned) : outputRows accepted = table.scan original := by
  rw [h.rows, List.take_of_length_le]
  unfold Table.scan
  unfold LimitUsedUp at hused
  rw [if_neg (by omega), List.length_take]
  omega

/-- Below the limit, the progress cuts the selected rows where the counter says. -/
theorem Advanced.filter_select (h : Advanced table original progress accepted rowsReturned)
    (horder : InScanOrder original.reversed accepted) {position : Bytes}
    (hposition : progress = some position) (hlatest : progress = lastKey none accepted)
    (hlimit : 0 ≤ original.rowsLimit) (hused : ¬ LimitUsedUp original rowsReturned) :
    (table.select original.rows original.reversed).filter
        (fun row => Beyond original.reversed position row.key) =
      (table.select original.rows original.reversed).drop rowsReturned.toNat := by
  have hnonneg := h.nonneg
  unfold LimitUsedUp at hused
  apply filter_beyond_eq_drop
  · -- a row that was let through is not beyond the latest one
    intro row hrow hbeyond
    have hmem : row ∈ outputRows accepted := by
      rw [h.rows]
      rcases eq_or_ne original.rowsLimit 0 with hzero | hne
      · rwa [Table.scan, if_pos hzero]
      · rw [Table.scan, if_neg hne, List.take_take, min_eq_left (by omega)]
        exact hrow
    obtain ⟨init, last, rfl, rfl⟩ := exists_of_lastKey_eq_some (hlatest.symm.trans hposition)
    rcases List.mem_append.1 (mem_of_mem_outputRows hmem) with hinit | hlast
    · have hbefore := (List.pairwise_append.1 horder).2.2 _ hinit last (by simp)
      exact hbefore.asymm hbeyond
    · obtain rfl := List.mem_singleton.1 hlast
      exact not_beyond_self _ _ hbeyond
  · -- below the limit, the next row is one the scan still owes
    intro row hrow
    have hahead := h.ahead
    rw [hposition] at hahead
    simp only [after_some] at hahead
    rcases eq_or_ne original.rowsLimit 0 with hzero | hne
    · rw [Table.scan, if_pos hzero] at hahead
      exact hahead row hrow
    · rw [Table.scan, if_neg hne, List.drop_take] at hahead
      have hsorted := (table.select_inOrder original.rows original.reversed).sublist
        (List.drop_sublist rowsReturned.toNat _)
      obtain ⟨count, hcount⟩ : ∃ count,
          original.rowsLimit.toNat - rowsReturned.toNat = count + 1 :=
        Nat.exists_eq_add_one.2 (by omega)
      rw [hcount] at hahead
      cases hrest : (table.select original.rows original.reversed).drop rowsReturned.toNat with
      | nil => simp [hrest] at hrow
      | cons first rest =>
          rw [hrest] at hahead hrow hsorted
          have hfirst : Beyond original.reversed position first.key := hahead first (by simp)
          rcases List.mem_cons.1 hrow with rfl | hmem
          · exact hfirst
          · exact hfirst.trans ((List.pairwise_cons.1 hsorted).1 row hmem)

/-- No range of the request ends at the empty key. -/
def NoEmptyEnds (original : ReadRowsRequest) : Prop :=
  ∀ range ∈ (requestedRows original).rowRanges, ¬ EmptyEnd range

theorem ne_nil_of_lastKey {outputs : List Output} {position : Bytes}
    (hkeys : ∀ output ∈ outputs, output.key ≠ []) (h : lastKey none outputs = some position) :
    position ≠ [] := by
  obtain ⟨init, output, rfl, rfl⟩ := exists_of_lastKey_eq_some h
  exact hkeys output (by simp)

theorem narrowsToUnread_of_noEmptyEnds (rowsReturned : Int) {position : Bytes}
    (hends : NoEmptyEnds original) (hlimit : 0 ≤ original.rowsLimit) (hne : position ≠ []) :
    NarrowsToUnread original position rowsReturned :=
  (narrowsToUnread_iff rowsReturned hlimit hne).2 (Or.inr (emptyEndsHarmless_of_forall hends))

theorem not_limitUsedUp_of_resumeRequest
    (hrequest : resumeRequest original progress rowsReturned = some request) :
    ¬ LimitUsedUp original rowsReturned := by
  intro hused
  cases progress with
  | none => simp [resumeRequest_none_eq, hused] at hrequest
  | some position => simp [resumeRequest_eq, hused] at hrequest

/-- The scan of the request that resumes a read is what the original scan still owes. -/
theorem Advanced.scan_resume (h : Advanced table original progress accepted rowsReturned)
    (horder : InScanOrder original.reversed accepted)
    (hkeys : ∀ output ∈ accepted, output.key ≠ [])
    (hlatest : progress = lastKey none accepted) (hlimit : 0 ≤ original.rowsLimit)
    (hends : NoEmptyEnds original)
    (hrequest : resumeRequest original progress rowsReturned = some request) :
    request.reversed = original.reversed ∧
      table.scan request = (table.scan original).drop rowsReturned.toNat := by
  have hused := not_limitUsedUp_of_resumeRequest hrequest
  have hnonneg := h.nonneg
  cases hprogress : progress with
  | none =>
      have hempty : accepted = [] := lastKey_eq_none (hlatest.symm.trans hprogress)
      have hcount := h.count
      rw [hempty] at hcount
      have hzero : rowsReturned = 0 := by
        simp only [outputRows, List.filterMap_nil, List.length_nil] at hcount
        omega
      rw [hprogress, resumeRequest_none_eq, if_neg hused] at hrequest
      obtain rfl := Option.some.inj hrequest
      simp [Table.scan, remainingLimit, hzero]
  | some position =>
      have hposition : position ≠ [] := ne_nil_of_lastKey hkeys (hlatest.symm.trans hprogress)
      have hnarrow := narrowsToUnread_of_noEmptyEnds rowsReturned hends hlimit hposition
      unfold NarrowsToUnread at hnarrow
      rw [hprogress] at hrequest
      rw [hrequest] at hnarrow
      obtain ⟨rows, hshape, -, hselects, hunlimited, hlimited⟩ := hnarrow
      have hreversed : request.reversed = original.reversed := by rw [hshape]
      have hrows : request.rows = some rows := by rw [hshape]
      have hselect : table.select request.rows request.reversed =
          (table.select original.rows original.reversed).drop rowsReturned.toNat := by
        rw [hreversed, hrows, ← h.filter_select horder hprogress hlatest hlimit hused]
        apply table.select_narrowed
        intro key hne
        rw [selects_some, hselects key hne]
      refine ⟨hreversed, ?_⟩
      unfold Table.scan
      rw [hselect]
      rcases eq_or_ne original.rowsLimit 0 with hzero | hne
      · rw [if_pos (hunlimited hzero), if_pos hzero]
      · obtain ⟨hrest, hpos⟩ := hlimited hne
        have hcount : request.rowsLimit.toNat =
            original.rowsLimit.toNat - rowsReturned.toNat := by omega
        rw [if_neg (by omega), if_neg hne, hcount, List.drop_take]

theorem Advanced.rows_of_resume_none (h : Advanced table original progress accepted rowsReturned)
    (hlatest : progress = lastKey none accepted) (hkeys : ∀ output ∈ accepted, output.key ≠ [])
    (hlimit : 0 ≤ original.rowsLimit) (hends : NoEmptyEnds original)
    (hrequest : resumeRequest original progress rowsReturned = none) :
    outputRows accepted = table.scan original := by
  by_cases hused : LimitUsedUp original rowsReturned
  · exact h.rows_of_limitUsedUp hused
  · cases hprogress : progress with
    | none => simp [hprogress, resumeRequest_none_eq, hused] at hrequest
    | some position =>
        have hposition : position ≠ [] := ne_nil_of_lastKey hkeys (hlatest.symm.trans hprogress)
        have hnarrow := narrowsToUnread_of_noEmptyEnds rowsReturned hends hlimit hposition
        unfold NarrowsToUnread at hnarrow
        rw [hprogress] at hrequest
        rw [hrequest] at hnarrow
        have hnone := hnarrow.resolve_left hused
        have hrest : (table.scan original).drop rowsReturned.toNat = [] := by
          by_contra hne
          obtain ⟨row, hrow⟩ := List.exists_mem_of_ne_nil _ hne
          have hahead := h.ahead row hrow
          rw [hprogress, after_some] at hahead
          have hmem : row ∈ table.select original.rows original.reversed := by
            have hscan := List.mem_of_mem_drop hrow
            rcases scan_eq_take table original with hs | hs <;> rw [hs] at hscan
            · exact hscan
            · exact List.mem_of_mem_take hscan
          exact hnone row.key (table.key_ne_nil_of_mem_select hmem) (table.mem_select.1 hmem).2
            hahead
        rw [h.rows]
        exact List.take_of_length_le (List.drop_eq_nil_iff.1 hrest)

end Resume

/-! ## Answers -/

theorem after_lastKey {reversed : Bool} {earlier : List Output} {key : Bytes}
    (h : ∀ output ∈ earlier, Beyond reversed output.key key) :
    After reversed (lastKey none earlier) key := by
  intro previous hprevious
  obtain ⟨init, output, rfl, rfl⟩ := exists_of_lastKey_eq_some hprevious
  exact h output (by simp)

/-- A stream that answers a request is in scan order from where the client stands. -/
theorem Placed.ordered {reversed : Bool} {earlier : List Output} {pieces : List Piece}
    (h : Placed reversed earlier pieces)
    (hrows : RowsInOrder reversed (outputRows (streamOutputs pieces)))
    (hahead : ∀ row ∈ outputRows (streamOutputs pieces),
      After reversed (lastKey none earlier) row.key) :
    Ordered reversed (lastKey none earlier) pieces := by
  induction pieces generalizing earlier with
  | nil => trivial
  | cons piece pieces ih =>
      cases piece with
      | row key cells =>
          obtain ⟨hfirst, hrest⟩ := List.pairwise_cons.1 hrows
          have hordered := ih h hrest
          rw [lastKey_append_singleton] at hordered
          refine ⟨hahead (decodeRow key cells) List.mem_cons_self, hordered ?_⟩
          intro row hrow
          exact after_some.2 (hfirst row hrow)
      | marker key =>
          obtain ⟨hbehind, hrest, hplaced⟩ := h
          have hordered := ih hplaced hrows
          rw [lastKey_append_singleton] at hordered
          refine ⟨after_lastKey hbehind, hordered ?_⟩
          intro row hrow
          exact after_some.2 (hrest row hrow)
      | abandoned key cells cut reset =>
          obtain ⟨hbehind, hplaced⟩ := h
          exact ⟨after_lastKey hbehind, ih hplaced hrows hahead⟩

end BigtableClient
