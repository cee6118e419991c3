import BigtableClient.Proofs.Abandon

/-!
# Split values

The buffer, the declared size and the count of the bytes that remain are written in
different branches and cleared by different helpers, and an error leaves the merger
wherever it was.  Inside a split cell the three fields always add up, and no byte is
left in the buffer anywhere else.
-/

namespace BigtableClient

open Proto
open ProofSupport.Observation
open ChunkGrammar

namespace RowMerger

variable {merger next : RowMerger} {chunk : CellChunk} {issue : RowMergeIssue} {out : Option Row}

/-- The bytes of a split value that were received and those that remain make up its declared
size; outside a split cell nothing is buffered. -/
structure Accounted (merger : RowMerger) : Prop where
  total : merger.state = .cellValue →
    merger.value.length + merger.remainingValueBytes = merger.expectedValueSize ∧
      0 < merger.expectedValueSize
  empty : merger.state ≠ .cellValue → merger.value = []

theorem accounted_of_value_eq_nil (hstate : merger.state ≠ .cellValue)
    (hvalue : merger.value = []) : merger.Accounted :=
  ⟨fun h => absurd h hstate, fun _ => hvalue⟩

theorem accounted_new (reversed : Bool) : (RowMerger.new reversed).Accounted :=
  accounted_of_value_eq_nil nofun rfl

theorem accounted_clearActiveRow (merger : RowMerger) : merger.clearActiveRow.Accounted :=
  accounted_of_value_eq_nil nofun rfl

theorem accounted_commitRow (merger : RowMerger) : merger.commitRow.1.Accounted :=
  accounted_of_value_eq_nil nofun rfl

theorem accounted_endCell (merger : RowMerger) : merger.endCell.Accounted :=
  accounted_of_value_eq_nil nofun rfl

/-! ## Starting a cell -/

/-- A reset that carries data changes nothing. -/
theorem startCell_reset_error (hreset : chunk.isReset = true)
    (h : merger.startCell chunk = (next, .error issue)) : next = merger := by
  unfold startCell at h
  rw [if_pos hreset] at h
  cases hr : validateReset chunk with
  | error issue =>
      rw [hr] at h
      exact (Prod.mk.inj h).1.symm
  | ok _ =>
      rw [hr] at h
      cases h

/-- A chunk of a cell that is rejected leaves nothing in the buffer. -/
theorem startCell_error (hvalue : merger.value = [])
    (h : merger.startCell chunk = (next, .error issue)) :
    next.state = merger.state ∧ next.value = [] := by
  by_cases hreset : chunk.isReset = true
  · rw [startCell_reset_error hreset h]
    exact ⟨rfl, hvalue⟩
  unfold startCell at h
  rw [if_neg hreset] at h
  by_cases hkey : chunk.rowKey ≠ [] ∧ chunk.rowKey ≠ merger.row.key
  · rw [if_pos hkey] at h
    obtain ⟨rfl, -⟩ := Prod.mk.inj h
    exact ⟨rfl, hvalue⟩
  rw [if_neg hkey] at h
  by_cases hfamily : chunk.familyName.isSome ∧ chunk.qualifier.isNone
  · rw [if_pos hfamily] at h
    obtain ⟨rfl, -⟩ := Prod.mk.inj h
    exact ⟨rfl, hvalue⟩
  rw [if_neg hfamily] at h
  by_cases hneg : chunk.valueSize < 0
  · rw [if_pos hneg] at h
    obtain ⟨rfl, -⟩ := Prod.mk.inj h
    exact ⟨rfl, hvalue⟩
  rw [if_neg hneg] at h
  by_cases hpos : 0 < chunk.valueSize
  · rw [if_pos hpos, usizeTryFrom_of_nonneg (Int.le_of_lt hpos)] at h
    by_cases hempty : chunk.value = []
    · rw [if_pos hempty] at h
      obtain ⟨rfl, -⟩ := Prod.mk.inj h
      exact ⟨rfl, rfl⟩
    rw [if_neg hempty] at h
    by_cases hcommit : chunk.isCommit = true
    · rw [if_pos hcommit] at h
      obtain ⟨rfl, -⟩ := Prod.mk.inj h
      exact ⟨rfl, rfl⟩
    rw [if_neg hcommit] at h
    by_cases hlarge : chunk.value.length > chunk.valueSize.toNat
    · simp only [if_pos hlarge] at h
      obtain ⟨rfl, -⟩ := Prod.mk.inj h
      exact ⟨rfl, rfl⟩
    · simp only [if_neg hlarge] at h
      cases h
  · rw [if_neg hpos] at h
    by_cases hcommit : chunk.isCommit = true
    · rw [if_pos hcommit] at h
      cases h
    · rw [if_neg hcommit] at h
      cases h

theorem accounted_splitCell (merger : RowMerger)
    (hsplit : CellChunks.AnnouncesSplit ⟨chunk, []⟩) :
    (merger.splitCell chunk).Accounted := by
  obtain ⟨hpos, -, hfits⟩ := hsplit
  have hpos : 0 < chunk.valueSize := hpos
  have hfits : (chunk.value.length : Int) ≤ chunk.valueSize := hfits
  refine ⟨fun _ => ⟨?_, ?_⟩, fun h => absurd rfl h⟩
  · show chunk.value.length + (chunk.valueSize.toNat - chunk.value.length) =
      chunk.valueSize.toNat
    omega
  · show 0 < chunk.valueSize.toNat
    omega

theorem accounted_startCell (hstate : merger.state = .newCell) (hvalue : merger.value = [])
    (chunk : CellChunk) : (merger.startCell chunk).1.Accounted := by
  rcases h : merger.startCell chunk with ⟨next, issue | out⟩
  · obtain ⟨hkept, hempty⟩ := startCell_error hvalue h
    apply accounted_of_value_eq_nil _ hempty
    rw [hkept, hstate]
    nofun
  · cases hreset : chunk.isReset with
    | true =>
        obtain ⟨-, rfl, -⟩ := (startCell_reset hreset).1 h
        exact accounted_clearActiveRow merger
    | false =>
        obtain ⟨-, ⟨-, -, rfl, -⟩ | ⟨-, -, rfl, -⟩ | ⟨hsplit, -, rfl, -⟩⟩ :=
          (startCell_eq_ok hreset).1 h
        · exact accounted_endCell _
        · exact accounted_commitRow _
        · exact accounted_splitCell merger hsplit

/-- Only the first chunk of a split value leads into a split cell. -/
theorem startCell_cellValue (hstate : merger.state = .newCell) (hvalue : merger.value = [])
    (h : (merger.startCell chunk).1.state = .cellValue) :
    CellChunks.AnnouncesSplit ⟨chunk, []⟩ ∧
      (merger.startCell chunk).1 = merger.splitCell chunk := by
  rcases hstart : merger.startCell chunk with ⟨next, issue | out⟩
  · rw [hstart] at h
    obtain ⟨hkept, -⟩ := startCell_error hvalue hstart
    rw [← hkept, show next.state = .cellValue from h] at hstate
    cases hstate
  · rw [hstart] at h
    cases hreset : chunk.isReset with
    | true =>
        obtain ⟨-, rfl, -⟩ := (startCell_reset hreset).1 hstart
        cases h
    | false =>
        obtain ⟨-, ⟨-, -, rfl, -⟩ | ⟨-, -, rfl, -⟩ | ⟨hsplit, -, rfl, -⟩⟩ :=
          (startCell_eq_ok hreset).1 hstart
        · cases h
        · cases h
        · exact ⟨hsplit, rfl⟩

theorem push_of_ne_cellValue (hstate : merger.state ≠ .cellValue) (chunk : CellChunk) :
    (∃ issue, merger.push chunk = (merger, .error issue)) ∨
      ∃ opened : RowMerger, opened.state = .newCell ∧ opened.value = merger.value ∧
        merger.push chunk = opened.startCell chunk := by
  cases hphase : merger.state with
  | cellValue => exact absurd hphase hstate
  | newCell => exact Or.inr ⟨merger, hphase, rfl, push_of_newCell hphase chunk⟩
  | newRow =>
      rw [push_of_newRow hphase]
      unfold startRow
      split_ifs
      · exact Or.inl ⟨_, rfl⟩
      · exact Or.inl ⟨_, rfl⟩
      · cases chunk.familyName with
        | none => exact Or.inl ⟨_, rfl⟩
        | some family =>
            cases chunk.qualifier with
            | none => exact Or.inl ⟨_, rfl⟩
            | some qualifier =>
                cases merger.validateOrder chunk.rowKey with
                | error issue => exact Or.inl ⟨_, rfl⟩
                | ok _ =>
                    exact Or.inr
                      ⟨{ merger with
                          row := { key := chunk.rowKey, families := [] }
                          family := family
                          qualifier := qualifier
                          state := .newCell }, rfl, rfl, rfl⟩

/-! ## Continuing a split cell -/

/-- Every check of a further chunk comes before the first change. -/
theorem continueCell_error (h : merger.continueCell chunk = (next, .error issue)) :
    next = merger := by
  by_cases hreset : chunk.isReset = true
  · rw [continueCell_reset hreset] at h
    exact startCell_reset_error hreset h
  unfold continueCell at h
  rw [if_neg hreset] at h
  by_cases hmeta : chunk.rowKey ≠ [] ∨ chunk.familyName.isSome ∨ chunk.qualifier.isSome ∨
      chunk.timestampMicros ≠ 0 ∨ chunk.labels ≠ []
  · rw [if_pos hmeta] at h
    exact (Prod.mk.inj h).1.symm
  rw [if_neg hmeta] at h
  by_cases hneg : chunk.valueSize < 0
  · rw [if_pos hneg] at h
    exact (Prod.mk.inj h).1.symm
  rw [if_neg hneg] at h
  by_cases hlarge : chunk.value.length > merger.remainingValueBytes
  · rw [if_pos hlarge] at h
    exact (Prod.mk.inj h).1.symm
  rw [if_neg hlarge] at h
  by_cases hterminal : chunk.valueSize = 0
  · rw [if_pos hterminal] at h
    by_cases hsize : chunk.value.length ≠ merger.remainingValueBytes
    · rw [if_pos hsize] at h
      exact (Prod.mk.inj h).1.symm
    rw [if_neg hsize] at h
    by_cases hcommit : chunk.isCommit = true
    · rw [if_pos hcommit] at h
      cases h
    · rw [if_neg hcommit] at h
      cases h
  · rw [if_neg hterminal, usizeTryFrom_of_nonneg (Int.not_lt.1 hneg)] at h
    by_cases hchanged : chunk.valueSize.toNat ≠ merger.expectedValueSize
    · simp only [if_pos hchanged] at h
      exact (Prod.mk.inj h).1.symm
    simp only [if_neg hchanged] at h
    by_cases hcommit : chunk.isCommit = true
    · rw [if_pos hcommit] at h
      exact (Prod.mk.inj h).1.symm
    · rw [if_neg hcommit] at h
      cases h

theorem accounted_extendCell (h : merger.Accounted) (hstate : merger.state = .cellValue)
    (hfits : chunk.value.length ≤ merger.remainingValueBytes) :
    (merger.extendCell chunk).Accounted := by
  obtain ⟨htotal, hpos⟩ := h.total hstate
  refine ⟨fun _ => ⟨?_, hpos⟩, fun hne => absurd hstate hne⟩
  show (merger.value ++ chunk.value).length +
    (merger.remainingValueBytes - chunk.value.length) = merger.expectedValueSize
  rw [List.length_append]
  omega

theorem accounted_continueCell (h : merger.Accounted) (hstate : merger.state = .cellValue)
    (chunk : CellChunk) : (merger.continueCell chunk).1.Accounted := by
  rcases hpush : merger.continueCell chunk with ⟨next, issue | out⟩
  · rw [continueCell_error hpush]
    exact h
  · cases hreset : chunk.isReset with
    | true =>
        rw [continueCell_reset hreset] at hpush
        obtain ⟨-, rfl, -⟩ := (startCell_reset hreset).1 hpush
        exact accounted_clearActiveRow merger
    | false =>
        obtain ⟨-, ⟨-, -, -, rfl, -⟩ | ⟨-, -, -, rfl, -⟩ | ⟨-, hfits, -, -, rfl, -⟩⟩ :=
          (continueCell_eq_ok hreset).1 hpush
        · exact accounted_endCell _
        · exact accounted_commitRow _
        · exact accounted_extendCell h hstate hfits

/-! ## Calls -/

theorem accounted_push (h : merger.Accounted) (chunk : CellChunk) :
    (merger.push chunk).1.Accounted := by
  by_cases hstate : merger.state = .cellValue
  · rw [push_of_cellValue hstate]
    exact accounted_continueCell h hstate chunk
  · rcases push_of_ne_cellValue hstate chunk with ⟨issue, hpush⟩ | ⟨opened, hopen, hvalue, hpush⟩
    · rw [hpush]
      exact h
    · rw [hpush]
      exact accounted_startCell hopen (hvalue.trans (h.empty hstate)) chunk

theorem accounted_scanMarker (h : merger.Accounted) (key : Bytes) :
    (merger.scanMarker key).1.Accounted := by
  unfold scanMarker
  split_ifs
  · exact h
  · cases merger.validateOrder key with
    | error issue => exact h
    | ok _ => exact ⟨h.total, h.empty⟩

theorem accounted_discardPartial (h : merger.Accounted) : merger.discardPartial.Accounted := by
  unfold discardPartial
  split_ifs
  · exact accounted_clearActiveRow merger
  · exact h

theorem accounted_respond (h : merger.Accounted) (call : MergerCall) :
    (merger.respond call).1.Accounted := by
  cases call with
  | push chunk => exact accounted_push h chunk
  | scanMarker key => exact accounted_scanMarker h key
  | discardPartial => exact accounted_discardPartial h
  | finish => exact h

def workedRow : Outcome → Row
  | (_, .ok (some row)) => row
  | (next, _) => next.row

/-- What a push does to the bytes of a value. -/
structure SplitSound (merger : RowMerger) (chunk : CellChunk) : Prop where
  /-- a split cell starts with the bytes of its first chunk, and the rest of its declared size
  remains -/
  starts : merger.state ≠ .cellValue → (merger.push chunk).1.state = .cellValue →
    (merger.push chunk).1.value = chunk.value ∧
      ((merger.push chunk).1.expectedValueSize : Int) = chunk.valueSize ∧
      chunk.value.length + (merger.push chunk).1.remainingValueBytes =
        (merger.push chunk).1.expectedValueSize
  /-- a chunk that is accepted into a split cell has no more bytes than remain -/
  continues : merger.state = .cellValue → chunk.isReset = false → (merger.push chunk).2.isOk →
    chunk.value.length ≤ merger.remainingValueBytes ∧
      ((merger.push chunk).1.state = .cellValue →
        (merger.push chunk).1.value = merger.value ++ chunk.value ∧
          (merger.push chunk).1.expectedValueSize = merger.expectedValueSize ∧
          chunk.value.length + (merger.push chunk).1.remainingValueBytes =
            merger.remainingValueBytes)
  /-- the cell that a split value is finished into has exactly its declared size -/
  finishes : merger.state = .cellValue → chunk.isReset = false → (merger.push chunk).2.isOk →
    (merger.push chunk).1.state ≠ .cellValue →
    ∃ cell : Cell, cell.value = merger.value ++ chunk.value ∧
      cell.value.length = merger.expectedValueSize ∧
      workedRow (merger.push chunk) =
        { merger.row with
          families := pushCell merger.row.families merger.family merger.qualifier cell }
  /-- a failure inside a split cell changes nothing -/
  fails : merger.state = .cellValue → (merger.push chunk).2.isOk = false →
    (merger.push chunk).1 = merger

theorem starts_of_accounted (h : merger.Accounted) (hstate : merger.state ≠ .cellValue)
    (hnext : (merger.push chunk).1.state = .cellValue) :
    (merger.push chunk).1.value = chunk.value ∧
      ((merger.push chunk).1.expectedValueSize : Int) = chunk.valueSize ∧
      chunk.value.length + (merger.push chunk).1.remainingValueBytes =
        (merger.push chunk).1.expectedValueSize := by
  rcases push_of_ne_cellValue hstate chunk with ⟨issue, hpush⟩ | ⟨opened, hopen, hvalue, hpush⟩
  · rw [hpush] at hnext
    exact absurd hnext hstate
  · rw [hpush] at hnext ⊢
    obtain ⟨hsplit, hsplitCell⟩ :=
      startCell_cellValue hopen (hvalue.trans (h.empty hstate)) hnext
    rw [hsplitCell]
    obtain ⟨htotal, hpos⟩ := (accounted_splitCell opened hsplit).total rfl
    refine ⟨rfl, ?_, htotal⟩
    exact Int.toNat_of_nonneg (Int.le_of_lt hsplit.1)

/-- What an accepted chunk does inside a split cell. -/
theorem push_split_eq_ok (hstate : merger.state = .cellValue) (hreset : chunk.isReset = false)
    (h : merger.push chunk = (next, .ok out)) :
    (chunk.value.length = merger.remainingValueBytes ∧ next.state ≠ .cellValue ∧
        workedRow (next, .ok out) = (merger.extendCell chunk).finishCell.row) ∨
      chunk.value.length ≤ merger.remainingValueBytes ∧ next = merger.extendCell chunk := by
  rw [push_of_cellValue hstate] at h
  obtain ⟨-, ⟨-, hsize, -, rfl, rfl⟩ | ⟨-, hsize, -, rfl, rfl⟩ | ⟨-, hfits, -, -, rfl, -⟩⟩ :=
    (continueCell_eq_ok hreset).1 h
  · exact Or.inl ⟨hsize, nofun, rfl⟩
  · exact Or.inl ⟨hsize, nofun, rfl⟩
  · exact Or.inr ⟨hfits, rfl⟩

theorem splitSound_of_accounted (h : merger.Accounted) (chunk : CellChunk) :
    merger.SplitSound chunk where
  starts := starts_of_accounted h
  continues := by
    intro hstate hreset hok
    rcases hpush : merger.push chunk with ⟨next, issue | out⟩
    · rw [hpush] at hok
      cases hok
    · rcases push_split_eq_ok hstate hreset hpush with ⟨hsize, hleft, -⟩ | ⟨hfits, rfl⟩
      · exact ⟨Nat.le_of_eq hsize, fun hnext => absurd hnext hleft⟩
      · refine ⟨hfits, fun _ => ⟨rfl, rfl, ?_⟩⟩
        show chunk.value.length + (merger.remainingValueBytes - chunk.value.length) =
          merger.remainingValueBytes
        omega
  finishes := by
    intro hstate hreset hok hleft
    rcases hpush : merger.push chunk with ⟨next, issue | out⟩
    · rw [hpush] at hok
      cases hok
    · rw [hpush] at hleft
      obtain ⟨htotal, -⟩ := h.total hstate
      rcases push_split_eq_ok hstate hreset hpush with ⟨hsize, -, hrow⟩ | ⟨-, rfl⟩
      · refine ⟨_, rfl, ?_, hrow⟩
        show (merger.value ++ chunk.value).length = merger.expectedValueSize
        rw [List.length_append, hsize]
        exact htotal
      · exact absurd hstate hleft
  fails := by
    intro hstate hfailed
    rcases hpush : merger.push chunk with ⟨next, issue | out⟩
    · rw [push_of_cellValue hstate] at hpush
      exact continueCell_error hpush
    · rw [hpush] at hfailed
      cases hfailed

/-- Split-value arithmetic is sound in every state that any calls lead to, accepted or not. -/
theorem split_values_sound (reversed : Bool) (calls : List MergerCall) (chunk : CellChunk) :
    (after respond (RowMerger.new reversed) calls).Accounted ∧
      (after respond (RowMerger.new reversed) calls).SplitSound chunk := by
  have haccounted : (after respond (RowMerger.new reversed) calls).Accounted :=
    after_invariant Accounted (fun _ call hinv => accounted_respond hinv call)
      (accounted_new reversed) calls
  exact ⟨haccounted, splitSound_of_accounted haccounted chunk⟩

/-- A marker in the middle of a split cell is refused, and three bytes of the cell remain. -/
example :
    let merger := after respond (RowMerger.new false) [.push cutChunk, .scanMarker [99]]
    merger.state = .cellValue ∧ merger.value = [1] ∧ merger.remainingValueBytes = 3 := by
  decide

end RowMerger

end BigtableClient
