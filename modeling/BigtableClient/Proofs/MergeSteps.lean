import BigtableClient.ChunkGrammar

/-!
# One call to the merger

What each call does when it succeeds, as one equivalence for each function, and
the fold of calls over a stream.
-/

namespace BigtableClient

open Proto
open ProofSupport.Grouping
open ProofSupport.ScanOrder (After Beyond)
open ChunkGrammar

/-! ## Grouped families -/

/-- Pushing a cell files it as the last one received. -/
theorem pushCell_families (acc : List Received) (family : String) (qualifier : Bytes)
    (cell : Cell) :
    RowMerger.pushCell (families acc) family qualifier cell =
      families (acc ++ [{ family := family, qualifier := qualifier, cell := cell }]) := by
  have hcolumn : ∀ cells : List (Bytes × Cell),
      upsert Column.qualifier qualifier
          (fun column => { column with cells := column.cells ++ [cell] })
          { qualifier := qualifier, cells := [cell] } (groups buildColumn cells) =
        groups buildColumn (cells ++ [(qualifier, cell)]) := fun cells =>
    upsert_groups (fun _ _ => rfl) cells qualifier cell rfl
  have hfresh : ({ name := family, columns := [{ qualifier := qualifier, cells := [cell] }] } :
      Family) = buildFamily family [(qualifier, cell)] := by
    rw [buildFamily, groups_singleton]
    rfl
  unfold RowMerger.pushCell families
  rw [List.map_append, List.map_singleton, hfresh]
  apply upsert_groups (fun _ _ => rfl)
  rw [buildFamily, hcolumn]
  rfl

namespace RowMerger

/-! ## Order checks -/

theorem validateOrder_eq_ok (merger : RowMerger) (key : Bytes) :
    merger.validateOrder key = .ok () ↔ After merger.reversed merger.lastCompleteKey key := by
  unfold validateOrder
  cases merger.lastCompleteKey with
  | none => simp
  | some previous => cases merger.reversed <;> simp [Beyond]

theorem validateReset_eq_ok (chunk : CellChunk) :
    validateReset chunk = .ok () ↔
      MetadataFree chunk ∧ chunk.value = [] ∧ chunk.valueSize = 0 := by
  unfold validateReset MetadataFree
  split_ifs with h
  · simp only [false_iff]
    intro ⟨⟨h1, h2, h3, h4, h5⟩, h6, h7⟩
    simp [h1, h2, h3, h4, h5, h6, h7] at h
  · simp only [not_or, not_not, Option.isSome_iff_ne_none, ne_eq] at h
    obtain ⟨h1, h2, h3, h4, h5, h6, h7⟩ := h
    exact ⟨fun _ => ⟨⟨h1, h2, h3, h4, h5⟩, h6, h7⟩, fun _ => rfl⟩

/-! ## Starting a cell -/

/-- The merger with the metadata and the bytes of a cell's first chunk. -/
def loadCell (merger : RowMerger) (chunk : CellChunk) : RowMerger :=
  { merger with
    family := chunk.familyName.getD merger.family
    qualifier := chunk.qualifier.getD merger.qualifier
    timestampMicros := chunk.timestampMicros
    labels := chunk.labels
    value := chunk.value }

def splitCell (merger : RowMerger) (chunk : CellChunk) : RowMerger :=
  { merger.loadCell chunk with
    expectedValueSize := chunk.valueSize.toNat
    remainingValueBytes := chunk.valueSize.toNat - chunk.value.length
    state := .cellValue }

def endCell (merger : RowMerger) : RowMerger :=
  { merger.finishCell with state := .newCell }

theorem startCell_reset {merger : RowMerger} {chunk : CellChunk} (hreset : chunk.isReset = true)
    {merger' : RowMerger} {out : Option Row} :
    merger.startCell chunk = (merger', .ok out) ↔
      BareReset chunk ∧ merger' = merger.clearActiveRow ∧ out = none := by
  have hiff := validateReset_eq_ok chunk
  unfold startCell BareReset
  rw [if_pos hreset]
  cases hr : validateReset chunk with
  | error issue =>
      rw [hr] at hiff
      simp only [reduceCtorEq, false_iff] at hiff
      simp [hreset, hiff]
  | ok _ =>
      have hbare := hiff.1 hr
      simp only [hreset, hbare, and_self, true_and, Prod.mk.injEq, Except.ok.injEq]
      exact ⟨fun h => ⟨h.1.symm, h.2.symm⟩, fun h => ⟨h.1.symm, h.2.symm⟩⟩

theorem startCell_eq_ok {merger : RowMerger} {chunk : CellChunk} (hreset : chunk.isReset = false)
    {merger' : RowMerger} {out : Option Row} :
    merger.startCell chunk = (merger', .ok out) ↔
      ContinuesRow merger.row.key chunk ∧
        ((chunk.valueSize = 0 ∧ chunk.isCommit = false ∧
            merger' = (merger.loadCell chunk).endCell ∧ out = none) ∨
          (chunk.valueSize = 0 ∧ chunk.isCommit = true ∧
            merger' = (merger.loadCell chunk).finishCell.commitRow.1 ∧
            out = some (merger.loadCell chunk).finishCell.row) ∨
          (CellChunks.AnnouncesSplit ⟨chunk, []⟩ ∧ chunk.isCommit = false ∧
            merger' = merger.splitCell chunk ∧ out = none)) := by
  unfold startCell ContinuesRow CellChunks.AnnouncesSplit
  rw [if_neg (by simp [hreset])]
  by_cases hkey : chunk.rowKey ≠ [] ∧ chunk.rowKey ≠ merger.row.key
  · rw [if_pos hkey]
    simp [hkey.1, hkey.2]
  have hkey' : chunk.rowKey = [] ∨ chunk.rowKey = merger.row.key := by tauto
  rw [if_neg hkey]
  by_cases hfamily : chunk.familyName.isSome ∧ chunk.qualifier.isNone
  · rw [if_pos hfamily]
    simp [hfamily.1, Option.isNone_iff_eq_none.1 hfamily.2]
  have hfamily' : chunk.familyName.isSome → chunk.qualifier.isSome := by
    intro h
    by_contra hq
    exact hfamily ⟨h, by simpa using hq⟩
  rw [if_neg hfamily]
  simp only [hkey', true_and, List.nil_append]
  by_cases hneg : chunk.valueSize < 0
  · rw [if_pos hneg]
    have h1 : ¬ chunk.valueSize = 0 := by omega
    have h2 : ¬ 0 < chunk.valueSize := by omega
    simp [h1, h2]
  rw [if_neg hneg]
  by_cases hpos : 0 < chunk.valueSize
  · have h0 : ¬ chunk.valueSize = 0 := by omega
    rw [if_pos hpos, usizeTryFrom_of_nonneg (Int.le_of_lt hpos)]
    simp only [h0, hpos, false_and, false_or, true_and]
    by_cases hvalue : chunk.value = []
    · simp [hvalue]
    by_cases hcommit : chunk.isCommit = true
    · simp [hvalue, hcommit]
    by_cases hlarge : chunk.value.length > chunk.valueSize.toNat
    · have hlarge' : ¬ (chunk.value.length : Int) ≤ chunk.valueSize := by omega
      simp [hvalue, hcommit, hlarge, hlarge']
    have hlarge' : (chunk.value.length : Int) ≤ chunk.valueSize := by omega
    simp only [hvalue, hcommit, hlarge, hlarge', if_false, Bool.false_eq_true, ne_eq,
      not_false_eq_true, true_and, Prod.mk.injEq, Except.ok.injEq]
    exact ⟨fun h => ⟨hfamily', h.1.symm, h.2.symm⟩, fun h => ⟨h.2.1.symm, h.2.2.symm⟩⟩
  · have h0 : chunk.valueSize = 0 := by omega
    rw [if_neg hpos]
    by_cases hcommit : chunk.isCommit = true
    · simp only [h0, hcommit, Int.lt_irrefl, if_true, Bool.true_eq_false, false_and, and_false,
        false_or, or_false, true_and, Prod.mk.injEq, Except.ok.injEq]
      exact ⟨fun h => ⟨hfamily', h.1.symm, h.2.symm⟩, fun h => ⟨h.2.1.symm, h.2.2.symm⟩⟩
    · simp only [h0, hcommit, Int.lt_irrefl, if_false, Bool.false_eq_true, false_and,
        or_false, true_and, Prod.mk.injEq, Except.ok.injEq]
      exact ⟨fun h => ⟨hfamily', h.1.symm, h.2.symm⟩, fun h => ⟨h.2.1.symm, h.2.2.symm⟩⟩

/-! ## Starting a row -/

/-- The merger with a row opened by its first chunk. -/
def openRow (merger : RowMerger) (chunk : CellChunk) : RowMerger :=
  { merger with
    row := { key := chunk.rowKey, families := [] }
    family := chunk.familyName.getD merger.family
    qualifier := chunk.qualifier.getD merger.qualifier
    state := .newCell }

theorem startRow_eq_ok {merger merger' : RowMerger} {chunk : CellChunk} {out : Option Row} :
    merger.startRow chunk = (merger', .ok out) ↔
      chunk.isReset = false ∧ StartsRow chunk.rowKey chunk ∧
        After merger.reversed merger.lastCompleteKey chunk.rowKey ∧
        (merger.openRow chunk).startCell chunk = (merger', .ok out) := by
  unfold startRow StartsRow openRow
  by_cases hreset : chunk.isReset = true
  · simp [hreset]
  by_cases hkey : chunk.rowKey = []
  · simp [hreset, hkey]
  rw [if_neg hreset, if_neg hkey]
  cases hf : chunk.familyName with
  | none => simp
  | some family =>
      cases hq : chunk.qualifier with
      | none => simp
      | some qualifier =>
          have hiff := validateOrder_eq_ok merger chunk.rowKey
          cases ho : merger.validateOrder chunk.rowKey with
          | error issue =>
              rw [ho] at hiff
              simp only [reduceCtorEq, false_iff] at hiff
              simp [hiff]
          | ok _ => simp [hiff.1 ho, hkey, hreset]

/-! ## Continuing a split cell -/

def extendCell (merger : RowMerger) (chunk : CellChunk) : RowMerger :=
  { merger with
    value := merger.value ++ chunk.value
    remainingValueBytes := merger.remainingValueBytes - chunk.value.length }

theorem continueCell_reset {merger : RowMerger} {chunk : CellChunk}
    (hreset : chunk.isReset = true) :
    merger.continueCell chunk = merger.startCell chunk := by
  unfold continueCell startCell
  rw [if_pos hreset, if_pos hreset]

theorem continueCell_eq_ok {merger : RowMerger} {chunk : CellChunk}
    (hreset : chunk.isReset = false) {merger' : RowMerger} {out : Option Row} :
    merger.continueCell chunk = (merger', .ok out) ↔
      MetadataFree chunk ∧
        ((chunk.valueSize = 0 ∧ chunk.value.length = merger.remainingValueBytes ∧
            chunk.isCommit = false ∧ merger' = (merger.extendCell chunk).endCell ∧ out = none) ∨
          (chunk.valueSize = 0 ∧ chunk.value.length = merger.remainingValueBytes ∧
            chunk.isCommit = true ∧
            merger' = (merger.extendCell chunk).finishCell.commitRow.1 ∧
            out = some (merger.extendCell chunk).finishCell.row) ∨
          (0 < chunk.valueSize ∧ chunk.value.length ≤ merger.remainingValueBytes ∧
            chunk.valueSize.toNat = merger.expectedValueSize ∧ chunk.isCommit = false ∧
            merger' = merger.extendCell chunk ∧ out = none)) := by
  unfold continueCell MetadataFree
  rw [if_neg (by simp [hreset])]
  by_cases hmeta : chunk.rowKey ≠ [] ∨ chunk.familyName.isSome ∨ chunk.qualifier.isSome ∨
      chunk.timestampMicros ≠ 0 ∨ chunk.labels ≠ []
  · rw [if_pos hmeta]
    simp only [Prod.mk.injEq, reduceCtorEq, and_false, false_iff]
    rintro ⟨⟨h1, h2, h3, h4, h5⟩, -⟩
    simp [h1, h2, h3, h4, h5] at hmeta
  rw [if_neg hmeta]
  simp only [not_or, not_not, Option.isSome_iff_ne_none, ne_eq] at hmeta
  simp only [hmeta, and_self, true_and]
  by_cases hneg : chunk.valueSize < 0
  · rw [if_pos hneg]
    have h1 : ¬ chunk.valueSize = 0 := by omega
    have h2 : ¬ 0 < chunk.valueSize := by omega
    simp [h1, h2]
  rw [if_neg hneg]
  by_cases hlarge : chunk.value.length > merger.remainingValueBytes
  · rw [if_pos hlarge]
    have h1 : ¬ chunk.value.length = merger.remainingValueBytes := by omega
    have h2 : ¬ chunk.value.length ≤ merger.remainingValueBytes := by omega
    simp [h1, h2]
  rw [if_neg hlarge]
  by_cases h0 : chunk.valueSize = 0
  · simp only [h0, if_true, Int.lt_irrefl, false_and, or_false, true_and]
    by_cases hsize : chunk.value.length = merger.remainingValueBytes
    · rw [if_neg (not_not.2 hsize)]
      by_cases hcommit : chunk.isCommit = true
      · simp only [eq_true hsize, hcommit, if_true, true_and, Bool.true_eq_false, false_and,
          false_or, Prod.mk.injEq, Except.ok.injEq]
        exact ⟨fun h => ⟨h.1.symm, h.2.symm⟩, fun h => ⟨h.1.symm, h.2.symm⟩⟩
      · simp only [eq_true hsize, hcommit, if_false, true_and, Bool.false_eq_true, false_and,
          or_false, Prod.mk.injEq, Except.ok.injEq]
        exact ⟨fun h => ⟨h.1.symm, h.2.symm⟩, fun h => ⟨h.1.symm, h.2.symm⟩⟩
    · simp [hsize]
  · have hpos : 0 < chunk.valueSize := by omega
    have hle : chunk.value.length ≤ merger.remainingValueBytes := by omega
    rw [if_neg h0, usizeTryFrom_of_nonneg (Int.le_of_lt hpos)]
    simp only [h0, hpos, hle, false_and, false_or, true_and]
    by_cases hexpected : chunk.valueSize.toNat = merger.expectedValueSize
    · by_cases hcommit : chunk.isCommit = true
      · simp [hexpected, hcommit]
      · simp only [hexpected, hcommit, ne_eq, not_true_eq_false, if_false, true_and,
          Bool.false_eq_true, Prod.mk.injEq, Except.ok.injEq]
        exact ⟨fun h => ⟨h.1.symm, h.2.symm⟩, fun h => ⟨h.1.symm, h.2.symm⟩⟩
    · simp [hexpected]

/-! ## Feeding a stream -/

/-- Feed one item, keeping what the merger reports. -/
def accept (merger : RowMerger) : Item → Except RowMergeIssue (RowMerger × List Output)
  | .marker key =>
      match merger.scanMarker key with
      | (merger, .ok ()) => .ok (merger, [.marker key])
      | (_, .error issue) => .error issue
  | .chunk chunk =>
      match merger.push chunk with
      | (merger, .ok none) => .ok (merger, [])
      | (merger, .ok (some row)) => .ok (merger, [.row row])
      | (_, .error issue) => .error issue

def feed (merger : RowMerger) : List Item → Except RowMergeIssue (RowMerger × List Output)
  | [] => .ok (merger, [])
  | item :: items =>
      match merger.accept item with
      | .error issue => .error issue
      | .ok (merger, outputs) =>
          match merger.feed items with
          | .error issue => .error issue
          | .ok (merger, more) => .ok (merger, outputs ++ more)

@[simp] theorem feed_nil (merger : RowMerger) : merger.feed [] = .ok (merger, []) := rfl

theorem feed_cons_eq_ok {merger merger' : RowMerger} {item : Item} {items : List Item}
    {outputs : List Output} :
    merger.feed (item :: items) = .ok (merger', outputs) ↔
      ∃ next first more, merger.accept item = .ok (next, first) ∧
        next.feed items = .ok (merger', more) ∧ outputs = first ++ more := by
  rw [feed]
  cases haccept : merger.accept item with
  | error issue => simp
  | ok result =>
      obtain ⟨next, first⟩ := result
      cases hfeed : next.feed items with
      | error issue => simp [hfeed]
      | ok result =>
          obtain ⟨last, more⟩ := result
          simp [hfeed, eq_comm]

theorem feed_append_eq_ok {merger merger' : RowMerger} {items more : List Item}
    {outputs : List Output} :
    merger.feed (items ++ more) = .ok (merger', outputs) ↔
      ∃ next first rest, merger.feed items = .ok (next, first) ∧
        next.feed more = .ok (merger', rest) ∧ outputs = first ++ rest := by
  induction items generalizing merger outputs with
  | nil => simp
  | cons item items ih =>
      simp only [List.cons_append, feed_cons_eq_ok, ih]
      constructor
      · rintro ⟨next, first, _, haccept, ⟨last, rest, tail, hitems, hmore, rfl⟩, rfl⟩
        exact ⟨last, first ++ rest, tail, ⟨next, first, rest, haccept, hitems, rfl⟩, hmore,
          (List.append_assoc _ _ _).symm⟩
      · rintro ⟨last, _, tail, ⟨next, first, rest, haccept, hitems, rfl⟩, hmore, rfl⟩
        exact ⟨next, first, rest ++ tail, haccept, ⟨last, rest, tail, hitems, hmore, rfl⟩,
          List.append_assoc _ _ _⟩

theorem accept_chunk_eq_ok {merger merger' : RowMerger} {chunk : CellChunk}
    {outputs : List Output} :
    merger.accept (.chunk chunk) = .ok (merger', outputs) ↔
      ∃ out, merger.push chunk = (merger', .ok out) ∧ outputs = (out.map Output.row).toList := by
  rw [accept]
  cases hpush : merger.push chunk with
  | mk next result =>
      cases result with
      | error issue => simp
      | ok out => cases out <;> simp [eq_comm]

theorem accept_marker_eq_ok {merger merger' : RowMerger} {key : Bytes} {outputs : List Output} :
    merger.accept (.marker key) = .ok (merger', outputs) ↔
      merger.state = .newRow ∧ After merger.reversed merger.lastCompleteKey key ∧
        merger' = { merger with lastCompleteKey := some key } ∧ outputs = [.marker key] := by
  rw [accept, scanMarker]
  by_cases hstate : merger.state = .newRow
  · have hiff := validateOrder_eq_ok merger key
    rw [if_neg (by simpa using hstate)]
    cases ho : merger.validateOrder key with
    | error issue =>
        rw [ho] at hiff
        simp only [reduceCtorEq, false_iff] at hiff
        simp [hiff]
    | ok _ => simp [hiff.1 ho, hstate, eq_comm]
  · rw [if_pos (by simpa using hstate)]
    simp [hstate]

end RowMerger

end BigtableClient
