import BigtableClient.Proofs.MergeSteps

/-!
# The three states of the merger

Between rows, between the cells of a row, and inside a split cell.  Each state
names the part of the merger that later calls can see; the other fields are stale
and stay unmentioned.
-/

namespace BigtableClient

open Proto
open ProofSupport.ScanOrder (After)
open ChunkGrammar

namespace ChunkGrammar

def receive (family : String) (qualifier : Bytes) (cell : CellChunks) : Received where
  family := cell.first.familyName.getD family
  qualifier := cell.first.qualifier.getD qualifier
  cell := cell.cell

theorem received_cons (family : String) (qualifier : Bytes) (cell : CellChunks)
    (cells : List CellChunks) :
    received family qualifier (cell :: cells) =
      receive family qualifier cell ::
        received (receive family qualifier cell).family
          (receive family qualifier cell).qualifier cells := rfl

theorem payload_append (chunks more : List CellChunk) :
    payload (chunks ++ more) = payload chunks ++ payload more :=
  List.flatMap_append

@[simp] theorem payload_singleton (chunk : CellChunk) : payload [chunk] = chunk.value := by
  simp [payload]

def CellChunks.extend (cell : CellChunks) (chunk : CellChunk) : CellChunks :=
  { cell with rest := cell.rest ++ [chunk] }

@[simp] theorem CellChunks.extend_first (cell : CellChunks) (chunk : CellChunk) :
    (cell.extend chunk).first = cell.first := rfl

@[simp] theorem CellChunks.chunks_extend (cell : CellChunks) (chunk : CellChunk) :
    (cell.extend chunk).chunks = cell.chunks ++ [chunk] := rfl

theorem CellChunks.payload_extend (cell : CellChunks) (chunk : CellChunk) :
    payload (cell.extend chunk).chunks = payload cell.chunks ++ chunk.value := by
  rw [CellChunks.chunks_extend, payload_append, payload_singleton]

theorem CellChunks.Cut.extend {cell : CellChunks} {chunk : CellChunk} (hcut : cell.Cut)
    (hchunk : cell.Continuation chunk)
    (hfits : ((payload (cell.extend chunk).chunks).length : Int) ≤ cell.first.valueSize) :
    (cell.extend chunk).Cut := by
  refine ⟨hcut.1, ?_, hfits⟩
  intro other hother
  rcases List.mem_append.1 hother with hother | hother
  · exact hcut.2.1 other hother
  · rw [List.mem_singleton.1 hother]
    exact hchunk

theorem CellChunks.Cut.complete {cell : CellChunks} {chunk : CellChunk} (hcut : cell.Cut)
    (hfree : MetadataFree chunk) (hzero : chunk.valueSize = 0)
    (htotal : ((payload (cell.extend chunk).chunks).length : Int) = cell.first.valueSize) :
    (cell.extend chunk).Complete :=
  Or.inr ⟨cell.rest, chunk, rfl, hcut.1, hcut.2.1, hfree, hzero, htotal⟩

theorem CellChunks.AnnouncesSplit.cut {chunk : CellChunk}
    (h : CellChunks.AnnouncesSplit ⟨chunk, []⟩) : CellChunks.Cut ⟨chunk, []⟩ := by
  refine ⟨h, by simp, ?_⟩
  simpa [CellChunks.chunks, payload] using h.2.2

end ChunkGrammar

namespace RowMerger

/-- No row is open. -/
structure BetweenRows (merger : RowMerger) (reversed : Bool) (last : Option Bytes) : Prop where
  state : merger.state = .newRow
  reversed : merger.reversed = reversed
  last : merger.lastCompleteKey = last

/-- A row is open and holds the cells `acc`; the next cell belongs to the given family and
qualifier unless it names its own. -/
structure BetweenCells (merger : RowMerger) (reversed : Bool) (last : Option Bytes)
    (key : Bytes) (acc : List Received) (family : String) (qualifier : Bytes) : Prop where
  state : merger.state = .newCell
  reversed : merger.reversed = reversed
  last : merger.lastCompleteKey = last
  row : merger.row = { key := key, families := families acc }
  family_eq : merger.family = family
  qualifier_eq : merger.qualifier = qualifier

/-- A row is open and the chunks of `cell` were received of a cell that is not complete. -/
structure InCell (merger : RowMerger) (reversed : Bool) (last : Option Bytes) (key : Bytes)
    (acc : List Received) (family : String) (qualifier : Bytes) (cell : CellChunks) :
    Prop where
  state : merger.state = .cellValue
  reversed : merger.reversed = reversed
  last : merger.lastCompleteKey = last
  row : merger.row = { key := key, families := families acc }
  family_eq : merger.family = (receive family qualifier cell).family
  qualifier_eq : merger.qualifier = (receive family qualifier cell).qualifier
  timestamp : merger.timestampMicros = cell.first.timestampMicros
  labels : merger.labels = cell.first.labels
  value : merger.value = payload cell.chunks
  expected : (merger.expectedValueSize : Int) = cell.first.valueSize
  remaining : (payload cell.chunks).length + merger.remainingValueBytes =
    merger.expectedValueSize
  cut : cell.Cut

theorem betweenRows_new (reversed : Bool) :
    (RowMerger.new reversed).BetweenRows reversed none :=
  ⟨rfl, rfl, rfl⟩

section Between

variable {merger : RowMerger} {reversed : Bool} {last : Option Bytes} {key : Bytes}
variable {acc : List Received} {family : String} {qualifier : Bytes}

theorem finishCell_row (merger : RowMerger)
    (hrow : merger.row = { key := key, families := families acc }) :
    merger.finishCell.row =
      { key := key
        families := families (acc ++ [
          { family := merger.family
            qualifier := merger.qualifier
            cell :=
              { timestampMicros := merger.timestampMicros
                value := merger.value
                labels := merger.labels } }]) } := by
  simp only [finishCell, hrow, pushCell_families]

theorem betweenRows_clearActiveRow (hreversed : merger.reversed = reversed)
    (hlast : merger.lastCompleteKey = last) :
    merger.clearActiveRow.BetweenRows reversed last :=
  ⟨rfl, hreversed, hlast⟩

theorem betweenRows_commitRow (hreversed : merger.reversed = reversed)
    (hkey : merger.row.key = key) :
    merger.commitRow.1.BetweenRows reversed (some key) :=
  ⟨rfl, hreversed, congrArg some hkey⟩

theorem BetweenRows.openRow (h : merger.BetweenRows reversed last) (chunk : CellChunk) :
    (merger.openRow chunk).BetweenCells reversed last chunk.rowKey []
      (chunk.familyName.getD merger.family) (chunk.qualifier.getD merger.qualifier) :=
  ⟨rfl, h.reversed, h.last, rfl, rfl, rfl⟩

namespace BetweenCells

variable (h : merger.BetweenCells reversed last key acc family qualifier) (chunk : CellChunk)
include h

theorem loadCell_row :
    (merger.loadCell chunk).finishCell.row =
      { key := key
        families := families (acc ++ [receive family qualifier ⟨chunk, []⟩]) } := by
  rw [finishCell_row (merger.loadCell chunk) h.row]
  simp [loadCell, receive, CellChunks.cell, CellChunks.chunks, h.family_eq, h.qualifier_eq]

theorem endCell :
    (merger.loadCell chunk).endCell.BetweenCells reversed last key
      (acc ++ [receive family qualifier ⟨chunk, []⟩])
      (receive family qualifier ⟨chunk, []⟩).family
      (receive family qualifier ⟨chunk, []⟩).qualifier where
  state := rfl
  reversed := h.reversed
  last := h.last
  row := h.loadCell_row chunk
  family_eq := by simp [RowMerger.endCell, finishCell, loadCell, receive, h.family_eq]
  qualifier_eq := by simp [RowMerger.endCell, finishCell, loadCell, receive, h.qualifier_eq]

theorem commitRow :
    (merger.loadCell chunk).finishCell.commitRow.1.BetweenRows reversed (some key) :=
  betweenRows_commitRow h.reversed (by rw [h.loadCell_row chunk])

theorem splitCell (hsplit : CellChunks.AnnouncesSplit ⟨chunk, []⟩) :
    (merger.splitCell chunk).InCell reversed last key acc family qualifier ⟨chunk, []⟩ where
  state := rfl
  reversed := h.reversed
  last := h.last
  row := h.row
  family_eq := by simp [RowMerger.splitCell, loadCell, receive, h.family_eq]
  qualifier_eq := by simp [RowMerger.splitCell, loadCell, receive, h.qualifier_eq]
  timestamp := rfl
  labels := rfl
  value := by simp [RowMerger.splitCell, loadCell, CellChunks.chunks]
  expected := by
    have hpos : 0 < chunk.valueSize := hsplit.1
    simp only [RowMerger.splitCell]
    omega
  remaining := by
    have hfits : (chunk.value.length : Int) ≤ chunk.valueSize := hsplit.2.2
    simp only [RowMerger.splitCell, CellChunks.chunks, payload_singleton]
    omega
  cut := hsplit.cut

end BetweenCells

namespace InCell

variable {cell : CellChunks}
variable (h : merger.InCell reversed last key acc family qualifier cell) {chunk : CellChunk}
include h

theorem extendCell (hchunk : cell.Continuation chunk)
    (hfits : chunk.value.length ≤ merger.remainingValueBytes) :
    (merger.extendCell chunk).InCell reversed last key acc family qualifier
      (cell.extend chunk) := by
  have hlength : (payload (cell.extend chunk).chunks).length =
      (payload cell.chunks).length + chunk.value.length := by
    rw [CellChunks.payload_extend, List.length_append]
  have hremaining := h.remaining
  have hexpected := h.expected
  refine ⟨h.state, h.reversed, h.last, h.row, h.family_eq, h.qualifier_eq, h.timestamp, h.labels,
    ?_, h.expected, ?_, h.cut.extend hchunk ?_⟩
  · rw [CellChunks.payload_extend, ← h.value]
    rfl
  · simp only [RowMerger.extendCell, hlength]
    omega
  · rw [hlength]
    omega

theorem total_eq_iff :
    chunk.value.length = merger.remainingValueBytes ↔
      ((payload (cell.extend chunk).chunks).length : Int) = cell.first.valueSize := by
  have hremaining := h.remaining
  have hexpected := h.expected
  rw [CellChunks.payload_extend, List.length_append]
  omega

theorem extendCell_row :
    (merger.extendCell chunk).finishCell.row =
      { key := key
        families := families (acc ++ [receive family qualifier (cell.extend chunk)]) } := by
  rw [finishCell_row (merger.extendCell chunk) h.row]
  simp [RowMerger.extendCell, receive, CellChunks.cell, payload_append, h.family_eq,
    h.qualifier_eq, h.timestamp, h.labels, h.value]

theorem endCell :
    (merger.extendCell chunk).endCell.BetweenCells reversed last key
      (acc ++ [receive family qualifier (cell.extend chunk)])
      (receive family qualifier (cell.extend chunk)).family
      (receive family qualifier (cell.extend chunk)).qualifier :=
  ⟨rfl, h.reversed, h.last, h.extendCell_row, h.family_eq, h.qualifier_eq⟩

theorem commitRow :
    (merger.extendCell chunk).finishCell.commitRow.1.BetweenRows reversed (some key) :=
  betweenRows_commitRow h.reversed (by rw [h.extendCell_row])

end InCell

end Between

end RowMerger

end BigtableClient
