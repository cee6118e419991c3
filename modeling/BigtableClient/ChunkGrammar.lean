import BigtableClient.Merge
import BigtableClient.ProofSupport.ScanOrder

/-!
# The ReadRows chunk grammar

What a legal stream of chunks and scan markers looks like, and which rows it
carries, stated without the merger: a stream is a concatenation of committed rows,
abandoned rows and markers, and a row is a list of cells, each sent whole or split
over several chunks.
-/

namespace BigtableClient.ChunkGrammar

open Proto
open ProofSupport.Grouping (groups)
open ProofSupport.ScanOrder (After)

/-! ## Chunks -/

/-- A chunk that carries no row key, family, qualifier, timestamp or label. -/
def MetadataFree (chunk : CellChunk) : Prop :=
  chunk.rowKey = [] ∧ chunk.familyName = none ∧ chunk.qualifier = none ∧
    chunk.timestampMicros = 0 ∧ chunk.labels = []

def BareReset (chunk : CellChunk) : Prop :=
  chunk.isReset = true ∧ MetadataFree chunk ∧ chunk.value = [] ∧ chunk.valueSize = 0

/-- A chunk that neither resets nor commits its row. -/
def Plain (chunk : CellChunk) : Prop :=
  chunk.isReset = false ∧ chunk.isCommit = false

def ContinuesRow (key : Bytes) (chunk : CellChunk) : Prop :=
  (chunk.rowKey = [] ∨ chunk.rowKey = key) ∧
    (chunk.familyName.isSome → chunk.qualifier.isSome)

def StartsRow (key : Bytes) (chunk : CellChunk) : Prop :=
  chunk.rowKey = key ∧ key ≠ [] ∧ chunk.familyName.isSome ∧ chunk.qualifier.isSome

def payload (chunks : List CellChunk) : Bytes :=
  chunks.flatMap CellChunk.value

/-! ## Cells -/

/-- The chunks of one cell, or of the part of it that was sent. -/
structure CellChunks where
  first : CellChunk
  rest : List CellChunk

namespace CellChunks

def chunks (cell : CellChunks) : List CellChunk := cell.first :: cell.rest

/-- The first chunk announces a split value of `value_size` bytes and holds some of them. -/
def AnnouncesSplit (cell : CellChunks) : Prop :=
  0 < cell.first.valueSize ∧ cell.first.value ≠ [] ∧
    (cell.first.value.length : Int) ≤ cell.first.valueSize

/-- A metadata-free chunk in the middle of the cell. -/
def Continuation (cell : CellChunks) (chunk : CellChunk) : Prop :=
  MetadataFree chunk ∧ chunk.valueSize = cell.first.valueSize

/-- A whole cell: one chunk of size zero, or a split value that ends with a chunk of size
zero and totals exactly the announced number of bytes. -/
def Complete (cell : CellChunks) : Prop :=
  (cell.first.valueSize = 0 ∧ cell.rest = []) ∨
    ∃ middle last, cell.rest = middle ++ [last] ∧ cell.AnnouncesSplit ∧
      (∀ chunk ∈ middle, cell.Continuation chunk) ∧
      MetadataFree last ∧ last.valueSize = 0 ∧
      ((payload cell.chunks).length : Int) = cell.first.valueSize

def Cut (cell : CellChunks) : Prop :=
  cell.AnnouncesSplit ∧ (∀ chunk ∈ cell.rest, cell.Continuation chunk) ∧
    ((payload cell.chunks).length : Int) ≤ cell.first.valueSize

def cell (cell : CellChunks) : Cell where
  timestampMicros := cell.first.timestampMicros
  value := payload cell.chunks
  labels := cell.first.labels

end CellChunks

def cellsChunks (cells : List CellChunks) : List CellChunk :=
  cells.flatMap CellChunks.chunks

/-! ## Received cells -/

/-- A cell with the family and qualifier it was received under. -/
structure Received where
  family : String
  qualifier : Bytes
  cell : Cell
  deriving DecidableEq

/-- The cells of a row in arrival order: a cell that does not name its family or qualifier
belongs to those of the cell before it. -/
def received (family : String) (qualifier : Bytes) : List CellChunks → List Received
  | [] => []
  | cell :: cells =>
      let family := cell.first.familyName.getD family
      let qualifier := cell.first.qualifier.getD qualifier
      { family := family, qualifier := qualifier, cell := cell.cell } ::
        received family qualifier cells

def buildColumn (qualifier : Bytes) (cells : List Cell) : Column where
  qualifier := qualifier
  cells := cells

def buildFamily (name : String) (cells : List (Bytes × Cell)) : Family where
  name := name
  columns := groups buildColumn cells

/-- Received cells, grouped by family and qualifier in order of first appearance. -/
def families (cells : List Received) : List Family :=
  groups buildFamily (cells.map fun r => (r.family, r.qualifier, r.cell))

def decodeRow (key : Bytes) (cells : List CellChunks) : Row where
  key := key
  families := families (received "" [] cells)

/-! ## Streams -/

inductive Item where
  | marker (key : Bytes)
  | chunk (chunk : CellChunk)
  deriving DecidableEq

inductive Output where
  | marker (key : Bytes)
  | row (row : Row)
  deriving DecidableEq

def Output.row? : Output → Option Row
  | .marker _ => none
  | .row r => some r

def Output.key : Output → Bytes
  | .marker key => key
  | .row r => r.key

/-- A unit of the stream: a committed row, a row abandoned by a reset, possibly in the middle
of a cell, or a scan marker. -/
inductive Piece where
  | row (key : Bytes) (cells : List CellChunks)
  | abandoned (key : Bytes) (cells : List CellChunks) (cut : Option CellChunks)
      (reset : CellChunk)
  | marker (key : Bytes)

/-- The first chunks of a row's cells: the first starts the row, the others continue it. -/
def HeadsMatch (key : Bytes) : List CellChunks → Prop
  | [] => True
  | first :: others =>
      StartsRow key first.first ∧ ∀ cell ∈ others, ContinuesRow key cell.first

namespace Piece

def key : Piece → Bytes
  | .row key _ => key
  | .abandoned key _ _ _ => key
  | .marker key => key

def WellFormed : Piece → Prop
  | .row key cells =>
      HeadsMatch key cells ∧ (∀ cell ∈ cells, cell.Complete) ∧
        ∃ init last, cellsChunks cells = init ++ [last] ∧
          (∀ chunk ∈ init, Plain chunk) ∧ last.isCommit = true
  | .abandoned key cells cut reset =>
      cells ++ cut.toList ≠ [] ∧ HeadsMatch key (cells ++ cut.toList) ∧
        (∀ cell ∈ cells, cell.Complete) ∧ (∀ cell ∈ cut, cell.Cut) ∧
        (∀ chunk ∈ cellsChunks (cells ++ cut.toList), Plain chunk) ∧ BareReset reset
  | .marker _ => True

def items : Piece → List Item
  | .row _ cells => (cellsChunks cells).map .chunk
  | .abandoned _ cells cut reset =>
      (cellsChunks (cells ++ cut.toList) ++ [reset]).map .chunk
  | .marker key => [.marker key]

def output? : Piece → Option Output
  | .row key cells => some (.row (decodeRow key cells))
  | .abandoned _ _ _ _ => none
  | .marker key => some (.marker key)

def latest (last : Option Bytes) : Piece → Option Bytes
  | .row key _ => some key
  | .abandoned _ _ _ _ => last
  | .marker key => some key

end Piece

/-- Every row key and marker is strictly beyond the latest committed key or marker. -/
def Ordered (reversed : Bool) : Option Bytes → List Piece → Prop
  | _, [] => True
  | last, piece :: pieces =>
      After reversed last piece.key ∧ Ordered reversed (piece.latest last) pieces

def streamItems (pieces : List Piece) : List Item := pieces.flatMap Piece.items

def streamOutputs (pieces : List Piece) : List Output := pieces.filterMap Piece.output?

def outputRows (outputs : List Output) : List Row :=
  outputs.filterMap Output.row?

end BigtableClient.ChunkGrammar
