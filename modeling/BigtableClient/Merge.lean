import BigtableClient.Proto
import BigtableClient.Row
import BigtableClient.ProofSupport.Grouping

/-!
# The row merger

`RowMerger` assembles complete rows from the cell chunks of a `ReadRows` stream.
Every call may leave the merger changed even when it fails, so the model returns
the merger next to the result.
-/

namespace BigtableClient

open Proto
open ProofSupport.Grouping (upsert)

inductive RowMergeIssue where
  | resetBetweenRows
  | missingRowKey
  | missingFamily
  | missingQualifier
  | rowKeyChanged
  | familyWithoutQualifier
  | outOfOrderRowKey
  | scanMarkerDuringRow
  | resetWithData
  | negativeValueSize
  | splitValueMissingData
  | splitValueTooLarge
  | commitBeforeCellComplete
  | cellMetadataOnContinuation
  | splitValueSizeChanged
  | splitValueWrongSize
  | incompleteRow
  deriving DecidableEq, Repr

inductive State where
  | newRow
  | newCell
  | cellValue
  deriving DecidableEq, Repr

structure RowMerger where
  reversed : Bool
  state : State
  lastCompleteKey : Option Bytes
  row : Row
  family : String
  qualifier : Bytes
  timestampMicros : Int
  labels : List String
  value : Bytes
  expectedValueSize : Nat
  remainingValueBytes : Nat
  deriving DecidableEq, Repr

def emptyRow : Row := { key := [], families := [] }

/-- `usize::try_from` on a signed size. -/
def usizeTryFrom (value : Int) : Option Nat :=
  if value < 0 then none else some value.toNat

theorem usizeTryFrom_of_nonneg {value : Int} (h : 0 ≤ value) :
    usizeTryFrom value = some value.toNat := by
  rw [usizeTryFrom, if_neg (by omega)]

namespace RowMerger

/-- What a call on `&mut RowMerger` leaves behind, and what it returns. -/
abbrev Outcome := RowMerger × Except RowMergeIssue (Option Row)

def new (reversed : Bool) : RowMerger where
  reversed := reversed
  state := .newRow
  lastCompleteKey := none
  row := emptyRow
  family := ""
  qualifier := []
  timestampMicros := 0
  labels := []
  value := []
  expectedValueSize := 0
  remainingValueBytes := 0

def clearCell (merger : RowMerger) : RowMerger :=
  { merger with
    timestampMicros := 0
    labels := []
    value := []
    expectedValueSize := 0
    remainingValueBytes := 0 }

def clearActiveRow (merger : RowMerger) : RowMerger :=
  { { merger with row := emptyRow, family := "", qualifier := [] }.clearCell with
    state := .newRow }

def validateOrder (merger : RowMerger) (key : Bytes) : Except RowMergeIssue Unit :=
  match merger.lastCompleteKey with
  | none => .ok ()
  | some previous =>
      let ordered := if merger.reversed then key < previous else key > previous
      if ordered then .ok () else .error .outOfOrderRowKey

def validateReset (chunk : CellChunk) : Except RowMergeIssue Unit :=
  if chunk.rowKey ≠ [] ∨ chunk.familyName.isSome ∨ chunk.qualifier.isSome ∨
      chunk.timestampMicros ≠ 0 ∨ chunk.labels ≠ [] ∨ chunk.value ≠ [] ∨ chunk.valueSize ≠ 0 then
    .error .resetWithData
  else
    .ok ()

/-- Push a cell into its column, making the column, and its family, when they are new. -/
def pushCell (families : List Family) (family : String) (qualifier : Bytes) (cell : Cell) :
    List Family :=
  upsert Family.name family
    (fun found =>
      { found with
        columns := upsert Column.qualifier qualifier
          (fun column => { column with cells := column.cells ++ [cell] })
          { qualifier := qualifier, cells := [cell] } found.columns })
    { name := family, columns := [{ qualifier := qualifier, cells := [cell] }] } families

def finishCell (merger : RowMerger) : RowMerger :=
  let cell : Cell :=
    { timestampMicros := merger.timestampMicros
      value := merger.value
      labels := merger.labels }
  { merger with
    -- `std::mem::take` empties both buffers
    value := []
    labels := []
    row := { merger.row with
      families := pushCell merger.row.families merger.family merger.qualifier cell } }

def commitRow (merger : RowMerger) : RowMerger × Row :=
  let row := merger.row
  ({ { merger with row := emptyRow, lastCompleteKey := some row.key }.clearCell with
      state := .newRow }, row)

def startCell (merger : RowMerger) (chunk : CellChunk) : Outcome :=
  if chunk.isReset then
    match validateReset chunk with
    | .error issue => (merger, .error issue)
    | .ok () => (merger.clearActiveRow, .ok none)
  else if chunk.rowKey ≠ [] ∧ chunk.rowKey ≠ merger.row.key then
    (merger, .error .rowKeyChanged)
  else if chunk.familyName.isSome ∧ chunk.qualifier.isNone then
    (merger, .error .familyWithoutQualifier)
  else
    let merger := { merger with
      family := chunk.familyName.getD merger.family
      qualifier := chunk.qualifier.getD merger.qualifier }
    if chunk.valueSize < 0 then
      (merger, .error .negativeValueSize)
    else
      let merger := { merger with
        timestampMicros := chunk.timestampMicros
        labels := chunk.labels
        value := [] }
      if 0 < chunk.valueSize then
        if chunk.value = [] then
          (merger, .error .splitValueMissingData)
        else if chunk.isCommit then
          (merger, .error .commitBeforeCellComplete)
        else
          match usizeTryFrom chunk.valueSize with
          | none => (merger, .error .negativeValueSize)
          | some expected =>
              if chunk.value.length > expected then
                (merger, .error .splitValueTooLarge)
              else
                ({ merger with
                    value := merger.value ++ chunk.value
                    expectedValueSize := expected
                    remainingValueBytes := expected - chunk.value.length
                    state := .cellValue }, .ok none)
      else
        let merger := { merger with value := merger.value ++ chunk.value }.finishCell
        if chunk.isCommit then
          let (merger, row) := merger.commitRow
          (merger, .ok (some row))
        else
          ({ merger with state := .newCell }, .ok none)

def startRow (merger : RowMerger) (chunk : CellChunk) : Outcome :=
  if chunk.isReset then
    (merger, .error .resetBetweenRows)
  else if chunk.rowKey = [] then
    (merger, .error .missingRowKey)
  else
    match chunk.familyName with
    | none => (merger, .error .missingFamily)
    | some family =>
        match chunk.qualifier with
        | none => (merger, .error .missingQualifier)
        | some qualifier =>
            match merger.validateOrder chunk.rowKey with
            | .error issue => (merger, .error issue)
            | .ok () =>
                startCell
                  { merger with
                    row := { key := chunk.rowKey, families := [] }
                    family := family
                    qualifier := qualifier
                    state := .newCell } chunk

def continueCell (merger : RowMerger) (chunk : CellChunk) : Outcome :=
  if chunk.isReset then
    match validateReset chunk with
    | .error issue => (merger, .error issue)
    | .ok () => (merger.clearActiveRow, .ok none)
  else if chunk.rowKey ≠ [] ∨ chunk.familyName.isSome ∨ chunk.qualifier.isSome ∨
      chunk.timestampMicros ≠ 0 ∨ chunk.labels ≠ [] then
    (merger, .error .cellMetadataOnContinuation)
  else if chunk.valueSize < 0 then
    (merger, .error .negativeValueSize)
  else if chunk.value.length > merger.remainingValueBytes then
    (merger, .error .splitValueTooLarge)
  else
    let extended := { merger with
      value := merger.value ++ chunk.value
      remainingValueBytes := merger.remainingValueBytes - chunk.value.length }
    if chunk.valueSize = 0 then
      -- the terminal chunk of the cell
      if chunk.value.length ≠ merger.remainingValueBytes then
        (merger, .error .splitValueWrongSize)
      else if chunk.isCommit then
        let (merger, row) := extended.finishCell.commitRow
        (merger, .ok (some row))
      else
        ({ extended.finishCell with state := .newCell }, .ok none)
    else
      match usizeTryFrom chunk.valueSize with
      | none => (merger, .error .negativeValueSize)
      | some valueSize =>
          if valueSize ≠ merger.expectedValueSize then
            (merger, .error .splitValueSizeChanged)
          else if chunk.isCommit then
            (merger, .error .commitBeforeCellComplete)
          else
            (extended, .ok none)

def push (merger : RowMerger) (chunk : CellChunk) : Outcome :=
  match merger.state with
  | .newRow => merger.startRow chunk
  | .newCell => merger.startCell chunk
  | .cellValue => merger.continueCell chunk

def scanMarker (merger : RowMerger) (key : Bytes) : RowMerger × Except RowMergeIssue Unit :=
  if merger.state ≠ .newRow then
    (merger, .error .scanMarkerDuringRow)
  else
    match merger.validateOrder key with
    | .error issue => (merger, .error issue)
    | .ok () => ({ merger with lastCompleteKey := some key }, .ok ())

def discardPartial (merger : RowMerger) : RowMerger :=
  if merger.state ≠ .newRow then merger.clearActiveRow else merger

def finish (merger : RowMerger) : Except RowMergeIssue Unit :=
  if merger.state = .newRow then .ok () else .error .incompleteRow

end RowMerger

end BigtableClient
