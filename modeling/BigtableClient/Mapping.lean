import BigtableClient.Row

/-!
# Typed lookups in a row

`RowDecoder` finds the cells of a column.  The columns of a family are in server
order, so the binary search is a parameter: on a slice that is not sorted the
standard library only promises that a hit compares equal.
-/

namespace BigtableClient

inductive RowMappingIssue where
  | missingFamily (family : String)
  | missingColumn (family : String) (qualifier : Bytes)
  | missingCell (family : String) (qualifier : Bytes)
  deriving DecidableEq, Repr

structure RowMappingError where
  rowKey : Bytes
  rowKeyBytes : Nat
  issue : RowMappingIssue
  deriving DecidableEq, Repr

def RowMappingError.new (rowKey : Bytes) (issue : RowMappingIssue) : RowMappingError where
  rowKey := rowKey
  rowKeyBytes := rowKey.length
  issue := issue

/-- `slice::binary_search_by`, with the index of a hit. -/
abbrev BinarySearch := List Column → (Column → Ordering) → Option Nat

/-- A hit is an index of the slice, and its element compares equal. -/
def BinarySearch.Sound (search : BinarySearch) : Prop :=
  ∀ columns compare index, search columns compare = some index →
    ∃ column, columns[index]? = some column ∧ compare column = .eq

structure RowDecoder where
  row : Row
  deriving DecidableEq, Repr

namespace RowDecoder

def error (decoder : RowDecoder) (issue : RowMappingIssue) : RowMappingError :=
  .new decoder.row.key issue

def findColumn (search : BinarySearch) (family : Family) (qualifier : Bytes) : Option Column :=
  ((search family.columns fun column => cmp column.qualifier qualifier).bind
      fun index => family.columns[index]?).or
    (family.columns.find? fun column => column.qualifier = qualifier)

def requiredColumn (search : BinarySearch) (decoder : RowDecoder) (family : String)
    (qualifier : Bytes) : Except RowMappingError Column :=
  match decoder.row.families.find? fun item => item.name = family with
  | none => .error (decoder.error (.missingFamily family))
  | some familyValue =>
      match findColumn search familyValue qualifier with
      | none => .error (decoder.error (.missingColumn family qualifier))
      | some column => .ok column

def optionalColumn (search : BinarySearch) (decoder : RowDecoder) (family : String)
    (qualifier : Bytes) : Option Column := do
  let familyValue ← decoder.row.families.find? fun item => item.name = family
  findColumn search familyValue qualifier

def latestCell (search : BinarySearch) (decoder : RowDecoder) (family : String)
    (qualifier : Bytes) : Except RowMappingError Cell := do
  let column ← decoder.requiredColumn search family qualifier
  match column.cells.head? with
  | none => .error (decoder.error (.missingCell family qualifier))
  | some cell => .ok cell

def optionalLatestCell (search : BinarySearch) (decoder : RowDecoder) (family : String)
    (qualifier : Bytes) : Option Cell := do
  let column ← decoder.optionalColumn search family qualifier
  column.cells.head?

def cells (search : BinarySearch) (decoder : RowDecoder) (family : String) (qualifier : Bytes) :
    Except RowMappingError (List Cell) := do
  let column ← decoder.requiredColumn search family qualifier
  if column.cells = [] then
    .error (decoder.error (.missingCell family qualifier))
  else
    .ok column.cells

end RowDecoder

end BigtableClient
