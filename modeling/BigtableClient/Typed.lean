import BigtableClient.Mapping
import BigtableClient.RowStream

/-!
# Typed values in a row

`RowDecoder` decodes the row key and the cells it finds.  How a type decodes raw bytes
is its own matter (`FromCellValue`, `FromJsonValue` or a function of the caller); the
decoder says where the value was that could not be decoded.
-/

namespace BigtableClient

structure ValueDecodeError where
  target : String
  source : String
  deriving DecidableEq, Repr

inductive RowValueLocation where
  | rowKey
  | cell (family : String) (qualifier : Bytes) (timestampMicros : Int)
  deriving DecidableEq, Repr

/-- The schema or value problem found while a row is mapped. -/
inductive MapIssue where
  /-- one of the issues of a lookup -/
  | missing (issue : RowMappingIssue)
  | invalidValue (location : RowValueLocation) (source : ValueDecodeError)
  deriving DecidableEq, Repr

structure MapError where
  rowKey : Bytes
  rowKeyBytes : Nat
  issue : MapIssue
  deriving DecidableEq, Repr

def MapError.new (rowKey : Bytes) (issue : MapIssue) : MapError where
  rowKey := rowKey
  rowKeyBytes := rowKey.length
  issue := issue

def MapError.ofLookup (error : RowMappingError) : MapError where
  rowKey := error.rowKey
  rowKeyBytes := error.rowKeyBytes
  issue := .missing error.issue

/-- `from_cell_value` or `from_json_value` of a type. -/
abbrev ValueDecoder (α : Type) := Bytes → Except ValueDecodeError α

/-- A function of the caller for one value, and the name of the type it returns. -/
structure DecodeFn (α : Type) where
  target : String
  decode : Bytes → Except String α

def DecodeFn.wrapped {α : Type} (function : DecodeFn α) : ValueDecoder α := fun value =>
  (function.decode value).mapError fun source => { target := function.target, source := source }

namespace RowDecoder

variable {α : Type} (search : BinarySearch) (decoder : RowDecoder)

def invalidValue (location : RowValueLocation) (source : ValueDecodeError) : MapError :=
  .new decoder.row.key (.invalidValue location source)

def decodeKey (decode : ValueDecoder α) : Except MapError α :=
  (decode decoder.row.key).mapError (decoder.invalidValue .rowKey)

def rowKey (fromCellValue : ValueDecoder α) : Except MapError α :=
  decoder.decodeKey fromCellValue

def rowKeyJson (fromJsonValue : ValueDecoder α) : Except MapError α :=
  decoder.decodeKey fromJsonValue

def rowKeyWith (function : DecodeFn α) : Except MapError α :=
  decoder.decodeKey function.wrapped

/-- `decode_cell`, `decode_json_cell` and `decode_cell_with` -/
def decodeCell (decode : ValueDecoder α) (family : String) (qualifier : Bytes) (cell : Cell) :
    Except MapError α :=
  (decode cell.value).mapError
    (decoder.invalidValue (.cell family qualifier cell.timestampMicros))

/-- The latest visible cell of a required column, by one of the three kinds of decoders. -/
def decodeRequired (decode : ValueDecoder α) (family : String) (qualifier : Bytes) :
    Except MapError α := do
  let cell ← (decoder.latestCell search family qualifier).mapError .ofLookup
  decoder.decodeCell decode family qualifier cell

def decodeOptional (decode : ValueDecoder α) (family : String) (qualifier : Bytes) :
    Except MapError (Option α) :=
  match decoder.optionalLatestCell search family qualifier with
  | none => .ok none
  | some cell => (decoder.decodeCell decode family qualifier cell).map some

def required (fromCellValue : ValueDecoder α) (family : String) (qualifier : Bytes) :
    Except MapError α :=
  decoder.decodeRequired search fromCellValue family qualifier

def requiredJson (fromJsonValue : ValueDecoder α) (family : String) (qualifier : Bytes) :
    Except MapError α :=
  decoder.decodeRequired search fromJsonValue family qualifier

def requiredWith (family : String) (qualifier : Bytes) (function : DecodeFn α) :
    Except MapError α :=
  decoder.decodeRequired search function.wrapped family qualifier

def optional (fromCellValue : ValueDecoder α) (family : String) (qualifier : Bytes) :
    Except MapError (Option α) :=
  decoder.decodeOptional search fromCellValue family qualifier

def optionalJson (fromJsonValue : ValueDecoder α) (family : String) (qualifier : Bytes) :
    Except MapError (Option α) :=
  decoder.decodeOptional search fromJsonValue family qualifier

def optionalWith (family : String) (qualifier : Bytes) (function : DecodeFn α) :
    Except MapError (Option α) :=
  decoder.decodeOptional search function.wrapped family qualifier

end RowDecoder

/-! ## Typed streams -/

/-- `FromRow::from_row` of a type. -/
abbrev FromRow (α : Type) := Row → Except MapError α

inductive TypedReadError where
  | read (error : ReadError)
  | rowMapping (error : MapError)

/-- What `read_row_as` returns, once the call allows it. -/
def ReadCall.firstRowAs {α : Type} (fromRow : FromRow α) (call : ReadCall) :
    Option (Except TypedReadError (Option α)) :=
  call.firstRow.map fun result =>
    match result with
    | .error error => .error (.read error)
    | .ok none => .ok none
    | .ok (some row) => ((fromRow row).mapError .rowMapping).map some

end BigtableClient
