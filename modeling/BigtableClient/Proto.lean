import BigtableClient.Bytes

/-!
# Bigtable protobuf messages

The generated message types, as far as the client reads or writes their fields.
A row filter is only passed on, so it is kept as its encoding.
-/

namespace BigtableClient.Proto

/-! ## ReadRows requests -/

/-- The start of a row range (`row_range::StartKey`). -/
inductive StartKey where
  | startKeyClosed (key : Bytes)
  | startKeyOpen (key : Bytes)
  deriving DecidableEq, Repr

/-- The end of a row range (`row_range::EndKey`). -/
inductive EndKey where
  | endKeyOpen (key : Bytes)
  | endKeyClosed (key : Bytes)
  deriving DecidableEq, Repr

structure RowRange where
  startKey : Option StartKey := none
  endKey : Option EndKey := none
  deriving DecidableEq, Repr

structure RowSet where
  rowKeys : List Bytes
  rowRanges : List RowRange
  deriving DecidableEq, Repr

/-- A server-side row filter, in encoded form. -/
abbrev RowFilter := Bytes

structure ReadRowsRequest where
  tableName : String
  appProfileId : String
  rows : Option RowSet
  filter : Option RowFilter
  rowsLimit : Int
  reversed : Bool
  deriving DecidableEq, Repr

/-! ## ReadRows responses -/

/-- The row status of a chunk (`cell_chunk::RowStatus`). -/
inductive RowStatus where
  | resetRow (value : Bool)
  | commitRow (value : Bool)
  deriving DecidableEq, Repr

structure CellChunk where
  rowKey : Bytes := []
  familyName : Option String := none
  qualifier : Option Bytes := none
  timestampMicros : Int := 0
  labels : List String := []
  value : Bytes := []
  valueSize : Int := 0
  rowStatus : Option RowStatus := none
  deriving DecidableEq, Repr

structure ReadRowsResponse where
  chunks : List CellChunk
  lastScannedRowKey : Bytes
  deriving DecidableEq, Repr

namespace CellChunk

/-- `matches!(chunk.row_status, Some(RowStatus::ResetRow(true)))` -/
def isReset (chunk : CellChunk) : Bool := chunk.rowStatus = some (.resetRow true)

/-- `matches!(chunk.row_status, Some(RowStatus::CommitRow(true)))` -/
def isCommit (chunk : CellChunk) : Bool := chunk.rowStatus = some (.commitRow true)

end CellChunk

/-! ## Mutations -/

structure TimestampRange where
  startTimestampMicros : Int
  endTimestampMicros : Int
  deriving DecidableEq, Repr

/-- The operation of one mutation (`mutation::Mutation`).  The client never looks inside an
aggregate operation, so its fields are kept in encoded form. -/
inductive MutationKind where
  | setCell (familyName : String) (columnQualifier : Bytes) (timestampMicros : Int)
      (value : Bytes)
  | deleteFromColumn (familyName : String) (columnQualifier : Bytes)
      (timeRange : Option TimestampRange)
  | deleteFromFamily (familyName : String)
  | deleteFromRow
  | addToCell (encoded : Bytes)
  | mergeToCell (encoded : Bytes)
  deriving DecidableEq, Repr

structure Mutation where
  mutation : Option MutationKind
  deriving DecidableEq, Repr

structure Timestamp where
  seconds : Int
  nanos : Int
  deriving DecidableEq, Repr

structure Idempotency where
  token : Bytes
  startTime : Option Timestamp
  deriving DecidableEq, Repr

/-- One row of a bulk request (`mutate_rows_request::Entry`). -/
structure MutateRowsEntry where
  rowKey : Bytes
  mutations : List Mutation
  idempotency : Option Idempotency
  deriving DecidableEq, Repr

structure MutateRowsRequest where
  tableName : String
  appProfileId : String
  entries : List MutateRowsEntry
  deriving DecidableEq, Repr

structure Any where
  typeUrl : String
  value : Bytes
  deriving DecidableEq, Repr

/-- A rich status (`google.rpc.Status`). -/
structure RpcStatus where
  code : Int := 0
  message : String := ""
  details : List Any := []
  deriving DecidableEq, Repr

structure Duration where
  seconds : Int
  nanos : Int
  deriving DecidableEq, Repr

structure RetryInfo where
  retryDelay : Option Duration
  deriving DecidableEq, Repr

/-- The result of one entry (`mutate_rows_response::Entry`). -/
structure MutateRowsResult where
  index : Int
  status : Option RpcStatus
  deriving DecidableEq, Repr

structure MutateRowsResponse where
  entries : List MutateRowsResult
  deriving DecidableEq, Repr

end BigtableClient.Proto
