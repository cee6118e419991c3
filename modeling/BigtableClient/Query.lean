import BigtableClient.Proto
import BigtableClient.Resource

/-!
# Queries

What a caller asks a `ReadRows` operation for, and the request it becomes.
-/

namespace BigtableClient

inductive RowBound where
  | unbounded
  | inclusive (key : Bytes)
  | exclusive (key : Bytes)
  deriving DecidableEq, Repr

structure RowRange where
  start : RowBound
  stop : RowBound
  deriving DecidableEq, Repr

/-- The least byte string above every key with this prefix. -/
def prefixSuccessor (leading : Bytes) : Option Bytes :=
  -- dropping the trailing 0xff bytes leaves `rposition`'s byte in front
  match leading.reverse.dropWhile (· == 255) with
  | [] => none
  | byte :: rest => some (rest.reverse ++ [byte + 1])

/-- The range of every key with this prefix (`RowRange::prefix`). -/
def RowRange.ofPrefix (leading : Bytes) : RowRange where
  start := .inclusive leading
  stop := ((prefixSuccessor leading).map RowBound.exclusive).getD .unbounded

inductive QueryIssue where
  | emptyTableId
  | tableIdTooLong
  | tableIdContainsSlash
  | zeroRowLimit
  | rowLimitTooLarge
  | emptyRowKey
  | rowKeyTooLong
  deriving DecidableEq, Repr

def i64Max : Nat := 2 ^ 63 - 1

def RowLimit := { limit : Int // 0 < limit ∧ limit ≤ i64Max }
  deriving DecidableEq, Repr

structure Query where
  tableId : TableId
  rowKeys : List Bytes
  rowRanges : List RowRange
  filter : Option Proto.RowFilter
  limit : Option RowLimit
  reversed : Bool
  deriving DecidableEq, Repr

def TableIdIssue.toQueryIssue : TableIdIssue → QueryIssue
  | .empty => .emptyTableId
  | .tooLong => .tableIdTooLong
  | .containsSlash => .tableIdContainsSlash

namespace Query

def new (tableId : String) : Except QueryIssue Query :=
  match h : validateTableId tableId with
  | .error issue => .error issue.toQueryIssue
  | .ok () =>
      .ok { tableId := ⟨tableId, h⟩
            rowKeys := []
            rowRanges := []
            filter := none
            limit := none
            reversed := false }

def rowKey (query : Query) (key : Bytes) : Query :=
  { query with rowKeys := query.rowKeys ++ [key] }

def addRowKeys (query : Query) (keys : List Bytes) : Query :=
  { query with rowKeys := query.rowKeys ++ keys }

def rowRange (query : Query) (range : RowRange) : Query :=
  { query with rowRanges := query.rowRanges ++ [range] }

def ofPrefix (query : Query) (leading : Bytes) : Query :=
  query.rowRange (RowRange.ofPrefix leading)

def withFilter (query : Query) (filter : Proto.RowFilter) : Query :=
  { query with filter := some filter }

def withLimit (query : Query) (limit : UInt64) : Except QueryIssue Query :=
  if hzero : limit = 0 then
    .error .zeroRowLimit
  else if hmax : limit.toNat ≤ i64Max then
    have hpos : 0 < limit.toNat :=
      Nat.pos_of_ne_zero fun h => hzero (UInt64.toNat_inj.1 h)
    .ok { query with limit := some ⟨limit.toNat, by omega, by omega⟩ }
  else
    .error .rowLimitTooLarge

def inReverse (query : Query) : Query :=
  { query with reversed := true }

def validateKeySize (key : Bytes) : Except QueryIssue Unit :=
  if key.length > maxRowKeyBytes then .error .rowKeyTooLong else .ok ()

def validateBoundSize : RowBound → Except QueryIssue Unit
  | .unbounded => .ok ()
  | .inclusive key => validateKeySize key
  | .exclusive key => validateKeySize key

def validateRowKeys : List Bytes → Except QueryIssue Unit
  | [] => .ok ()
  | key :: keys =>
      if key = [] then
        .error .emptyRowKey
      else do
        validateKeySize key
        validateRowKeys keys

def validateRowRanges : List RowRange → Except QueryIssue Unit
  | [] => .ok ()
  | range :: ranges => do
      validateBoundSize range.start
      validateBoundSize range.stop
      validateRowRanges ranges

def validate (query : Query) : Except QueryIssue Unit := do
  validateRowKeys query.rowKeys
  validateRowRanges query.rowRanges

end Query

open Proto (StartKey EndKey)

def protoRowRange (range : RowRange) : Proto.RowRange where
  startKey :=
    match range.start with
    | .unbounded => none
    | .inclusive key => some (.startKeyClosed key)
    | .exclusive key => some (.startKeyOpen key)
  endKey :=
    match range.stop with
    | .unbounded => none
    | .inclusive key => some (.endKeyClosed key)
    | .exclusive key => some (.endKeyOpen key)

def Query.intoRequest (query : Query) (config : ClientConfig) : Proto.ReadRowsRequest where
  tableName := tableName config query.tableId.val
  appProfileId := config.appProfileId
  rows :=
    if query.rowKeys = [] ∧ query.rowRanges = [] then
      none
    else
      some { rowKeys := query.rowKeys, rowRanges := query.rowRanges.map protoRowRange }
  filter := query.filter
  rowsLimit := (query.limit.map Subtype.val).getD 0
  reversed := query.reversed

end BigtableClient
