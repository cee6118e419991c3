import BigtableClient.Proto
import BigtableClient.Resource

/-!
# Mutations

The builders for row changes, with every check they make, and the predicate that
tells which of them may be sent twice.  Where a builder reads the system clock, the
time since the Unix epoch is an argument, and `none` stands for an earlier clock.
-/

namespace BigtableClient

open Proto (MutationKind TimestampRange Idempotency MutateRowsEntry)

inductive MutationIssue where
  | emptyTableId
  | tableIdTooLong
  | tableIdContainsSlash
  | emptyRowKey
  | rowKeyTooLong
  | emptyFamilyName
  | familyNameTooLong
  | invalidFamilyName
  | negativeTimestamp
  | timestampNotMillisecondAligned
  | invalidTimestampRange
  | missingOperation
  | emptyRowMutation
  | tooManyMutations
  | idempotencyTokenTooShort
  | clockBeforeUnixEpoch
  | clockOutOfRange
  deriving DecidableEq, Repr

def maxFamilyNameChars : Nat := 64

def maxMutationsPerEntry : Nat := 100000

def minIdempotencyTokenBytes : Nat := 8

def TableIdIssue.toMutationIssue : TableIdIssue → MutationIssue
  | .empty => .emptyTableId
  | .tooLong => .tableIdTooLong
  | .containsSlash => .tableIdContainsSlash

/-! ## Checks -/

/-- `i64::try_from` and `checked_mul`: a value outside the range of `i64` is an error. -/
def i64OrOutOfRange (value : Nat) : Except MutationIssue Int :=
  if value < 2 ^ 63 then .ok value else .error .clockOutOfRange

/-- The client time at millisecond precision, from the nanoseconds since the epoch. -/
def currentTimestampMicros (elapsed : Option Nat) : Except MutationIssue Int :=
  match elapsed with
  | none => .error .clockBeforeUnixEpoch
  | some nanos => do
      let millis ← i64OrOutOfRange (nanos / 1000000)
      i64OrOutOfRange (millis.toNat * 1000)

def validateRowKey (rowKey : Bytes) : Except MutationIssue Unit :=
  if rowKey = [] then
    .error .emptyRowKey
  else if rowKey.length > maxRowKeyBytes then
    .error .rowKeyTooLong
  else
    .ok ()

def validFamilyName (familyName : String) : Except MutationIssue String :=
  if familyName.isEmpty then
    .error .emptyFamilyName
  else if familyName.length > maxFamilyNameChars then
    .error .familyNameTooLong
  else if ¬ familyName.toList.all fun c => c.isAlphanum || c == '-' || c == '_' || c == '.' then
    .error .invalidFamilyName
  else
    .ok familyName

def validateTimestamp (timestampMicros : Int) : Except MutationIssue Unit :=
  if timestampMicros < 0 then
    .error .negativeTimestamp
  else if timestampMicros % 1000 ≠ 0 then
    .error .timestampNotMillisecondAligned
  else
    .ok ()

/-! ## One change -/

/-- One change of a row.  Its protobuf mutation always has an operation. -/
structure Mutation where
  inner : Proto.Mutation
  operation_isSome : inner.mutation.isSome
  deriving DecidableEq, Repr

namespace Mutation

def new (mutation : MutationKind) : Mutation where
  inner := { mutation := some mutation }
  operation_isSome := rfl

def setCellAt (familyName : String) (columnQualifier : Bytes) (timestampMicros : Int)
    (value : Bytes) : Except MutationIssue Mutation := do
  let familyName ← validFamilyName familyName
  validateTimestamp timestampMicros
  return .new (.setCell familyName columnQualifier timestampMicros value)

def setCell (elapsed : Option Nat) (familyName : String) (columnQualifier value : Bytes) :
    Except MutationIssue Mutation := do
  let timestampMicros ← currentTimestampMicros elapsed
  setCellAt familyName columnQualifier timestampMicros value

/-- The timestamp -1 asks for the time of the server. -/
def setCellAtServerTime (familyName : String) (columnQualifier value : Bytes) :
    Except MutationIssue Mutation := do
  let familyName ← validFamilyName familyName
  return .new (.setCell familyName columnQualifier (-1) value)

def deleteCells (familyName : String) (columnQualifier : Bytes) :
    Except MutationIssue Mutation := do
  let familyName ← validFamilyName familyName
  return .new (.deleteFromColumn familyName columnQualifier none)

def deleteCellsInRange (familyName : String) (columnQualifier : Bytes)
    (startTimestampMicros endTimestampMicros : Int) : Except MutationIssue Mutation := do
  let familyName ← validFamilyName familyName
  validateTimestamp startTimestampMicros
  validateTimestamp endTimestampMicros
  if startTimestampMicros ≥ endTimestampMicros then
    .error .invalidTimestampRange
  else
    return .new (.deleteFromColumn familyName columnQualifier
      (some { startTimestampMicros, endTimestampMicros }))

def deleteFamily (familyName : String) : Except MutationIssue Mutation := do
  let familyName ← validFamilyName familyName
  return .new (.deleteFromFamily familyName)

def deleteRow : Mutation := .new .deleteFromRow

def fromProto (mutation : Proto.Mutation) : Except MutationIssue Mutation :=
  if h : mutation.mutation.isSome then
    .ok ⟨mutation, h⟩
  else
    .error .missingOperation

def isRetrySafe (mutation : Mutation) (hasIdempotency : Bool) : Bool :=
  match mutation.inner.mutation with
  | some (.setCell _ _ timestampMicros _) => timestampMicros ≠ -1
  | some (.deleteFromColumn _ _ _) => true
  | some (.deleteFromFamily _) => true
  | some .deleteFromRow => true
  | some (.addToCell _) => hasIdempotency
  | some (.mergeToCell _) => hasIdempotency
  | none => false

end Mutation

/-! ## The changes of one row -/

structure RowMutation where
  rowKey : Bytes
  mutations : List Mutation
  idempotency : Option Idempotency
  rowKey_valid : validateRowKey rowKey = .ok ()
  length_le : mutations.length ≤ maxMutationsPerEntry
  deriving DecidableEq, Repr

namespace RowMutation

def new (rowKey : Bytes) : Except MutationIssue RowMutation :=
  match h : validateRowKey rowKey with
  | .error issue => .error issue
  | .ok () =>
      .ok { rowKey := rowKey
            mutations := []
            idempotency := none
            rowKey_valid := h
            length_le := Nat.zero_le _ }

def mutation (row : RowMutation) (mutation : Mutation) : Except MutationIssue RowMutation :=
  if h : row.mutations.length = maxMutationsPerEntry then
    .error .tooManyMutations
  else
    .ok { row with
      mutations := row.mutations ++ [mutation]
      length_le := by
        have hle := row.length_le
        simp only [List.length_append, List.length_singleton]
        omega }

def withIdempotencyToken (row : RowMutation) (elapsed : Option Nat) (token : Bytes) :
    Except MutationIssue RowMutation :=
  if token.length < minIdempotencyTokenBytes then
    .error .idempotencyTokenTooShort
  else
    match elapsed with
    | none => .error .clockBeforeUnixEpoch
    | some nanos => do
        let seconds ← i64OrOutOfRange (nanos / 1000000000)
        return { row with
          idempotency := some
            { token := token
              startTime := some { seconds := seconds, nanos := (nanos % 1000000000 : Nat) } } }

def isRetrySafe (row : RowMutation) : Bool :=
  row.mutations.all fun mutation => mutation.isRetrySafe row.idempotency.isSome

def intoProto (row : RowMutation) : MutateRowsEntry where
  rowKey := row.rowKey
  mutations := row.mutations.map Mutation.inner
  idempotency := row.idempotency

theorem length_intoProto_mutations_le (row : RowMutation) :
    row.intoProto.mutations.length ≤ maxMutationsPerEntry := by
  simpa [intoProto] using row.length_le

end RowMutation

/-! ## The rows of one table -/

structure BulkMutation where
  tableId : TableId
  entries : List RowMutation
  entries_nonempty : ∀ entry ∈ entries, entry.mutations ≠ []

namespace BulkMutation

def new (tableId : String) : Except MutationIssue BulkMutation :=
  match h : validateTableId tableId with
  | .error issue => .error issue.toMutationIssue
  | .ok () =>
      .ok { tableId := ⟨tableId, h⟩
            entries := []
            entries_nonempty := by simp }

def push (bulk : BulkMutation) (entry : RowMutation) : Except MutationIssue BulkMutation :=
  if h : entry.mutations = [] then
    .error .emptyRowMutation
  else
    .ok { bulk with
      entries := bulk.entries ++ [entry]
      entries_nonempty := by
        intro row hrow
        rcases List.mem_append.1 hrow with hrow | hrow
        · exact bulk.entries_nonempty row hrow
        · rw [List.mem_singleton.1 hrow]
          exact h }

end BulkMutation

end BigtableClient
