import BigtableClient.Bytes

/-!
# The row model

Rows as the client hands them out: families, columns and cells stay in the order
in which the server sent them.
-/

namespace BigtableClient

structure Cell where
  timestampMicros : Int
  value : Bytes
  labels : List String
  deriving DecidableEq, Repr

/-- A column in a family, with its cells in server response order. -/
structure Column where
  qualifier : Bytes
  cells : List Cell
  deriving DecidableEq, Repr

structure Family where
  name : String
  columns : List Column
  deriving DecidableEq, Repr

structure Row where
  key : Bytes
  families : List Family
  deriving DecidableEq, Repr

end BigtableClient
