import BigtableClient.Mutation

/-!
# What a mutation does to a row

The meaning of row mutations on the side of the server.  A row is a finite map from
cells to values.  Aggregate operations and the timestamps of the server are its own
business, and an entry whose idempotency token the server knows is ignored.
-/

namespace BigtableClient

open Proto (MutationKind TimestampRange MutateRowsEntry)

structure CellKey where
  familyName : String
  columnQualifier : Bytes
  timestampMicros : Int
  deriving DecidableEq, Repr

@[ext] structure RowCells where
  value : CellKey → Option Bytes
  finite : {key | value key ≠ none}.Finite

namespace RowCells

def empty : RowCells where
  value _ := none
  finite := by simp

def set (row : RowCells) (key : CellKey) (bytes : Bytes) : RowCells where
  value other := if other = key then some bytes else row.value other
  finite := by
    apply (row.finite.insert key).subset
    intro other hother
    by_cases h : other = key
    · exact Set.mem_insert_iff.2 (Or.inl h)
    · rw [Set.mem_ofPred_eq, if_neg h] at hother
      exact Set.mem_insert_iff.2 (Or.inr hother)

def deleteWhere (row : RowCells) (deleted : CellKey → Bool) : RowCells where
  value key := if deleted key then none else row.value key
  finite := by
    apply row.finite.subset
    intro key hkey
    rw [Set.mem_ofPred_eq] at hkey ⊢
    split_ifs at hkey with h
    · exact absurd rfl hkey
    · exact hkey

theorem exists_fresh (row : RowCells) (familyName : String) (columnQualifier : Bytes) :
    ∃ timestampMicros, row.value ⟨familyName, columnQualifier, timestampMicros⟩ = none := by
  have hinfinite : (Set.univ : Set Int).Infinite := Set.infinite_univ
  obtain ⟨timestampMicros, -, hfresh⟩ :=
    hinfinite.exists_notMem_finite (row.finite.image CellKey.timestampMicros)
  refine ⟨timestampMicros, ?_⟩
  by_contra hsome
  exact hfresh ⟨⟨familyName, columnQualifier, timestampMicros⟩, hsome, rfl⟩

end RowCells

/-- A half-open range; an end of 0 leaves it unbounded. -/
def Proto.TimestampRange.contains (range : TimestampRange) (timestampMicros : Int) : Bool :=
  range.startTimestampMicros ≤ timestampMicros ∧
    (range.endTimestampMicros = 0 ∨ timestampMicros < range.endTimestampMicros)

/-- What the server decides by itself. -/
structure RowServer where
  serverTime : RowCells → String → Bytes → Int
  addToCell : Bytes → RowCells → RowCells
  mergeToCell : Bytes → RowCells → RowCells
  serverTime_fresh : ∀ (row : RowCells) (familyName : String) (columnQualifier : Bytes),
    row.value ⟨familyName, columnQualifier, serverTime row familyName columnQualifier⟩ = none

namespace RowServer

def mutate (server : RowServer) (row : RowCells) (mutation : MutationKind) : RowCells :=
  match mutation with
  | .setCell familyName columnQualifier timestampMicros value =>
      let timestampMicros :=
        if timestampMicros = -1 then server.serverTime row familyName columnQualifier
        else timestampMicros
      row.set ⟨familyName, columnQualifier, timestampMicros⟩ value
  | .deleteFromColumn familyName columnQualifier timeRange =>
      row.deleteWhere fun key =>
        key.familyName = familyName ∧ key.columnQualifier = columnQualifier ∧
          timeRange.all fun range => range.contains key.timestampMicros
  | .deleteFromFamily familyName => row.deleteWhere fun key => key.familyName = familyName
  | .deleteFromRow => row.deleteWhere fun _ => true
  | .addToCell encoded => server.addToCell encoded row
  | .mergeToCell encoded => server.mergeToCell encoded row

def mutateAll (server : RowServer) (row : RowCells) (mutations : List Proto.Mutation) : RowCells :=
  mutations.foldl (fun row mutation => mutation.mutation.elim row (server.mutate row)) row

/-- A row with the idempotency tokens of the entries that were applied to it. -/
structure Served where
  row : RowCells
  tokens : List Bytes

def deliver (server : RowServer) (served : Served) (entry : MutateRowsEntry) : Served :=
  match entry.idempotency with
  | none => { served with row := server.mutateAll served.row entry.mutations }
  | some idempotency =>
      if idempotency.token ∈ served.tokens then
        served
      else
        { row := server.mutateAll served.row entry.mutations
          tokens := served.tokens ++ [idempotency.token] }

end RowServer

end BigtableClient
