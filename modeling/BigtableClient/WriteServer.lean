import BigtableClient.AttemptReading
import BigtableClient.Bulk
import BigtableClient.RowServer

/-!
# A table behind a bulk mutation

The rows of a table while a bulk mutation runs over it.  Every request that was
issued is on its way from then on: the server gets to each of its entries at any
later time, once, also after the client gave the attempt up, or never.  It may
report what it likes, but what it reports as done it has done.
-/

namespace BigtableClient

/-- An entry of a request that is on its way: the batch, the number of the request in the batch
and the position in the request. -/
structure Parcel where
  batch : Nat
  request : Nat
  position : Nat
  deriving DecidableEq, Repr

namespace BulkState

def sent (state : BulkState) (parcel : Parcel) : Option WriteAttempt := do
  let run ← state.batches[parcel.batch]?
  run.attempts[parcel.request]?

def contents (state : BulkState) (parcel : Parcel) : Option Proto.MutateRowsEntry := do
  let attempt ← state.sent parcel
  attempt.request.entries[parcel.position]?

end BulkState

/-- The positions that the responses of an attempt report as done.  A position that the request
does not have stands for nothing. -/
def WriteAttempt.doneAt (attempt : WriteAttempt) : List Nat :=
  (attempt.results.filter fun result =>
    resultCode result = 0 ∧ 0 ≤ result.index ∧
      result.index < attempt.request.entries.length).map fun result => result.index.toNat

def BatchRun.done (run : BatchRun) (batch : Nat) : List Parcel :=
  run.attempts.zipIdx.flatMap fun (attempt, request) =>
    attempt.doneAt.map fun position => ⟨batch, request, position⟩

def BulkState.done (state : BulkState) : List Parcel :=
  state.batches.zipIdx.flatMap fun (run, batch) => run.done batch

/-! ## Client and table -/

structure BulkWorld where
  client : BulkState
  rows : Bytes → RowServer.Served
  /-- the parcels that the server has got to -/
  applied : List Parcel

inductive BulkWorldInput where
  | client (input : BulkInput)
  /-- the server gets to a parcel -/
  | applied (parcel : Parcel)
  deriving DecidableEq, Repr

namespace BulkWorld

def start (client : BulkState) (rows : Bytes → RowServer.Served) : BulkWorld where
  client := client
  rows := rows
  applied := []

def apply (server : RowServer) (world : BulkWorld) (parcel : Parcel)
    (entry : Proto.MutateRowsEntry) : BulkWorld :=
  { world with
    rows := Function.update world.rows entry.rowKey
      (server.deliver (world.rows entry.rowKey) entry)
    applied := world.applied ++ [parcel] }

def step (codec : Codec) (server : RowServer) (world : BulkWorld) :
    BulkWorldInput → Option BulkWorld
  | .client input =>
      match world.client.step codec input with
      | none => none
      | some client =>
          if client.done ⊆ world.applied then some { world with client := client } else none
  | .applied parcel =>
      match world.client.contents parcel with
      | none => none
      | some entry =>
          if parcel ∈ world.applied then none else some (world.apply server parcel entry)

end BulkWorld

end BigtableClient
