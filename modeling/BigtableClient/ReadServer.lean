import BigtableClient.Read
import BigtableClient.Selection

/-!
# A conforming server

What a `ReadRows` server owes its clients: it reads the row set of the request it
was sent and streams the selected rows of its table in scan order, in any legal
chunking and any grouping into messages.  It may break off at any point.
-/

namespace BigtableClient

open Proto
open ChunkGrammar
open ProofSupport.ScanOrder (Beyond)

/-- A finite table of rows, listed by their keys. -/
structure Table where
  rows : List Row
  sorted : rows.Pairwise fun earlier later => earlier.key < later.key
  keys_ne_nil : ∀ row ∈ rows, row.key ≠ []

namespace Table

def select (table : Table) (rows : Option RowSet) (reversed : Bool) : List Row :=
  let selected := table.rows.filter fun row => Selection.Selects rows row.key
  if reversed then selected.reverse else selected

def scan (table : Table) (request : ReadRowsRequest) : List Row :=
  let selected := table.select request.rows request.reversed
  if request.rowsLimit = 0 then selected else selected.take request.rowsLimit.toNat

end Table

/-- Every marker is strictly beyond every earlier row and marker and strictly before every row
still to come, and a row that will be abandoned is beyond every earlier row and marker too. -/
def Placed (reversed : Bool) : List Output → List Piece → Prop
  | _, [] => True
  | earlier, .row key cells :: pieces =>
      Placed reversed (earlier ++ [.row (decodeRow key cells)]) pieces
  | earlier, .marker key :: pieces =>
      (∀ output ∈ earlier, Beyond reversed output.key key) ∧
        (∀ row ∈ outputRows (streamOutputs pieces), Beyond reversed key row.key) ∧
        Placed reversed (earlier ++ [.marker key]) pieces
  | earlier, .abandoned key _ _ _ :: pieces =>
      (∀ output ∈ earlier, Beyond reversed output.key key) ∧ Placed reversed earlier pieces

/-- A stream that answers the request, after the client received the earlier outputs. -/
structure Answers (table : Table) (request : ReadRowsRequest) (earlier : List Output)
    (pieces : List Piece) : Prop where
  wellFormed : ∀ piece ∈ pieces, piece.WellFormed
  rows : outputRows (streamOutputs pieces) = table.scan request
  placed : Placed request.reversed earlier pieces

def messageItems (response : ReadRowsResponse) : List Item :=
  (if response.lastScannedRowKey = [] then [] else [.marker response.lastScannedRowKey]) ++
    response.chunks.map .chunk

/-- The request that was issued last and is not answered yet. -/
def ReadState.issued? (state : ReadState) : Option ReadRowsRequest :=
  match state.phase with
  | .calling _ _ request _ => some request
  | _ => none

/-- A step against a conforming server.  The server keeps what it has still to send: it fixes
that when it accepts the request, and ends the stream normally only when nothing is left. -/
def ServedStep (codec : Codec) (table : Table) (state : ReadState) (unsent : List Item)
    (input : ReadInput) (next : ReadState) (unsent' : List Item) : Prop :=
  state.step codec input = some next ∧
    match input with
    | .opened => ∃ request ∈ state.issued?, ∃ pieces,
        Answers table request state.log.accepted pieces ∧ unsent' = streamItems pieces
    | .message response => unsent = messageItems response ++ unsent'
    | .streamEnded => unsent = [] ∧ unsent' = []
    | _ => unsent' = unsent

/-- The states that a read can reach against a conforming server, in steps of this kind. -/
inductive Served (codec : Codec) (table : Table) (ok : ReadState → ReadInput → Prop)
    (init : ReadState) : ReadState → List Item → Prop
  | start : Served codec table ok init init []
  | step {state next : ReadState} {unsent unsent' : List Item} {input : ReadInput}
      (hserved : Served codec table ok init state unsent) (hok : ok state input)
      (hstep : ServedStep codec table state unsent input next unsent') :
      Served codec table ok init next unsent'

end BigtableClient
