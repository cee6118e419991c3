import BigtableClient.Bulk
import BigtableClient.ProofSupport.Channel
import BigtableClient.Query
import BigtableClient.ReadServer

/-!
# The row stream

`read_rows` opens a read on the task of its caller.  Once an attempt streams, the
operation goes on in a task of its own, which hands its rows over a bounded channel;
the caller gets the other end of it, the `RowStream`.  `read_row` takes the first
item of such a stream.
-/

namespace BigtableClient

open ProofSupport.Channel

def streamBuffer : Nat := 16

def ReadInput.gate : ReadInput → Gate
  | .sent => .room
  | .sendFailed => .hungUp
  | .closed => .hungUp
  | _ => .free

def rowProducer (codec : Codec) : Producer ReadState ReadInput (Except ReadError Row) where
  step := ReadState.step codec
  gate := ReadInput.gate
  items state := state.log.items

abbrev RowStream := Link ReadState (Except ReadError Row)

def ReadPhase.isFinished : ReadPhase → Bool
  | .finished _ => true
  | _ => false

/-- `RowStream::next`, with `none` while it waits or when there is no `RowStream` any more. -/
def RowStream.next (stream : RowStream) : Option (Option (Except ReadError Row)) :=
  match stream.hungUp, stream.queue with
  | true, _ => none
  | false, item :: _ => some (some item)
  | false, [] => if stream.producer.phase.isFinished then some none else none

/-! ## Calls -/

inductive ReadCall where
  /-- in `open` -/
  | opening (state : ReadState)
  /-- it returned an error -/
  | failed (error : ReadError) (state : ReadState)
  /-- it returned a stream -/
  | streaming (stream : RowStream)
  /-- it was dropped -/
  | dropped (state : ReadState)
  /-- it panicked -/
  | panicked (state : ReadState)

namespace ReadCall

def operation : ReadCall → ReadState
  | .opening state => state
  | .failed _ state => state
  | .streaming stream => stream.producer
  | .dropped state => state
  | .panicked state => state

def taken : ReadCall → List (Except ReadError Row)
  | .streaming stream => stream.taken
  | _ => []

/-- The result of `open`: when nothing is left to read, the stream ends at once. -/
def settle (state : ReadState) : ReadCall :=
  match state.phase with
  | .streaming _ => .streaming (.start state)
  | .finished .completed => .streaming (.start state)
  | .finished (.failed error) => .failed error state
  | .finished .cancelled => .dropped state
  | .finished .panicked => .panicked state
  | _ => .opening state

def step (codec : Codec) (call : ReadCall) (input : LinkInput ReadInput) : Option ReadCall :=
  match call, input with
  | .opening state, .produce input => (state.step codec input).map settle
  | .streaming stream, input =>
      (stream.step (rowProducer codec) streamBuffer input).map .streaming
  | _, _ => none

/-- The task of the call is not dropped. -/
def Keeps (_ : ReadCall) (input : LinkInput ReadInput) : Prop :=
  input ≠ .produce .dropped

instance (call : ReadCall) (input : LinkInput ReadInput) : Decidable (call.Keeps input) :=
  inferInstanceAs (Decidable (¬ input = .produce .dropped))

/-- What `read_row` returns, once the call allows it. -/
def firstRow : ReadCall → Option (Except ReadError (Option Row))
  | .failed error _ => some (.error error)
  | .streaming stream =>
      stream.next.map fun item =>
        match item with
        | none => .ok none
        | some (.ok row) => .ok (some row)
        | some (.error error) => .error error
  | _ => none

/-- A step of a call against a conforming server. -/
def ServedStep (codec : Codec) (table : Table) (call : ReadCall) (unsent : List ChunkGrammar.Item)
    (input : LinkInput ReadInput) (next : ReadCall) (unsent' : List ChunkGrammar.Item) : Prop :=
  call.step codec input = some next ∧
    match input with
    | .produce input =>
        BigtableClient.ServedStep codec table call.operation unsent input next.operation unsent'
    | _ => unsent' = unsent

inductive Served (codec : Codec) (table : Table) (init : ReadCall) :
    ReadCall → List ChunkGrammar.Item → Prop
  | start : Served codec table init init []
  | step {call next : ReadCall} {unsent unsent' : List ChunkGrammar.Item}
      {input : LinkInput ReadInput} (hserved : Served codec table init call unsent)
      (hkeeps : call.Keeps input)
      (hstep : ServedStep codec table call unsent input next unsent') :
      Served codec table init next unsent'

end ReadCall

/-! ## Starting -/

inductive ReadStartError where
  | invalidReadPolicy (issue : PolicyIssue)
  /-- `ReadPolicyIssue::DeadlineTooLarge` -/
  | deadlineTooLarge
  | invalidQuery (issue : QueryIssue)
  /-- the table name does not fit into the routing header -/
  | invalidClientMetadata
  deriving DecidableEq, Repr

/-- `start_with_service_and_telemetry`, up to `open`. -/
def readRows (parse : MetadataParser) (config : ClientConfig) (query : Query)
    (options : ReadOptions) (now : Instant) : Except ReadStartError ReadCall :=
  match validatePolicies options.retry options.deadlines with
  | .error issue => .error (.invalidReadPolicy issue)
  | .ok () =>
      match query.validate with
      | .error issue => .error (.invalidQuery issue)
      | .ok () =>
          let request := query.intoRequest config
          match routingHeader parse request.tableName with
          | none => .error .invalidClientMetadata
          | some _ =>
              match Instant.checkedAdd now options.deadlines.operationTimeout with
              | none => .error .deadlineTooLarge
              | some deadline =>
                  .ok (.opening (.new request options deadline query.tableId.val))

def rowQuery (tableId : String) (key : Bytes) : Except QueryIssue Query := do
  let query ← Query.new tableId
  (query.rowKey key).withLimit 1

/-- `read_row` and `read_row_with_options`, up to `open`. -/
def readRow (parse : MetadataParser) (config : ClientConfig) (tableId : String) (key : Bytes)
    (options : ReadOptions) (now : Instant) : Except ReadStartError ReadCall :=
  match rowQuery tableId key with
  | .error issue => .error (.invalidQuery issue)
  | .ok query => readRows parse config query options now

end BigtableClient
