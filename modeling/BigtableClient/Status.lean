import BigtableClient.Proto

/-!
# gRPC statuses

Status codes, and statuses with the rich details that may travel inside them.
-/

namespace BigtableClient

/-- A gRPC status code (`tonic::Code`). -/
inductive Code where
  | ok
  | cancelled
  | unknown
  | invalidArgument
  | deadlineExceeded
  | notFound
  | alreadyExists
  | permissionDenied
  | resourceExhausted
  | failedPrecondition
  | aborted
  | outOfRange
  | unimplemented
  | internal
  | unavailable
  | dataLoss
  | unauthenticated
  deriving DecidableEq, Repr

/-- `Code::from_i32`: a number without a meaning is `Unknown`. -/
def Code.fromI32 (value : Int) : Code :=
  match value with
  | 0 => .ok
  | 1 => .cancelled
  | 2 => .unknown
  | 3 => .invalidArgument
  | 4 => .deadlineExceeded
  | 5 => .notFound
  | 6 => .alreadyExists
  | 7 => .permissionDenied
  | 8 => .resourceExhausted
  | 9 => .failedPrecondition
  | 10 => .aborted
  | 11 => .outOfRange
  | 12 => .unimplemented
  | 13 => .internal
  | 14 => .unavailable
  | 15 => .dataLoss
  | 16 => .unauthenticated
  | _ => .unknown

/-- A gRPC status (`tonic::Status`). -/
structure Status where
  code : Code
  message : String
  details : Bytes
  deriving DecidableEq, Repr

/-- `Status::deadline_exceeded` -/
def Status.deadlineExceeded (message : String) : Status where
  code := .deadlineExceeded
  message := message
  details := []

end BigtableClient
