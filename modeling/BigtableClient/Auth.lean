import BigtableClient.ProofSupport.Clock
import BigtableClient.Resource
import BigtableClient.Retry

/-!
# Access tokens

The token manager keeps one access token and a task that replaces it in time.  The
task is a machine that moves from await point to await point: it sleeps until the
token is nearly over, asks the token source for another one, and backs off when that
fails.  The interceptor puts the current token on every request.
-/

namespace BigtableClient

open ProofSupport.Clock

/-- Nanoseconds since the earliest time of the wall clock (`std::time::SystemTime`). -/
abbrev SystemTime := Nat

namespace SystemTime

def checkedSub (time : SystemTime) (duration : Duration) : Option SystemTime :=
  if duration ≤ time then some (time - duration) else none

def durationSince (time earlier : SystemTime) : Option Duration :=
  if earlier ≤ time then some (time - earlier) else none

end SystemTime

def refreshMargin : Duration := 15 * 1000000000

def refreshRetryDelay : Duration := 5 * 1000000000

/-! ## Tokens -/

inductive AuthError where
  /-- the token source failed -/
  | authentication
  | invalidAccessToken
  deriving DecidableEq, Repr

structure AccessToken where
  secret : String
  expiresAt : SystemTime
  deriving DecidableEq, Repr

structure TokenSnapshot where
  authorization : MetadataValue
  expiresAt : SystemTime
  deriving DecidableEq, Repr

def TokenSnapshot.tryFrom (parse : MetadataParser) (token : AccessToken) :
    Except AuthError TokenSnapshot :=
  match parse ("Bearer " ++ token.secret) with
  | none => .error .invalidAccessToken
  | some authorization =>
      .ok { authorization := authorization, expiresAt := token.expiresAt }

/-! ## The refresh loop -/

inductive RefreshPhase where
  /-- before the task was polled -/
  | spawned
  | sleeping (delay : Duration)
  /-- for the token source to answer -/
  | fetching
  /-- in the sleep after a failure -/
  | backingOff
  | aborted
  deriving DecidableEq, Repr

structure TokenManager where
  current : TokenSnapshot
  phase : RefreshPhase
  /-- what the token source answered, the first token included -/
  answers : List (Except AuthError AccessToken)

structure RefreshTurn where
  fallback : SystemTime
  now : SystemTime
  deriving DecidableEq, Repr

inductive RefreshInput where
  /-- the task is polled for the first time -/
  | polled (turn : RefreshTurn)
  | woke
  | fetched (answer : Except AuthError AccessToken) (turn : RefreshTurn)
  /-- the sleep after a failure is over -/
  | rested (turn : RefreshTurn)
  /-- the manager is dropped, and aborts its task -/
  | dropped

namespace TokenManager

def start (parse : MetadataParser) (answer : Except AuthError AccessToken) :
    Except AuthError TokenManager := do
  let token ← answer
  let current ← TokenSnapshot.tryFrom parse token
  return { current := current, phase := .spawned, answers := [answer] }

def expiredStatus : Status where
  code := .unauthenticated
  message := "Bigtable access token expired before it could be refreshed"
  details := []

def authorization (manager : TokenManager) (now : SystemTime) : Except Status MetadataValue :=
  if now ≥ manager.current.expiresAt then
    .error expiredStatus
  else
    .ok manager.current.authorization

/-- The top of the loop. -/
def sleepUntilRefresh (manager : TokenManager) (turn : RefreshTurn) : TokenManager :=
  let refreshAt :=
    (SystemTime.checkedSub manager.current.expiresAt refreshMargin).getD turn.fallback
  let delay := (SystemTime.durationSince refreshAt turn.now).getD 0
  { manager with phase := .sleeping delay }

def receive (parse : MetadataParser) (manager : TokenManager)
    (answer : Except AuthError AccessToken) (turn : RefreshTurn) : TokenManager :=
  let manager := { manager with answers := manager.answers ++ [answer] }
  match answer.bind (TokenSnapshot.tryFrom parse) with
  | .ok snapshot => { manager with current := snapshot }.sleepUntilRefresh turn
  | .error _ => { manager with phase := .backingOff }

def step (parse : MetadataParser) (manager : TokenManager) (input : RefreshInput) :
    Option TokenManager :=
  match manager.phase, input with
  | .spawned, .polled turn => some (manager.sleepUntilRefresh turn)
  | .sleeping _, .woke => some { manager with phase := .fetching }
  | .fetching, .fetched answer turn => some (manager.receive parse answer turn)
  | .backingOff, .rested turn => some (manager.sleepUntilRefresh turn)
  | .aborted, _ => none
  | _, .dropped => some { manager with phase := .aborted }
  | _, _ => none

/-- The manager over the clock: the timer and the wall clock run alike. -/
def clocked (parse : MetadataParser) : ClockedMachine TokenManager RefreshInput Unit where
  step := step parse
  reads input now :=
    match input with
    | .polled turn => turn.fallback = now ∧ turn.now = now
    | .fetched _ turn => turn.fallback = now ∧ turn.now = now
    | .rested turn => turn.fallback = now ∧ turn.now = now
    | .woke => true
    | .dropped => true
  wakes
    | .woke => some ()
    | .rested _ => some ()
    | _ => none
  sleeps _ next :=
    match next.phase with
    | .sleeping delay => some ((), delay)
    | .backingOff => some ((), refreshRetryDelay)
    | _ => none

end TokenManager

/-! ## The interceptor -/

abbrev MetadataMap := List (String × String)

namespace MetadataMap

def getAll (metadata : MetadataMap) (key : String) : List String :=
  (metadata.filter fun entry => entry.1 = key).map Prod.snd

/-- `insert` replaces what was there. -/
def insert (metadata : MetadataMap) (key value : String) : MetadataMap :=
  metadata.filter (fun entry => entry.1 ≠ key) ++ [(key, value)]

end MetadataMap

structure AuthInterceptor where
  /-- absent for an emulator -/
  tokens : Option TokenManager
  apiClient : MetadataValue
  featureFlags : MetadataValue

def AuthInterceptor.call (interceptor : AuthInterceptor) (now : SystemTime)
    (metadata : MetadataMap) : Except Status MetadataMap := do
  let metadata ←
    match interceptor.tokens with
    | none => .ok metadata
    | some tokens => do
        let authorization ← tokens.authorization now
        .ok (MetadataMap.insert metadata "authorization" authorization.text)
  let metadata := MetadataMap.insert metadata "x-goog-api-client" interceptor.apiClient.text
  return MetadataMap.insert metadata "bigtable-features" interceptor.featureFlags.text

end BigtableClient
