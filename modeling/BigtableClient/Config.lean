import BigtableClient.ProofSupport.Trimming
import BigtableClient.RowStream

/-!
# Connection settings

The whole configuration of a client, with every check that it passes, whether it is
loaded in one go or built call by call, and the requests that a client makes with the
options it takes from there.  URIs are parsed by another package.
-/

namespace BigtableClient

open ProofSupport.Trimming

/-! ## Errors -/

inductive ConfigField where
  | projectId
  | instanceId
  | appProfileId
  | endpoint
  | emulatorHost
  | channelPoolSize
  | connectTimeout
  | requestTimeout
  | keepAliveInterval
  | keepAliveTimeout
  deriving DecidableEq, Repr

inductive ConfigIssue where
  | empty
  | tooLong (maxChars : Nat)
  | invalidUri
  | mustBePositive
  deriving DecidableEq, Repr

/-- `Error::InvalidConfig` -/
structure ConfigError where
  field : ConfigField
  issue : ConfigIssue
  deriving DecidableEq, Repr

/-! ## Texts -/

/-- `char::is_whitespace`: the characters with the Unicode property `White_Space`. -/
def isWhitespace (c : Char) : Bool :=
  (9 ≤ c.toNat ∧ c.toNat ≤ 13) ∨ c.toNat = 0x20 ∨ c.toNat = 0x85 ∨ c.toNat = 0xA0 ∨
    c.toNat = 0x1680 ∨ (0x2000 ≤ c.toNat ∧ c.toNat ≤ 0x200A) ∨ c.toNat = 0x2028 ∨
    c.toNat = 0x2029 ∨ c.toNat = 0x202F ∨ c.toNat = 0x205F ∨ c.toNat = 0x3000

def trim (text : String) : String :=
  .ofList (trimmed isWhitespace text.toList)

def contains (text pattern : String) : Bool :=
  pattern.toList <:+: text.toList

/-- The parts of `http::Uri` that are read. -/
structure Uri where
  scheme : Option String
  authority : Option String
  path : String
  query : Option String
  deriving DecidableEq, Repr

/-- `str::parse::<Uri>` -/
abbrev UriParser := String → Option Uri

/-! ## Checks -/

def maxAppProfileIdChars : Nat := 50

def nonEmpty (value : String) (field : ConfigField) : Except ConfigError String :=
  let trimmed := trim value
  if trimmed.isEmpty then
    .error { field := field, issue := .empty }
  else
    .ok trimmed

def nonEmptyWithMaxChars (value : String) (field : ConfigField) (maxChars : Nat) :
    Except ConfigError String := do
  let value ← nonEmpty value field
  if value.length > maxChars then
    .error { field := field, issue := .tooLong maxChars }
  else
    .ok value

def Uri.isEndpoint (uri : Uri) : Bool :=
  (uri.scheme = some "http" ∨ uri.scheme = some "https") ∧ uri.authority.isSome ∧
    (uri.path = "" ∨ uri.path = "/") ∧ uri.query.isNone

def validUri (parse : UriParser) (value : String) (field : ConfigField) :
    Except ConfigError String := do
  let value ← nonEmpty value field
  match parse value with
  | none => .error { field := field, issue := .invalidUri }
  | some uri =>
      if uri.isEndpoint then .ok value else .error { field := field, issue := .invalidUri }

def ensurePositive (value : Nat) (field : ConfigField) : Except ConfigError Unit :=
  if value = 0 then .error { field := field, issue := .mustBePositive } else .ok ()

def ensureNonzero (value : Duration) (field : ConfigField) : Except ConfigError Unit :=
  if value = 0 then .error { field := field, issue := .mustBePositive } else .ok ()

def withScheme (host : String) : String :=
  if contains host "://" then host else "http://" ++ host

def validEmulatorHost (parse : UriParser) (emulatorHost : Option String) :
    Except ConfigError (Option String) :=
  match emulatorHost with
  | none => .ok none
  | some host => (validUri parse (withScheme host) .emulatorHost).map some

/-! ## The configuration -/

structure RawConfig where
  projectId : String
  instanceId : String
  appProfileId : String
  endpoint : String
  emulatorHost : Option String
  channelPoolSize : Nat
  connectTimeout : Duration
  requestTimeout : Duration
  keepAliveInterval : Duration
  keepAliveTimeout : Duration
  deriving DecidableEq, Repr

def RawConfig.default : RawConfig where
  projectId := ""
  instanceId := ""
  appProfileId := "default"
  endpoint := "https://bigtable.googleapis.com"
  emulatorHost := none
  channelPoolSize := 1
  connectTimeout := 10 * 1000000000
  requestTimeout := 600 * 1000000000
  keepAliveInterval := 60 * 1000000000
  keepAliveTimeout := 20 * 1000000000

/-- `ClientConfig` with the settings that no request reads. -/
structure ConnectionConfig extends ClientConfig where
  endpoint : String
  emulatorHost : Option String
  channelPoolSize : Nat
  connectTimeout : Duration
  requestTimeout : Duration
  keepAliveInterval : Duration
  keepAliveTimeout : Duration
  deriving DecidableEq, Repr

namespace ConnectionConfig

def tryFrom (parse : UriParser) (raw : RawConfig) : Except ConfigError ConnectionConfig := do
  let projectId ← nonEmpty raw.projectId .projectId
  let instanceId ← nonEmpty raw.instanceId .instanceId
  let appProfileId ← nonEmptyWithMaxChars raw.appProfileId .appProfileId maxAppProfileIdChars
  let endpoint ← validUri parse raw.endpoint .endpoint
  let emulatorHost ← validEmulatorHost parse raw.emulatorHost
  ensurePositive raw.channelPoolSize .channelPoolSize
  ensureNonzero raw.connectTimeout .connectTimeout
  ensureNonzero raw.requestTimeout .requestTimeout
  ensureNonzero raw.keepAliveInterval .keepAliveInterval
  ensureNonzero raw.keepAliveTimeout .keepAliveTimeout
  return {
    projectId := projectId
    instanceId := instanceId
    appProfileId := appProfileId
    endpoint := endpoint
    emulatorHost := emulatorHost
    channelPoolSize := raw.channelPoolSize
    connectTimeout := raw.connectTimeout
    requestTimeout := raw.requestTimeout
    keepAliveInterval := raw.keepAliveInterval
    keepAliveTimeout := raw.keepAliveTimeout }

def new (parse : UriParser) (projectId instanceId : String) :
    Except ConfigError ConnectionConfig :=
  tryFrom parse { RawConfig.default with projectId := projectId, instanceId := instanceId }

/-! ### Builders -/

def withAppProfileId (config : ConnectionConfig) (appProfileId : String) :
    Except ConfigError ConnectionConfig := do
  let appProfileId ← nonEmptyWithMaxChars appProfileId .appProfileId maxAppProfileIdChars
  return { config with appProfileId := appProfileId }

def withEndpoint (parse : UriParser) (config : ConnectionConfig) (endpoint : String) :
    Except ConfigError ConnectionConfig := do
  let endpoint ← validUri parse endpoint .endpoint
  return { config with endpoint := endpoint }

def withEmulatorHost (parse : UriParser) (config : ConnectionConfig) (emulatorHost : String) :
    Except ConfigError ConnectionConfig := do
  let emulatorHost ← validUri parse (withScheme emulatorHost) .emulatorHost
  return { config with emulatorHost := some emulatorHost }

def withChannelPoolSize (config : ConnectionConfig) (channelPoolSize : Nat) :
    Except ConfigError ConnectionConfig := do
  ensurePositive channelPoolSize .channelPoolSize
  return { config with channelPoolSize := channelPoolSize }

def withConnectTimeout (config : ConnectionConfig) (connectTimeout : Duration) :
    Except ConfigError ConnectionConfig := do
  ensureNonzero connectTimeout .connectTimeout
  return { config with connectTimeout := connectTimeout }

def withRequestTimeout (config : ConnectionConfig) (requestTimeout : Duration) :
    Except ConfigError ConnectionConfig := do
  ensureNonzero requestTimeout .requestTimeout
  return { config with requestTimeout := requestTimeout }

def withKeepAlive (config : ConnectionConfig) (interval timeout : Duration) :
    Except ConfigError ConnectionConfig := do
  ensureNonzero interval .keepAliveInterval
  ensureNonzero timeout .keepAliveTimeout
  return { config with keepAliveInterval := interval, keepAliveTimeout := timeout }

/-! ### Accessors -/

def serviceEndpoint (config : ConnectionConfig) : String :=
  config.emulatorHost.getD config.endpoint

def usesEmulator (config : ConnectionConfig) : Bool :=
  config.emulatorHost.isSome

end ConnectionConfig

/-! ## Calls of builders -/

/-- One call of a builder. -/
inductive Setting where
  | appProfileId (appProfileId : String)
  | endpoint (endpoint : String)
  | emulatorHost (emulatorHost : String)
  | channelPoolSize (channelPoolSize : Nat)
  | connectTimeout (connectTimeout : Duration)
  | requestTimeout (requestTimeout : Duration)
  | keepAlive (interval timeout : Duration)
  deriving DecidableEq, Repr

def ConnectionConfig.set (parse : UriParser) (config : ConnectionConfig) :
    Setting → Except ConfigError ConnectionConfig
  | .appProfileId appProfileId => config.withAppProfileId appProfileId
  | .endpoint endpoint => config.withEndpoint parse endpoint
  | .emulatorHost emulatorHost => config.withEmulatorHost parse emulatorHost
  | .channelPoolSize channelPoolSize => config.withChannelPoolSize channelPoolSize
  | .connectTimeout connectTimeout => config.withConnectTimeout connectTimeout
  | .requestTimeout requestTimeout => config.withRequestTimeout requestTimeout
  | .keepAlive interval timeout => config.withKeepAlive interval timeout

def RawConfig.set (raw : RawConfig) : Setting → RawConfig
  | .appProfileId appProfileId => { raw with appProfileId := appProfileId }
  | .endpoint endpoint => { raw with endpoint := endpoint }
  | .emulatorHost emulatorHost => { raw with emulatorHost := some emulatorHost }
  | .channelPoolSize channelPoolSize => { raw with channelPoolSize := channelPoolSize }
  | .connectTimeout connectTimeout => { raw with connectTimeout := connectTimeout }
  | .requestTimeout requestTimeout => { raw with requestTimeout := requestTimeout }
  | .keepAlive interval timeout =>
      { raw with keepAliveInterval := interval, keepAliveTimeout := timeout }

def ConnectionConfig.toRaw (config : ConnectionConfig) : RawConfig where
  projectId := config.projectId
  instanceId := config.instanceId
  appProfileId := config.appProfileId
  endpoint := config.endpoint
  emulatorHost := config.emulatorHost
  channelPoolSize := config.channelPoolSize
  connectTimeout := config.connectTimeout
  requestTimeout := config.requestTimeout
  keepAliveInterval := config.keepAliveInterval
  keepAliveTimeout := config.keepAliveTimeout

/-! ## Endpoints -/

/-- `tonic::transport::Endpoint`, as far as it is set. -/
structure Endpoint where
  uri : Uri
  connectTimeout : Duration
  keepAliveInterval : Duration
  keepAliveTimeout : Duration
  keepAliveWhileIdle : Bool
  tcpNodelay : Bool
  tls : Bool
  deriving DecidableEq, Repr

inductive ConnectError where
  | invalidConfig (error : ConfigError)
  /-- the TLS settings are refused -/
  | transport
  deriving DecidableEq, Repr

/-- Whether `tls_config` accepts an endpoint is up to another package. -/
def buildEndpoint (parse : UriParser) (acceptsTls : Endpoint → Bool) (config : ConnectionConfig) :
    Except ConnectError Endpoint :=
  match parse config.serviceEndpoint with
  | none =>
      .error (.invalidConfig
        { field := if config.usesEmulator then .emulatorHost else .endpoint
          issue := .invalidUri })
  | some uri =>
      let endpoint : Endpoint :=
        { uri := uri
          connectTimeout := config.connectTimeout
          keepAliveInterval := config.keepAliveInterval
          keepAliveTimeout := config.keepAliveTimeout
          keepAliveWhileIdle := true
          tcpNodelay := true
          tls := false }
      if config.usesEmulator then
        .ok endpoint
      else if acceptsTls endpoint then
        .ok { endpoint with tls := true }
      else
        .error .transport

/-! ## Requests with the options of the client -/

namespace ConnectionConfig

def readOptions (config : ConnectionConfig) : ReadOptions :=
  { ReadOptions.default with
    deadlines := { ReadOptions.default.deadlines with operationTimeout := config.requestTimeout } }

def bulkOptions (config : ConnectionConfig) : BulkMutationOptions :=
  { BulkMutationOptions.default with
    deadlines :=
      { BulkMutationOptions.default.deadlines with operationTimeout := config.requestTimeout } }

def readRows (parse : MetadataParser) (config : ConnectionConfig) (query : Query)
    (now : Instant) : Except ReadStartError ReadCall :=
  BigtableClient.readRows parse config.toClientConfig query config.readOptions now

def mutateRows (encodedLen : EncodedLen) (parse : MetadataParser) (config : ConnectionConfig)
    (bulk : BulkMutation) (now : Instant) : Except BulkStartError BulkStart :=
  executeBulk encodedLen parse config.toClientConfig bulk config.bulkOptions now

end ConnectionConfig

end BigtableClient
