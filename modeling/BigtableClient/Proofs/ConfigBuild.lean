import BigtableClient.Config
import BigtableClient.ProofSupport.Fallible

/-!
# Loading and building a configuration

A chain of builder calls does what one load of the last values does.  The values of a
configuration are in normal form, so that a configuration can be built in some way if
and only if it is what its own values load.
-/

namespace BigtableClient

open ProofSupport.Fallible ProofSupport.Trimming

/-! ## Normal forms -/

@[simp] theorem trim_trim (text : String) : trim (trim text) = trim text := by
  rw [trim, trim, String.toList_ofList, trimmed_idempotent]

theorem contains_trim {text pattern : String} (hkept : ∀ c ∈ pattern.toList, isWhitespace c = false)
    (h : contains text pattern) : contains (trim text) pattern := by
  unfold contains at h ⊢
  rw [decide_eq_true_eq] at h ⊢
  rw [trim, String.toList_ofList]
  exact isInfix_trimmed hkept h

theorem isWhitespace_separator : ∀ c ∈ "://".toList, isWhitespace c = false := by
  simp [isWhitespace]

theorem contains_withScheme (host : String) : contains (withScheme host) "://" := by
  unfold withScheme
  split_ifs with hscheme
  · exact hscheme
  · unfold contains
    rw [decide_eq_true_eq, String.toList_append]
    exact ⟨"http".toList, host.toList, by simp⟩

section Checks

variable {parse : UriParser} {value value' : String} {field : ConfigField} {maxChars : Nat}

theorem nonEmpty_eq_ok :
    nonEmpty value field = .ok value' ↔ (trim value).isEmpty = false ∧ value' = trim value := by
  unfold nonEmpty
  dsimp only
  split_ifs with hempty
  · simp [hempty]
  · simp [hempty, eq_comm]

theorem nonEmpty_of_trim (hempty : (trim value).isEmpty = false) :
    nonEmpty (trim value) field = .ok (trim value) := by
  rw [nonEmpty_eq_ok, trim_trim]
  exact ⟨hempty, rfl⟩

theorem nonEmpty_normal (h : nonEmpty value field = .ok value') :
    nonEmpty value' field = .ok value' := by
  obtain ⟨hempty, rfl⟩ := nonEmpty_eq_ok.1 h
  exact nonEmpty_of_trim hempty

theorem nonEmptyWithMaxChars_normal (h : nonEmptyWithMaxChars value field maxChars = .ok value') :
    nonEmptyWithMaxChars value' field maxChars = .ok value' := by
  unfold nonEmptyWithMaxChars at h ⊢
  obtain ⟨trimmed, htrimmed, hlength⟩ := bind_eq_ok.1 h
  split_ifs at hlength with hlong
  obtain rfl := Except.ok.inj hlength
  rw [nonEmpty_normal htrimmed, ok_bind, if_neg hlong]

/-- What passes as a URI is trimmed and parses to an endpoint. -/
theorem validUri_eq_ok :
    validUri parse value field = .ok value' ↔
      nonEmpty value field = .ok value' ∧ ∃ uri, parse value' = some uri ∧ uri.isEndpoint := by
  unfold validUri
  rw [bind_eq_ok]
  constructor
  · rintro ⟨trimmed, htrimmed, hparse⟩
    split at hparse
    · cases hparse
    · next uri huri =>
      split_ifs at hparse with hendpoint
      obtain rfl := Except.ok.inj hparse
      exact ⟨htrimmed, uri, huri, hendpoint⟩
  · rintro ⟨htrimmed, uri, huri, hendpoint⟩
    refine ⟨value', htrimmed, ?_⟩
    rw [huri]
    exact if_pos hendpoint

theorem validUri_normal (h : validUri parse value field = .ok value') :
    validUri parse value' field = .ok value' := by
  obtain ⟨htrimmed, hparse⟩ := validUri_eq_ok.1 h
  exact validUri_eq_ok.2 ⟨nonEmpty_normal htrimmed, hparse⟩

/-- An emulator host that passed has its scheme. -/
theorem withScheme_normal (h : validUri parse (withScheme value) field = .ok value') :
    withScheme value' = value' := by
  obtain ⟨-, rfl⟩ := nonEmpty_eq_ok.1 (validUri_eq_ok.1 h).1
  exact if_pos (contains_trim isWhitespace_separator (contains_withScheme value))

theorem validEmulatorHost_normal {emulatorHost emulatorHost' : Option String}
    (h : validEmulatorHost parse emulatorHost = .ok emulatorHost') :
    validEmulatorHost parse emulatorHost' = .ok emulatorHost' := by
  cases emulatorHost with
  | none =>
      obtain rfl := Except.ok.inj h
      rfl
  | some host =>
      have hmap : (validUri parse (withScheme host) .emulatorHost).map some =
          .ok emulatorHost' := h
      obtain ⟨valid, hvalid, rfl⟩ := map_eq_ok.1 hmap
      have hscheme := withScheme_normal hvalid
      have hnormal := validUri_normal hvalid
      unfold validEmulatorHost
      dsimp only
      rw [hscheme, hnormal]
      rfl

end Checks

namespace ConnectionConfig

variable {parse : UriParser} {raw : RawConfig} {config config' : ConnectionConfig}

/-- What a configuration holds of the values it was loaded from. -/
structure Loaded (parse : UriParser) (raw : RawConfig) (config : ConnectionConfig) : Prop where
  projectId : nonEmpty raw.projectId .projectId = .ok config.projectId
  instanceId : nonEmpty raw.instanceId .instanceId = .ok config.instanceId
  appProfileId : nonEmptyWithMaxChars raw.appProfileId .appProfileId maxAppProfileIdChars =
    .ok config.appProfileId
  endpoint : validUri parse raw.endpoint .endpoint = .ok config.endpoint
  emulatorHost : validEmulatorHost parse raw.emulatorHost = .ok config.emulatorHost
  channelPoolSize : ensurePositive raw.channelPoolSize .channelPoolSize = .ok () ∧
    config.channelPoolSize = raw.channelPoolSize
  connectTimeout : ensureNonzero raw.connectTimeout .connectTimeout = .ok () ∧
    config.connectTimeout = raw.connectTimeout
  requestTimeout : ensureNonzero raw.requestTimeout .requestTimeout = .ok () ∧
    config.requestTimeout = raw.requestTimeout
  keepAliveInterval : ensureNonzero raw.keepAliveInterval .keepAliveInterval = .ok () ∧
    config.keepAliveInterval = raw.keepAliveInterval
  keepAliveTimeout : ensureNonzero raw.keepAliveTimeout .keepAliveTimeout = .ok () ∧
    config.keepAliveTimeout = raw.keepAliveTimeout

theorem tryFrom_eq_ok : tryFrom parse raw = .ok config ↔ Loaded parse raw config := by
  unfold tryFrom
  simp only [bind_eq_ok]
  constructor
  · rintro ⟨projectId, hprojectId, instanceId, hinstanceId, appProfileId, happProfileId, endpoint,
      hendpoint, emulatorHost, hemulatorHost, ⟨⟩, hpool, ⟨⟩, hconnect, ⟨⟩, hrequest, ⟨⟩, hinterval,
      ⟨⟩, htimeout, hconfig⟩
    obtain rfl := Except.ok.inj hconfig
    exact ⟨hprojectId, hinstanceId, happProfileId, hendpoint, hemulatorHost, ⟨hpool, rfl⟩,
      ⟨hconnect, rfl⟩, ⟨hrequest, rfl⟩, ⟨hinterval, rfl⟩, ⟨htimeout, rfl⟩⟩
  · intro h
    refine ⟨_, h.projectId, _, h.instanceId, _, h.appProfileId, _, h.endpoint, _, h.emulatorHost,
      _, h.channelPoolSize.1, _, h.connectTimeout.1, _, h.requestTimeout.1, _,
      h.keepAliveInterval.1, _, h.keepAliveTimeout.1, ?_⟩
    rw [← h.channelPoolSize.2, ← h.connectTimeout.2, ← h.requestTimeout.2,
      ← h.keepAliveInterval.2, ← h.keepAliveTimeout.2]
    rfl

/-- A configuration is in normal form. -/
theorem loaded_toRaw (h : Loaded parse raw config) : Loaded parse config.toRaw config where
  projectId := nonEmpty_normal h.projectId
  instanceId := nonEmpty_normal h.instanceId
  appProfileId := nonEmptyWithMaxChars_normal h.appProfileId
  endpoint := validUri_normal h.endpoint
  emulatorHost := validEmulatorHost_normal h.emulatorHost
  channelPoolSize := by
    rw [toRaw, h.channelPoolSize.2]
    exact ⟨h.channelPoolSize.1, rfl⟩
  connectTimeout := by
    rw [toRaw, h.connectTimeout.2]
    exact ⟨h.connectTimeout.1, rfl⟩
  requestTimeout := by
    rw [toRaw, h.requestTimeout.2]
    exact ⟨h.requestTimeout.1, rfl⟩
  keepAliveInterval := by
    rw [toRaw, h.keepAliveInterval.2]
    exact ⟨h.keepAliveInterval.1, rfl⟩
  keepAliveTimeout := by
    rw [toRaw, h.keepAliveTimeout.2]
    exact ⟨h.keepAliveTimeout.1, rfl⟩

/-- One builder call does what a load of the same value does. -/
theorem tryFrom_set (h : Loaded parse raw config) (setting : Setting) :
    tryFrom parse (raw.set setting) = config.set parse setting := by
  unfold tryFrom RawConfig.set set
  cases setting with
  | appProfileId appProfileId =>
      simp only [withAppProfileId, h.projectId, h.instanceId, h.endpoint, h.emulatorHost,
        h.channelPoolSize, h.connectTimeout, h.requestTimeout, h.keepAliveInterval,
        h.keepAliveTimeout, ok_bind]
  | endpoint endpoint =>
      simp only [withEndpoint, h.projectId, h.instanceId, h.appProfileId, h.emulatorHost,
        h.channelPoolSize, h.connectTimeout, h.requestTimeout, h.keepAliveInterval,
        h.keepAliveTimeout, ok_bind]
  | emulatorHost emulatorHost =>
      simp only [withEmulatorHost, validEmulatorHost, h.projectId, h.instanceId, h.appProfileId,
        h.endpoint, h.channelPoolSize, h.connectTimeout, h.requestTimeout, h.keepAliveInterval,
        h.keepAliveTimeout, ok_bind]
      cases validUri parse (withScheme emulatorHost) .emulatorHost with
      | error error => rfl
      | ok host => rfl
  | channelPoolSize channelPoolSize =>
      simp only [withChannelPoolSize, h.projectId, h.instanceId, h.appProfileId, h.endpoint,
        h.emulatorHost, h.connectTimeout, h.requestTimeout, h.keepAliveInterval,
        h.keepAliveTimeout, ok_bind]
  | connectTimeout connectTimeout =>
      simp only [withConnectTimeout, h.projectId, h.instanceId, h.appProfileId, h.endpoint,
        h.emulatorHost, h.channelPoolSize, h.requestTimeout, h.keepAliveInterval,
        h.keepAliveTimeout, ok_bind]
  | requestTimeout requestTimeout =>
      simp only [withRequestTimeout, h.projectId, h.instanceId, h.appProfileId, h.endpoint,
        h.emulatorHost, h.channelPoolSize, h.connectTimeout, h.keepAliveInterval,
        h.keepAliveTimeout, ok_bind]
  | keepAlive interval timeout =>
      simp only [withKeepAlive, h.projectId, h.instanceId, h.appProfileId, h.endpoint,
        h.emulatorHost, h.channelPoolSize, h.connectTimeout, h.requestTimeout, ok_bind]

/-! ## Chains of calls -/

theorem discard_bind {ε α β γ : Type} {x : Except ε α} {f : α → Except ε β} {g : α → Except ε γ}
    (h : ∀ a, discard (f a) = discard (g a)) : discard (x >>= f) = discard (x >>= g) := by
  cases x with
  | error error => rfl
  | ok a => exact h a

/-- Whether a call fails, and how, does not depend on the configuration. -/
theorem discard_set (parse : UriParser) (config other : ConnectionConfig) (setting : Setting) :
    discard (config.set parse setting) = discard (other.set parse setting) := by
  cases setting with
  | keepAlive interval timeout => exact discard_bind fun _ => discard_bind fun _ => rfl
  | _ => exact discard_bind fun _ => rfl

def configure (parse : UriParser) (raw : RawConfig) (settings : List Setting) :
    Except ConfigError ConnectionConfig := do
  let config ← tryFrom parse raw
  settings.foldlM (set parse) config

theorem foldlM_set (h : Loaded parse raw config) (other : ConnectionConfig)
    (settings : List Setting) :
    settings.foldlM (set parse) config = (do
      forM settings fun setting => discard (other.set parse setting)
      tryFrom parse (settings.foldl RawConfig.set raw)) := by
  induction settings generalizing raw config with
  | nil =>
      rw [List.foldlM_nil, List.forM_nil, List.foldl_nil, tryFrom_eq_ok.2 h]
      rfl
  | cons setting settings ih =>
      rw [List.foldlM_cons, List.forM_cons, List.foldl_cons, ← discard_set parse config other]
      cases hset : config.set parse setting with
      | error error => rfl
      | ok next =>
          have hnext : Loaded parse (raw.set setting) next := by
            rw [← tryFrom_eq_ok, tryFrom_set h, hset]
          exact ih hnext

/-- A chain of builder calls does what one load of the last values does, once every call passed its
own check, whatever configuration it was made on. -/
theorem configure_eq_load (parse : UriParser) (raw : RawConfig) (settings : List Setting)
    (other : ConnectionConfig) :
    configure parse raw settings = (do
      let _ ← tryFrom parse raw
      forM settings fun setting => discard (other.set parse setting)
      tryFrom parse (settings.foldl RawConfig.set raw)) := by
  unfold configure
  cases hload : tryFrom parse raw with
  | error error => rfl
  | ok config => exact foldlM_set (tryFrom_eq_ok.1 hload) other settings

inductive Built (parse : UriParser) : ConnectionConfig → Prop
  | load {raw : RawConfig} {config : ConnectionConfig} (h : tryFrom parse raw = .ok config) :
      Built parse config
  | set {config config' : ConnectionConfig} {setting : Setting} (h : Built parse config)
      (hset : config.set parse setting = .ok config') : Built parse config'

theorem Built.loaded (h : Built parse config) : Loaded parse config.toRaw config := by
  induction h with
  | load h => exact loaded_toRaw (tryFrom_eq_ok.1 h)
  | set h hset ih =>
      rw [← tryFrom_set ih, tryFrom_eq_ok] at hset
      exact loaded_toRaw hset

/-- A configuration can be built in some way if and only if its own values load, and then they
load that configuration. -/
theorem built_iff_loads (parse : UriParser) (config : ConnectionConfig) :
    Built parse config ↔ tryFrom parse config.toRaw = .ok config :=
  ⟨fun h => tryFrom_eq_ok.2 h.loaded, .load⟩

/-! ## What a configuration is good for -/

theorem ensureNonzero_eq_ok {value : Duration} {field : ConfigField} :
    ensureNonzero value field = .ok () ↔ value ≠ 0 := by
  unfold ensureNonzero
  split_ifs with hzero
  · simp [hzero]
  · simp [hzero]

theorem Built.requestTimeout_ne (h : Built parse config) : config.requestTimeout ≠ 0 :=
  ensureNonzero_eq_ok.1 h.loaded.requestTimeout.1

theorem Built.parse_serviceEndpoint (h : Built parse config) :
    ∃ uri, parse config.serviceEndpoint = some uri ∧ uri.isEndpoint := by
  have hloaded := h.loaded
  unfold serviceEndpoint
  cases hhost : config.emulatorHost with
  | none => exact (validUri_eq_ok.1 hloaded.endpoint).2
  | some host =>
      have hemulator := hloaded.emulatorHost
      rw [toRaw, hhost] at hemulator
      have hmap : (validUri parse (withScheme host) .emulatorHost).map some = .ok (some host) :=
        hemulator
      obtain ⟨valid, hvalid, hsome⟩ := map_eq_ok.1 hmap
      obtain rfl := Option.some.inj hsome
      exact (validUri_eq_ok.1 hvalid).2

theorem validatePolicies_default {deadlines : DeadlinePolicy}
    (hoperation : deadlines.operationTimeout ≠ 0) (hattempt : deadlines.attemptTimeout ≠ 0) :
    validatePolicies .default deadlines = .ok () := by
  have hmultiplier : invalidMultiplier RetryPolicy.default.multiplier = false := by decide +kernel
  unfold validatePolicies
  rw [if_neg (by decide), if_neg (by decide), if_neg (by decide), if_neg (by decide), hmultiplier,
    if_neg (by decide), if_neg hoperation, if_neg hattempt]

theorem validatePolicies_readOptions (h : config.requestTimeout ≠ 0) :
    validatePolicies config.readOptions.retry config.readOptions.deadlines = .ok () := by
  have hattempt : ReadOptions.default.deadlines.attemptTimeout ≠ 0 := by decide
  exact validatePolicies_default h hattempt

theorem validateOptions_bulkOptions (h : config.requestTimeout ≠ 0) :
    validateOptions config.bulkOptions = .ok () := by
  have hattempt : BulkMutationOptions.default.deadlines.attemptTimeout ≠ 0 := by decide
  have hpolicies : validatePolicies config.bulkOptions.retry config.bulkOptions.deadlines =
      .ok () := validatePolicies_default h hattempt
  unfold validateOptions
  rw [hpolicies]
  rfl

/-- What a configuration is good for: a client connects to its endpoint, and a request with the
options of the client starts unless the request itself stands in the way. -/
structure Serves (parse : UriParser) (header : MetadataParser) (config : ConnectionConfig) :
    Prop where
  endpoint : ∀ acceptsTls, (∃ endpoint, buildEndpoint parse acceptsTls config = .ok endpoint ∧
      endpoint.uri.isEndpoint ∧ endpoint.tls = !config.usesEmulator) ∨
    buildEndpoint parse acceptsTls config = .error .transport ∧ config.usesEmulator = false
  readRows : ∀ query now, (∃ call, config.readRows header query now = .ok call) ↔
    query.validate = .ok () ∧
      (routingHeader header (query.intoRequest config.toClientConfig).tableName).isSome ∧
      now + config.requestTimeout ≤ maxInstant
  mutateRows : ∀ encodedLen bulk now,
    (∃ start, config.mutateRows encodedLen header bulk now = .ok start) ↔
      bulk.entries = [] ∨ now + config.requestTimeout ≤ maxInstant ∧
        (routingHeader header (tableName config.toClientConfig bulk.tableId.val)).isSome

/-- Every configuration that can be built serves its client: the endpoint parses, with TLS unless it
is an emulator, and no request fails for the options that the client takes from there. -/
theorem built_serves (h : Built parse config) (header : MetadataParser) :
    Serves parse header config where
  endpoint acceptsTls := by
    obtain ⟨uri, huri, hendpoint⟩ := h.parse_serviceEndpoint
    unfold buildEndpoint
    rw [huri]
    dsimp only
    split_ifs with hemulator htls
    · exact Or.inl ⟨_, rfl, hendpoint, by rw [hemulator]; rfl⟩
    · exact Or.inl ⟨_, rfl, hendpoint, by simp [hemulator]⟩
    · exact Or.inr ⟨rfl, by simpa using hemulator⟩
  readRows query now := by
    have hpolicies := validatePolicies_readOptions h.requestTimeout_ne
    have htimeout : config.readOptions.deadlines.operationTimeout = config.requestTimeout := rfl
    unfold readRows BigtableClient.readRows Instant.checkedAdd
    rw [hpolicies, htimeout]
    dsimp only
    cases query.validate with
    | error issue => simp
    | ok _ =>
        dsimp only
        cases routingHeader header (query.intoRequest config.toClientConfig).tableName with
        | none => simp
        | some routing =>
            by_cases hle : now + config.requestTimeout ≤ maxInstant
            · simp [hle]
            · simp [hle]
  mutateRows encodedLen bulk now := by
    have hoptions := validateOptions_bulkOptions h.requestTimeout_ne
    have htimeout : config.bulkOptions.deadlines.operationTimeout = config.requestTimeout := rfl
    unfold mutateRows executeBulk Instant.checkedAdd
    rw [hoptions, htimeout]
    dsimp only
    cases hentries : bulk.entries with
    | nil => simp
    | cons row entries =>
        rw [if_neg (by simp)]
        by_cases hle : now + config.requestTimeout ≤ maxInstant
        · rw [if_pos hle]
          dsimp only
          cases routingHeader header (tableName config.toClientConfig bulk.tableId.val) with
          | none => simp
          | some routing => simp [hle]
        · simp [hle]

end ConnectionConfig

/-! ### The production defaults -/

def productionUri : UriParser := fun text =>
  if text = "https://bigtable.googleapis.com" then
    some
      { scheme := some "https"
        authority := some "bigtable.googleapis.com"
        path := "/"
        query := none }
  else
    none

theorem ConnectionConfig.built_serves_production :
    ∃ config, ConnectionConfig.new productionUri " project " "instance" = .ok config ∧
      (config.projectId = "project" ∧ config.usesEmulator = false) ∧
      ∀ header, Serves productionUri header config := by
  have hnew : ∃ config, ConnectionConfig.new productionUri " project " "instance" = .ok config ∧
      config.projectId = "project" ∧ config.usesEmulator = false := by
    refine ⟨_, rfl, ?_, ?_⟩
    · decide +kernel
    · rfl
  obtain ⟨config, hload, hvalues⟩ := hnew
  exact ⟨config, hload, hvalues, ConnectionConfig.built_serves (.load hload)⟩

end BigtableClient
