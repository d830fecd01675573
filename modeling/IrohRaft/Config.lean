import IrohRaft.Library.FromStr
import IrohRaft.Library.Triple
import IrohRaft.Management.Types

/-!
# The configuration

`config.rs`: the configuration, its defaults, what the environment overrides in it, how it is validated, and the
builder. A configuration holds the fields that one of these reads or writes. `apply_env_overrides` changes the
configuration as it goes, so it says also what it leaves when it fails; what the environment holds is input, and a
variable that is not set or not Unicode is none. A path is its bytes.
-/

namespace Rust

/-- `f64`, as its bits. -/
structure F64 where
  bits : UInt64
  deriving DecidableEq, Repr

namespace F64

def isNan (x : F64) : Bool := x.bits &&& 0x7FFFFFFFFFFFFFFF > 0x7FF0000000000000

/-- Numbers of one sign are ordered as their other bits are. -/
def order (x : F64) : Int :=
  let magnitude := (x.bits &&& 0x7FFFFFFFFFFFFFFF).toNat
  if x.bits ≥ 0x8000000000000000 then -magnitude else magnitude

/-- `<=`, which is false of what is not a number. -/
def le (x y : F64) : Bool := !x.isNan && !y.isNan && decide (x.order ≤ y.order)

end F64

end Rust

namespace IrohRaft

open Rust
open Management (Duration nanosPerSec)

/-- `Duration::from_millis`. -/
def durationFromMillis (millis : UInt64) : Duration :=
  ⟨millis.toNat * 1000000, by
    have hlt := millis.toNat_lt
    simp only [nanosPerSec]
    omega⟩

/-- `duration.as_millis() as u64`. -/
def durationAsMillis (duration : Duration) : UInt64 := UInt64.ofNat (duration.val / 1000000)

/-- Addition of durations, which panics on overflow. -/
def durationAdd {ε : Type} (first second : Duration) : Outcome ε Duration :=
  if h : (first.val + second.val) / nanosPerSec < 2 ^ 64 then .ok ⟨first.val + second.val, h⟩ else .panic

/-- The bytes of a path. -/
abbrev PathBuf := Bytes

def pathOf (text : String) : PathBuf := text.toByteArray.data.toList

inductive ConfigError where
  | invalid (field message : String)
  | missing (field : String)
  | environment (message : String)
  | addressParse (error : String)
  deriving DecidableEq, Repr

/-! ### The fields and their defaults -/

structure NodeMetadata where
  name : Option String
  zone : Option String
  tags : HashMap String String

def NodeMetadata.default : NodeMetadata where
  name := none
  zone := none
  tags := ∅

structure NodeConfig where
  id : Option UInt64
  dataDir : PathBuf
  debug : Bool
  metadata : NodeMetadata

def NodeConfig.default : NodeConfig where
  id := none
  dataDir := pathOf "./data"
  debug := false
  metadata := NodeMetadata.default

structure CompactionConfig where
  enabled : Bool
  thresholdEntries : UInt64

def CompactionConfig.default : CompactionConfig where
  enabled := true
  thresholdEntries := 10000

structure SnapshotConfig where
  enabled : Bool
  thresholdEntries : UInt64
  compressionLevel : UInt32

def SnapshotConfig.default : SnapshotConfig where
  enabled := true
  thresholdEntries := 50000
  compressionLevel := 3

inductive ReadOnlyOption where
  | disabled
  | leaderLease
  | readIndex
  deriving DecidableEq, Repr

structure RaftConfig where
  electionTimeoutMin : Duration
  electionTimeoutMax : Duration
  heartbeatInterval : Duration
  compaction : CompactionConfig
  snapshot : SnapshotConfig
  preVote : Bool
  readOnlyOption : ReadOnlyOption

def RaftConfig.default : RaftConfig where
  electionTimeoutMin := durationFromMillis 3000
  electionTimeoutMax := durationFromMillis 5000
  heartbeatInterval := durationFromMillis 1000
  compaction := CompactionConfig.default
  snapshot := SnapshotConfig.default
  preVote := true
  readOnlyOption := .disabled

structure DiscoveryConfig where
  enableMdns : Bool

def DiscoveryConfig.default : DiscoveryConfig where
  enableMdns := true

structure IrohConfig where
  relayUrl : Option String
  discovery : DiscoveryConfig

def IrohConfig.default : IrohConfig where
  relayUrl := some "https://relay.iroh.network"
  discovery := DiscoveryConfig.default

/-- `"127.0.0.1:0"`, a random port. -/
def defaultBindAddress : SocketAddr := .v4 ⟨127, 0, 0, 1⟩ 0

example : SocketAddr.parse "127.0.0.1:0".toList = some defaultBindAddress := by decide

structure TransportConfig where
  bindAddress : SocketAddr
  peers : List SocketAddr
  iroh : IrohConfig

def TransportConfig.default : TransportConfig where
  bindAddress := defaultBindAddress
  peers := []
  iroh := IrohConfig.default

inductive StorageBackend where
  | redb
  | memory
  | custom (connectionString : String)
  deriving DecidableEq, Repr

inductive SyncStrategy where
  | none
  | always
  | periodic
  | onCommit
  deriving DecidableEq, Repr

structure StorageConfig where
  backend : StorageBackend
  syncStrategy : SyncStrategy
  cacheSizeMb : UInt64

def StorageConfig.default : StorageConfig where
  backend := .redb
  syncStrategy := .periodic
  cacheSizeMb := 128

structure LoggingConfig where
  level : String

def LoggingConfig.default : LoggingConfig where
  level := "info"

structure MetricsConfig where
  enabled : Bool
  bindAddress : Option SocketAddr

def MetricsConfig.default : MetricsConfig where
  enabled := true
  bindAddress := none

structure TracingConfig where
  enabled : Bool
  otlpEndpoint : Option String
  sampleRate : F64

/-- The sample rate is 0.1. -/
def TracingConfig.default : TracingConfig where
  enabled := false
  otlpEndpoint := none
  sampleRate := ⟨0x3FB999999999999A⟩

structure ObservabilityConfig where
  logging : LoggingConfig
  metrics : MetricsConfig
  tracing : TracingConfig

def ObservabilityConfig.default : ObservabilityConfig where
  logging := LoggingConfig.default
  metrics := MetricsConfig.default
  tracing := TracingConfig.default

structure Config where
  node : NodeConfig
  raft : RaftConfig
  transport : TransportConfig
  storage : StorageConfig
  observability : ObservabilityConfig

namespace Config

def default : Config where
  node := NodeConfig.default
  raft := RaftConfig.default
  transport := TransportConfig.default
  storage := StorageConfig.default
  observability := ObservabilityConfig.default

/-! ### The environment -/

/-- What `std::env::var` returns for a name. -/
abbrev Environment := String → Option String

/-- `text.parse::<u64>()`, with an error of its own. -/
def parseNumber (message text : String) : Outcome ConfigError UInt64 :=
  match parseU64 text.toList with
  | .ok value => .ok value
  | .error e => .err (.environment s!"{message}: {e}")

def parseAddr (text : List Char) : Outcome ConfigError SocketAddr :=
  Outcome.okOr (SocketAddr.parse text) (.addressParse SocketAddr.parseError)

/-- `if let Ok(value) = std::env::var(name)`. -/
def ifSet (env : Environment) (name : String) (assign : String → Action Config ConfigError Unit) :
    Action Config ConfigError Unit :=
  match env name with
  | some value => assign value
  | none => pure ()

def applyEnvOverrides (env : Environment) : Action Config ConfigError Unit := do
  ifSet env "IROH_RAFT_NODE_ID" fun id => do
    let id ← Action.lift (parseNumber "Invalid node ID" id)
    Action.modify fun config => { config with node.id := some id }
  ifSet env "IROH_RAFT_DATA_DIR" fun dataDir =>
    Action.modify fun config => { config with node.dataDir := pathOf dataDir }
  ifSet env "IROH_RAFT_DEBUG" fun debug =>
    Action.modify fun config => { config with node.debug := (parseBool debug.toList).getD false }
  ifSet env "IROH_RAFT_BIND_ADDRESS" fun bindAddr => do
    let bindAddress ← Action.lift (parseAddr bindAddr.toList)
    Action.modify fun config => { config with transport.bindAddress := bindAddress }
  ifSet env "IROH_RAFT_PEERS" fun peers => do
    let peers ← Action.lift ((split ',' peers.toList).mapM fun peer => parseAddr (trim peer))
    Action.modify fun config => { config with transport.peers := peers }
  ifSet env "IROH_RAFT_ELECTION_TIMEOUT_MS" fun electionTimeout => do
    let timeoutMs ← Action.lift (parseNumber "Invalid election timeout" electionTimeout)
    Action.modify fun config => { config with raft.electionTimeoutMin := durationFromMillis timeoutMs }
    let maxMs ← Action.lift (u64Add timeoutMs 2000)
    Action.modify fun config => { config with raft.electionTimeoutMax := durationFromMillis maxMs }
  ifSet env "IROH_RAFT_HEARTBEAT_INTERVAL_MS" fun heartbeat => do
    let heartbeatMs ← Action.lift (parseNumber "Invalid heartbeat interval" heartbeat)
    Action.modify fun config => { config with raft.heartbeatInterval := durationFromMillis heartbeatMs }
  ifSet env "IROH_RAFT_LOG_LEVEL" fun logLevel =>
    Action.modify fun config => { config with observability.logging.level := logLevel }
  ifSet env "IROH_RAFT_METRICS_ENABLED" fun metricsEnabled =>
    Action.modify fun config =>
      { config with observability.metrics.enabled := (parseBool metricsEnabled.toList).getD true }
  ifSet env "OTEL_EXPORTER_OTLP_ENDPOINT" fun otlpEndpoint => do
    Action.modify fun config => { config with observability.tracing.enabled := true }
    Action.modify fun config => { config with observability.tracing.otlpEndpoint := some otlpEndpoint }

/-! ### Validation -/

/-- The loop over the peers, with those it has seen. -/
def checkPeers (seenPeers : List SocketAddr) : List SocketAddr → Outcome ConfigError Unit
  | [] => .ok ()
  | peer :: rest => do
      Outcome.rejectIf (peer ∈ seenPeers) (.invalid "transport.peers" s!"Duplicate peer address: {peer.toString}")
      checkPeers (peer :: seenPeers) rest

def logLevels : List String := ["trace", "debug", "info", "warn", "error"]

/-- `(0.0..=1.0).contains(&rate)`. -/
def isRate (rate : F64) : Bool := F64.le ⟨0⟩ rate && rate.le ⟨0x3FF0000000000000⟩

def validate (config : Config) : Outcome ConfigError Unit := do
  Outcome.rejectIf (config.node.id = none) (.missing "node.id")
  Outcome.rejectIf (config.node.dataDir = []) (.invalid "node.data_dir" "Data directory cannot be empty")
  Outcome.rejectIf (config.raft.heartbeatInterval.val ≥ config.raft.electionTimeoutMin.val)
    (.invalid "raft.heartbeat_interval" "Heartbeat interval must be less than election timeout")
  Outcome.rejectIf (config.raft.electionTimeoutMin.val ≥ config.raft.electionTimeoutMax.val)
    (.invalid "raft.election_timeout" "Election timeout min must be less than max")
  checkPeers [] config.transport.peers
  let level := config.observability.logging.level
  Outcome.rejectIf (level ∉ logLevels) (.invalid "observability.logging.level" s!"Invalid log level: {level}")
  Outcome.rejectIf (isRate config.observability.tracing.sampleRate = false)
    (.invalid "observability.tracing.sample_rate" "Sample rate must be between 0.0 and 1.0")

end Config

/-! ### The builder -/

structure ConfigBuilder where
  config : Config

namespace ConfigBuilder

def new : ConfigBuilder where
  config := Config.default

def developmentPreset : ConfigBuilder where
  config :=
    { Config.default with
      raft :=
        { RaftConfig.default with
          electionTimeoutMin := durationFromMillis 1000
          electionTimeoutMax := durationFromMillis 2000
          heartbeatInterval := durationFromMillis 250 }
      observability := { ObservabilityConfig.default with logging := { level := "debug" } }
      storage := { StorageConfig.default with syncStrategy := .periodic } }

def productionPreset : ConfigBuilder where
  config :=
    { Config.default with
      raft :=
        { RaftConfig.default with
          electionTimeoutMin := durationFromMillis 5000
          electionTimeoutMax := durationFromMillis 10000
          heartbeatInterval := durationFromMillis 1000 }
      observability := { ObservabilityConfig.default with logging := { level := "info" } }
      storage := { StorageConfig.default with syncStrategy := .onCommit } }

def testingPreset : ConfigBuilder where
  config :=
    { Config.default with
      raft :=
        { RaftConfig.default with
          electionTimeoutMin := durationFromMillis 500
          electionTimeoutMax := durationFromMillis 1000
          heartbeatInterval := durationFromMillis 100 }
      observability :=
        { ObservabilityConfig.default with
          logging := { level := "warn" }
          metrics := { MetricsConfig.default with enabled := false } }
      storage := { StorageConfig.default with backend := .memory, syncStrategy := .none } }

/-- The function a builder comes from. -/
inductive Preset where
  | new
  | development
  | production
  | testing
  deriving DecidableEq, Repr

def ofPreset : Preset → ConfigBuilder
  | .new => new
  | .development => developmentPreset
  | .production => productionPreset
  | .testing => testingPreset

inductive Call where
  | nodeId (id : UInt64)
  | dataDir (dir : PathBuf)
  | debug (debug : Bool)
  | nodeName (name : String)
  | nodeZone (zone : String)
  | addNodeTag (key value : String)
  | bindAddress (addr : String)
  | addPeer (addr : String)
  | peers (peers : List String)
  | electionTimeout (min : Duration)
  | heartbeatInterval (interval : Duration)
  | preVote (enabled : Bool)
  | readOnlyOption (option : ReadOnlyOption)
  | logCompaction (enabled : Bool) (thresholdEntries : UInt64)
  | snapshots (enabled : Bool) (thresholdEntries : UInt64) (compressionLevel : UInt32)
  | storageBackend (backend : StorageBackend)
  | syncStrategy (strategy : SyncStrategy)
  | cacheSizeMb (sizeMb : UInt64)
  | logLevel (level : String)
  | metrics (enabled : Bool)
  | metricsAddress (addr : String)
  | tracing (otlpEndpoint : String)
  | tracingSampleRate (rate : F64)
  | relayServer (url : String)
  | enableMdnsDiscovery (enabled : Bool)

variable {ε : Type}

def call (builder : ConfigBuilder) : Call → Outcome ε ConfigBuilder
  | .nodeId id => .ok { builder with config.node.id := some id }
  | .dataDir dir => .ok { builder with config.node.dataDir := dir }
  | .debug debug => .ok { builder with config.node.debug := debug }
  | .nodeName name => .ok { builder with config.node.metadata.name := some name }
  | .nodeZone zone => .ok { builder with config.node.metadata.zone := some zone }
  | .addNodeTag key value =>
      .ok { builder with config.node.metadata.tags := builder.config.node.metadata.tags.insert key value }
  | .bindAddress addr =>
      .ok { builder with config.transport.bindAddress := (SocketAddr.parse addr.toList).getD defaultBindAddress }
  | .addPeer addr =>
      match SocketAddr.parse addr.toList with
      | some socketAddr => .ok { builder with config.transport.peers := builder.config.transport.peers ++ [socketAddr] }
      | none => .ok builder
  | .peers peers =>
      .ok { builder with config.transport.peers := peers.filterMap fun addr => SocketAddr.parse addr.toList }
  | .electionTimeout min => do
      let max ← durationAdd min (durationFromMillis 2000)
      return { builder with config.raft.electionTimeoutMin := min, config.raft.electionTimeoutMax := max }
  | .heartbeatInterval interval => .ok { builder with config.raft.heartbeatInterval := interval }
  | .preVote enabled => .ok { builder with config.raft.preVote := enabled }
  | .readOnlyOption option => .ok { builder with config.raft.readOnlyOption := option }
  | .logCompaction enabled thresholdEntries =>
      .ok { builder with
        config.raft.compaction.enabled := enabled
        config.raft.compaction.thresholdEntries := thresholdEntries }
  | .snapshots enabled thresholdEntries compressionLevel =>
      .ok { builder with
        config.raft.snapshot.enabled := enabled
        config.raft.snapshot.thresholdEntries := thresholdEntries
        config.raft.snapshot.compressionLevel := compressionLevel }
  | .storageBackend backend => .ok { builder with config.storage.backend := backend }
  | .syncStrategy strategy => .ok { builder with config.storage.syncStrategy := strategy }
  | .cacheSizeMb sizeMb => .ok { builder with config.storage.cacheSizeMb := sizeMb }
  | .logLevel level => .ok { builder with config.observability.logging.level := level }
  | .metrics enabled => .ok { builder with config.observability.metrics.enabled := enabled }
  | .metricsAddress addr =>
      match SocketAddr.parse addr.toList with
      | some socketAddr => .ok { builder with config.observability.metrics.bindAddress := some socketAddr }
      | none => .ok builder
  | .tracing otlpEndpoint =>
      .ok { builder with
        config.observability.tracing.enabled := true
        config.observability.tracing.otlpEndpoint := some otlpEndpoint }
  | .tracingSampleRate rate => .ok { builder with config.observability.tracing.sampleRate := rate }
  | .relayServer url => .ok { builder with config.transport.iroh.relayUrl := some url }
  | .enableMdnsDiscovery enabled => .ok { builder with config.transport.iroh.discovery.enableMdns := enabled }

def build (builder : ConfigBuilder) : Outcome ConfigError Config := do
  builder.config.validate
  return builder.config

/-- A chain of calls, from the function the builder comes from to `build`. -/
def run (preset : Preset) (calls : List Call) : Outcome ConfigError Config := do
  let builder ← calls.foldlM call (ofPreset preset)
  builder.build

end ConfigBuilder

end IrohRaft
