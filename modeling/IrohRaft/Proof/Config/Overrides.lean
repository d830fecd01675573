import IrohRaft.Config

/-!
# What the environment overrides

The variables are read one after another, and each is assigned when it is read. A malformed one ends the call where
it stands: those before it have been assigned, those after it are not looked at.
-/

namespace IrohRaft

open Rust

namespace Config

/-- A variable of the environment. -/
inductive EnvVar where
  | nodeId
  | dataDir
  | debug
  | bindAddress
  | peers
  | electionTimeoutMs
  | heartbeatIntervalMs
  | logLevel
  | metricsEnabled
  | otlpEndpoint
  deriving DecidableEq, Repr

namespace EnvVar

/-- In the order in which they are read. -/
def all : List EnvVar :=
  [.nodeId, .dataDir, .debug, .bindAddress, .peers, .electionTimeoutMs, .heartbeatIntervalMs, .logLevel, .metricsEnabled,
    .otlpEndpoint]

def name : EnvVar → String
  | .nodeId => "IROH_RAFT_NODE_ID"
  | .dataDir => "IROH_RAFT_DATA_DIR"
  | .debug => "IROH_RAFT_DEBUG"
  | .bindAddress => "IROH_RAFT_BIND_ADDRESS"
  | .peers => "IROH_RAFT_PEERS"
  | .electionTimeoutMs => "IROH_RAFT_ELECTION_TIMEOUT_MS"
  | .heartbeatIntervalMs => "IROH_RAFT_HEARTBEAT_INTERVAL_MS"
  | .logLevel => "IROH_RAFT_LOG_LEVEL"
  | .metricsEnabled => "IROH_RAFT_METRICS_ENABLED"
  | .otlpEndpoint => "OTEL_EXPORTER_OTLP_ENDPOINT"

/-- What a text of the variable changes in a configuration, or why it is malformed. -/
def read (text : String) : EnvVar → Outcome ConfigError (Config → Config)
  | .nodeId => do
      let id ← parseNumber "Invalid node ID" text
      return fun config => { config with node.id := some id }
  | .dataDir => .ok fun config => { config with node.dataDir := pathOf text }
  | .debug => .ok fun config => { config with node.debug := (parseBool text.toList).getD false }
  | .bindAddress => do
      let bindAddress ← parseAddr text.toList
      return fun config => { config with transport.bindAddress := bindAddress }
  | .peers => do
      let peers ← (split ',' text.toList).mapM fun peer => parseAddr (trim peer)
      return fun config => { config with transport.peers := peers }
  | .electionTimeoutMs => do
      let timeoutMs ← parseNumber "Invalid election timeout" text
      let maxMs ← u64Add timeoutMs 2000
      return fun config =>
        { config with
          raft.electionTimeoutMin := durationFromMillis timeoutMs
          raft.electionTimeoutMax := durationFromMillis maxMs }
  | .heartbeatIntervalMs => do
      let heartbeatMs ← parseNumber "Invalid heartbeat interval" text
      return fun config => { config with raft.heartbeatInterval := durationFromMillis heartbeatMs }
  | .logLevel => .ok fun config => { config with observability.logging.level := text }
  | .metricsEnabled =>
      .ok fun config => { config with observability.metrics.enabled := (parseBool text.toList).getD true }
  | .otlpEndpoint =>
      .ok fun config =>
        { config with
          observability.tracing.enabled := true
          observability.tracing.otlpEndpoint := some text }

/-- What the environment makes of the variable. -/
def override (env : Environment) (var : EnvVar) : Outcome ConfigError (Config → Config) :=
  match env var.name with
  | some text => var.read text
  | none => .ok id

end EnvVar

/-! ### One variable -/

theorem performs_ifSet {env : Environment} (var : EnvVar) {assign : String → Action Config ConfigError Unit}
    (h : ∀ text, (assign text).Performs (var.read text)) : (ifSet env var.name assign).Performs (var.override env) := by
  rw [ifSet, EnvVar.override]
  cases env var.name with
  | none => exact Action.Performs.pure
  | some text => exact h text

/-- A variable that is read and assigned. -/
theorem performs_lift_modify {α : Type} (outcome : Outcome ConfigError α) (assign : α → Config → Config) :
    (do let value ← Action.lift outcome; Action.modify (assign value)).Performs
      (do let value ← outcome; return assign value) :=
  Action.Performs.lift_bind fun value => Action.Performs.modify (assign value)

/-! ### The whole environment -/

theorem stopsAt_applyEnvOverrides (env : Environment) :
    (applyEnvOverrides env).StopsAt (EnvVar.all.map (EnvVar.override env)) := by
  refine (performs_ifSet .nodeId fun text => performs_lift_modify _ _).stopsAt_bind ?_
  refine (performs_ifSet .dataDir fun text => Action.Performs.modify _).stopsAt_bind ?_
  refine (performs_ifSet .debug fun text => Action.Performs.modify _).stopsAt_bind ?_
  refine (performs_ifSet .bindAddress fun text => performs_lift_modify _ _).stopsAt_bind ?_
  refine (performs_ifSet .peers fun text => performs_lift_modify _ _).stopsAt_bind ?_
  refine (performs_ifSet .electionTimeoutMs fun text => ?_).stopsAt_bind ?_
  · refine Action.Performs.lift_bind fun timeoutMs => ?_
    have hsum : ∀ error : ConfigError, u64Add timeoutMs 2000 ≠ .err error := u64Add_ne_err timeoutMs 2000
    generalize u64Add timeoutMs 2000 = sum at hsum ⊢
    exact Action.Performs.modify_lift_modify hsum _ _
  refine (performs_ifSet .heartbeatIntervalMs fun text => performs_lift_modify _ _).stopsAt_bind ?_
  refine (performs_ifSet .logLevel fun text => Action.Performs.modify _).stopsAt_bind ?_
  refine (performs_ifSet .metricsEnabled fun text => Action.Performs.modify _).stopsAt_bind ?_
  exact (performs_ifSet .otlpEndpoint fun text => Action.Performs.modify _).stopsAt

/-- An error is that of the first malformed variable, and the configuration is left as the variables before it have
made it. -/
theorem applyEnvOverrides_eq_err_iff (env : Environment) (config left : Config) (error : ConfigError) :
    applyEnvOverrides env config = (.err error, left) ↔
      ∃ before malformed after, ∃ updates : List (Config → Config), EnvVar.all = before ++ malformed :: after ∧
        before.map (EnvVar.override env) = updates.map .ok ∧ malformed.override env = .err error ∧
        left = updates.foldl (fun config update => update config) config := by
  rw [stopsAt_applyEnvOverrides]
  apply Iff.intro
  · intro hstops
    obtain ⟨updates, rest, hall, hleft⟩ := hstops
    obtain ⟨before, others, hsplit, hbefore, hothers⟩ := List.map_eq_append_iff.mp hall
    obtain ⟨malformed, after, rfl, hmalformed, _⟩ := List.map_eq_cons_iff.mp hothers
    exact ⟨before, malformed, after, updates, hsplit, hbefore, hmalformed, hleft⟩
  · intro hstops
    obtain ⟨before, malformed, after, updates, hall, hbefore, hmalformed, hleft⟩ := hstops
    refine ⟨updates, after.map (EnvVar.override env), ?_, hleft⟩
    rw [hall, List.map_append, List.map_cons, hbefore, hmalformed]

/-- Debug mode is set, and the address after it is malformed. -/
def halfMalformed : Environment := fun name =>
  if name = EnvVar.debug.name then some "true" else if name = EnvVar.bindAddress.name then some "localhost" else none

/-- The call fails on the address, and debug mode stays on. -/
theorem not_atomic :
    ¬ ∀ (env : Environment) (config left : Config) (error : ConfigError),
      applyEnvOverrides env config = (.err error, left) → left = config := by
  intro hatomic
  have hdebug : EnvVar.debug.override halfMalformed = .ok fun config => { config with node.debug := true } := by
    simp [EnvVar.override, EnvVar.read, halfMalformed, parseBool]
  have haddress : EnvVar.bindAddress.override halfMalformed = .err (.addressParse SocketAddr.parseError) := by
    have hparse : parseAddr "localhost".toList = .err (.addressParse SocketAddr.parseError) := by
      rw [parseAddr, show SocketAddr.parse "localhost".toList = none by decide, Outcome.okOr]
    rw [EnvVar.override, show halfMalformed EnvVar.bindAddress.name = some "localhost" by decide]
    simp only [EnvVar.read, hparse, Outcome.err_bind]
  have hunset : EnvVar.nodeId.override halfMalformed = .ok id ∧ EnvVar.dataDir.override halfMalformed = .ok id := by
    simp [EnvVar.override, halfMalformed, EnvVar.name]
  have hfails : applyEnvOverrides halfMalformed Config.default =
      (.err (.addressParse SocketAddr.parseError), { Config.default with node.debug := true }) := by
    refine (stopsAt_applyEnvOverrides halfMalformed _ _ _).mpr ⟨[id, id, fun config => { config with node.debug := true }],
      [.peers, .electionTimeoutMs, .heartbeatIntervalMs, .logLevel, .metricsEnabled, .otlpEndpoint].map
        (EnvVar.override halfMalformed), ?_, ?_⟩
    · simp only [EnvVar.all, List.map_cons, List.map_nil, hunset, hdebug, haddress, List.cons_append, List.nil_append]
    · simp
  have hsame := congrArg (fun config => config.node.debug) (hatomic _ _ _ _ hfails)
  simp [Config.default, NodeConfig.default] at hsame

end Config

end IrohRaft
