import IrohRaft.Library.Register
import IrohRaft.Proof.Config.Validation
import Mathlib.Data.List.Induction

/-!
# What a builder makes of the addresses it is given

The builder keeps no trace of an address it could not read: it binds the default address instead, and leaves a peer
out. What it builds is what the last calls have set, so whether `build` accepts it is decided by the calls.
-/

namespace IrohRaft

open Rust Register

namespace ConfigBuilder

/-! ### What a call sets -/

namespace Call

def setsNodeId : Call → Option UInt64
  | .nodeId id => some id
  | _ => none

def setsDataDir : Call → Option PathBuf
  | .dataDir dir => some dir
  | _ => none

def setsElectionTimeout : Call → Option Management.Duration
  | .electionTimeout min => some min
  | _ => none

def setsHeartbeatInterval : Call → Option Management.Duration
  | .heartbeatInterval interval => some interval
  | _ => none

def setsLogLevel : Call → Option String
  | .logLevel level => some level
  | _ => none

def setsSampleRate : Call → Option F64
  | .tracingSampleRate rate => some rate
  | _ => none

def setsBindAddress : Call → Option String
  | .bindAddress addr => some addr
  | _ => none

def setsPeers : Call → Option (List String)
  | .peers texts => some texts
  | _ => none

def addsPeer : Call → Option String
  | .addPeer addr => some addr
  | _ => none

/-- The addresses the call is given to bind or to add as peers. -/
def addresses : Call → List String
  | .bindAddress addr => [addr]
  | .addPeer addr => [addr]
  | .peers texts => texts
  | _ => []

/-- The call does not panic: there is a timeout two seconds longer. -/
def Fits (call : Call) : Prop :=
  ∀ min, call.setsElectionTimeout = some min →
    (min.val + (durationFromMillis 2000).val) / Management.nanosPerSec < 2 ^ 64

end Call

def parseText (text : String) : Option SocketAddr := SocketAddr.parse text.toList

/-- The texts of the last `peers` call, and of every `add_peer` call after it. -/
def peerTexts (calls : List Call) : List String :=
  (lastWrite Call.setsPeers calls).getD [] ++
    ((calls.reverse.takeWhile fun call => call.setsPeers.isNone).reverse).filterMap Call.addsPeer

theorem peerTexts_concat (calls : List Call) (call : Call) :
    peerTexts (calls ++ [call]) = (call.setsPeers).getD (peerTexts calls ++ call.addsPeer.toList) := by
  rw [peerTexts, lastWrite_append, List.reverse_append, List.reverse_singleton, List.singleton_append]
  cases hpeers : call.setsPeers with
  | some texts =>
      rw [List.takeWhile_cons_of_neg (by simp [hpeers])]
      simp [lastWrite, hpeers]
  | none =>
      have hlast : lastWrite Call.setsPeers [call] = none := by simp [lastWrite, hpeers]
      rw [List.takeWhile_cons_of_pos (by simp [hpeers]), List.reverse_cons, List.filterMap_append, hlast, Option.none_or,
        Option.getD_none, peerTexts, List.append_assoc]
      cases hadds : call.addsPeer <;> simp [hadds]

/-! ### One call -/

/-- What the call leaves in the fields that are validated, and in those that hold addresses. -/
structure Written (builder : ConfigBuilder) (call : Call) (next : ConfigBuilder) : Prop where
  nodeId : next.config.node.id = (call.setsNodeId.map some).getD builder.config.node.id
  dataDir : next.config.node.dataDir = call.setsDataDir.getD builder.config.node.dataDir
  electionTimeoutMin : next.config.raft.electionTimeoutMin =
    call.setsElectionTimeout.getD builder.config.raft.electionTimeoutMin
  heartbeatInterval : next.config.raft.heartbeatInterval =
    call.setsHeartbeatInterval.getD builder.config.raft.heartbeatInterval
  level : next.config.observability.logging.level = call.setsLogLevel.getD builder.config.observability.logging.level
  sampleRate : next.config.observability.tracing.sampleRate =
    call.setsSampleRate.getD builder.config.observability.tracing.sampleRate
  bindAddress : next.config.transport.bindAddress =
    (call.setsBindAddress.map fun addr => (parseText addr).getD defaultBindAddress).getD
      builder.config.transport.bindAddress
  peers : next.config.transport.peers =
    (call.setsPeers.map fun peers => peers.filterMap parseText).getD
      (builder.config.transport.peers ++ call.addsPeer.toList.filterMap parseText)
  election : builder.config.raft.electionTimeoutMin.val < builder.config.raft.electionTimeoutMax.val →
    next.config.raft.electionTimeoutMin.val < next.config.raft.electionTimeoutMax.val

theorem call_addPeer {ε : Type} (builder : ConfigBuilder) (addr : String) :
    (builder.call (.addPeer addr) : Outcome ε ConfigBuilder) =
      match parseText addr with
      | some socketAddr => .ok { builder with config.transport.peers := builder.config.transport.peers ++ [socketAddr] }
      | none => .ok builder := by
  rfl

theorem call_metricsAddress {ε : Type} (builder : ConfigBuilder) (addr : String) :
    (builder.call (.metricsAddress addr) : Outcome ε ConfigBuilder) =
      match parseText addr with
      | some socketAddr => .ok { builder with config.observability.metrics.bindAddress := some socketAddr }
      | none => .ok builder := by
  rfl

theorem call_electionTimeout {ε : Type} (builder : ConfigBuilder) (min : Management.Duration) :
    (builder.call (.electionTimeout min) : Outcome ε ConfigBuilder) =
      durationAdd min (durationFromMillis 2000) >>= fun max =>
        .ok { builder with config.raft.electionTimeoutMin := min, config.raft.electionTimeoutMax := max } := by
  rfl

theorem written_of_call {builder next : ConfigBuilder} {call : Call}
    (h : (builder.call call : Outcome ConfigError ConfigBuilder) = .ok next) : Written builder call next := by
  cases call with
  | addPeer addr =>
      rw [call_addPeer] at h
      cases hparse : parseText addr with
      | some socketAddr =>
          rw [hparse] at h
          obtain rfl := Outcome.ok.inj h
          refine ⟨rfl, rfl, rfl, rfl, rfl, rfl, rfl, ?_, id⟩
          simp [Call.setsPeers, Call.addsPeer, hparse]
      | none =>
          rw [hparse] at h
          obtain rfl := Outcome.ok.inj h
          refine ⟨rfl, rfl, rfl, rfl, rfl, rfl, rfl, ?_, id⟩
          simp [Call.setsPeers, Call.addsPeer, hparse]
  | metricsAddress addr =>
      rw [call_metricsAddress] at h
      split at h <;>
      · obtain rfl := Outcome.ok.inj h
        exact ⟨rfl, rfl, rfl, rfl, rfl, rfl, rfl, (List.append_nil _).symm, id⟩
  | electionTimeout min =>
      rw [call_electionTimeout, Outcome.bind_eq_ok] at h
      obtain ⟨max, hmax, hnext⟩ := h
      obtain rfl := Outcome.ok.inj hnext
      refine ⟨rfl, rfl, rfl, rfl, rfl, rfl, rfl, (List.append_nil _).symm, fun _ => ?_⟩
      rw [durationAdd] at hmax
      split at hmax
      · obtain rfl := Outcome.ok.inj hmax
        simp [durationFromMillis]
      · simp at hmax
  | peers peers =>
      obtain rfl := Outcome.ok.inj h
      exact ⟨rfl, rfl, rfl, rfl, rfl, rfl, rfl, rfl, id⟩
  | _ =>
      obtain rfl := Outcome.ok.inj h
      exact ⟨rfl, rfl, rfl, rfl, rfl, rfl, rfl, (List.append_nil _).symm, id⟩

theorem fits_of_setsElectionTimeout {call : Call} (h : call.setsElectionTimeout = none) : call.Fits := by
  intro min hmin
  rw [h] at hmin
  simp at hmin

theorem call_ok_iff (builder : ConfigBuilder) (call : Call) :
    (∃ next, (builder.call call : Outcome ConfigError ConfigBuilder) = .ok next) ↔ call.Fits := by
  cases call with
  | electionTimeout min =>
      simp only [call_electionTimeout, Call.Fits, Call.setsElectionTimeout, Option.some.injEq, forall_eq']
      rw [durationAdd]
      split
      · next hfits => exact iff_of_true ⟨_, rfl⟩ hfits
      · next hfits => exact iff_of_false (by simp) hfits
  | addPeer addr =>
      refine iff_of_true ?_ (fits_of_setsElectionTimeout rfl)
      rw [call_addPeer]
      split <;> exact ⟨_, rfl⟩
  | metricsAddress addr =>
      refine iff_of_true ?_ (fits_of_setsElectionTimeout rfl)
      rw [call_metricsAddress]
      split <;> exact ⟨_, rfl⟩
  | _ => exact iff_of_true ⟨_, rfl⟩ (fits_of_setsElectionTimeout rfl)

/-! ### A chain of calls -/

theorem calls_ok_iff (builder : ConfigBuilder) (calls : List Call) :
    (∃ last, (calls.foldlM call builder : Outcome ConfigError ConfigBuilder) = .ok last) ↔ ∀ call ∈ calls, call.Fits := by
  induction calls generalizing builder with
  | nil => simp
  | cons first rest ih =>
      simp only [List.foldlM_cons, Outcome.bind_eq_ok, List.forall_mem_cons, ← call_ok_iff builder first]
      apply Iff.intro
      · intro hcalls
        obtain ⟨last, next, hnext, hrest⟩ := hcalls
        exact ⟨⟨next, hnext⟩, (ih next).mp ⟨last, hrest⟩⟩
      · intro hfits
        obtain ⟨⟨next, hnext⟩, hrest⟩ := hfits
        obtain ⟨last, hlast⟩ := (ih next).mpr hrest
        exact ⟨last, next, hnext, hlast⟩

section Chain

variable {builder last : ConfigBuilder} {calls : List Call}
  (h : (calls.foldlM call builder : Outcome ConfigError ConfigBuilder) = .ok last)
include h

theorem field_of_calls {υ : Type} {write : Call → Option υ} (read : ConfigBuilder → υ)
    (hwrite : ∀ builder call next, Written builder call next → read next = (write call).getD (read builder)) :
    read last = (lastWrite write calls).getD (read builder) :=
  @read_foldlM _ _ _ write _ call read (fun builder call next hcall => hwrite builder call next (written_of_call hcall))
    builder last calls h

theorem nodeId_of_calls (hnone : builder.config.node.id = none) :
    last.config.node.id = lastWrite Call.setsNodeId calls := by
  have hread := field_of_calls h (fun builder => builder.config.node.id)
    fun _ _ _ hcall => hcall.nodeId
  rw [lastWrite_map, hnone] at hread
  rw [hread]
  cases lastWrite Call.setsNodeId calls <;> simp

theorem bindAddress_of_calls :
    last.config.transport.bindAddress =
      ((lastWrite Call.setsBindAddress calls).map fun addr => (parseText addr).getD defaultBindAddress).getD
        builder.config.transport.bindAddress := by
  have hread := field_of_calls h (fun builder => builder.config.transport.bindAddress)
    fun _ _ _ hcall => hcall.bindAddress
  rwa [lastWrite_map] at hread

theorem peers_of_calls (hnone : builder.config.transport.peers = []) :
    last.config.transport.peers = (peerTexts calls).filterMap parseText := by
  induction calls using List.reverseRecOn generalizing last with
  | nil =>
      obtain rfl : builder = last := by simpa using h
      simpa [peerTexts] using hnone
  | append_singleton calls call ih =>
      rw [List.foldlM_append, Outcome.bind_eq_ok] at h
      obtain ⟨next, hnext, hlast⟩ := h
      rw [List.foldlM_cons] at hlast
      simp only [List.foldlM_nil, bind_pure] at hlast
      rw [(written_of_call hlast).peers, ih hnext, peerTexts_concat]
      cases call.setsPeers <;> simp

theorem election_of_calls (hstart : builder.config.raft.electionTimeoutMin.val < builder.config.raft.electionTimeoutMax.val) :
    last.config.raft.electionTimeoutMin.val < last.config.raft.electionTimeoutMax.val := by
  induction calls generalizing builder with
  | nil =>
      obtain rfl : builder = last := by simpa using h
      exact hstart
  | cons first rest ih =>
      rw [List.foldlM_cons, Outcome.bind_eq_ok] at h
      obtain ⟨next, hnext, hrest⟩ := h
      exact ih hrest ((written_of_call hnext).election hstart)

end Chain

/-! ### What is built -/

/-- The calls do not panic, and the last of those that set a field leave in it what validation accepts. -/
structure Accepted (preset : Preset) (calls : List Call) : Prop where
  fits : ∀ call ∈ calls, call.Fits
  nodeId : ∃ id, Call.nodeId id ∈ calls
  dataDir : (lastWrite Call.setsDataDir calls).getD (ofPreset preset).config.node.dataDir ≠ []
  heartbeat : ((lastWrite Call.setsHeartbeatInterval calls).getD (ofPreset preset).config.raft.heartbeatInterval).val <
    ((lastWrite Call.setsElectionTimeout calls).getD (ofPreset preset).config.raft.electionTimeoutMin).val
  peers : ((peerTexts calls).filterMap parseText).Nodup
  level : (lastWrite Call.setsLogLevel calls).getD (ofPreset preset).config.observability.logging.level ∈ Config.logLevels
  sampleRate : Config.isRate
    ((lastWrite Call.setsSampleRate calls).getD (ofPreset preset).config.observability.tracing.sampleRate) = true

theorem lastWrite_setsNodeId_ne_none {calls : List Call} :
    lastWrite Call.setsNodeId calls ≠ none ↔ ∃ id, Call.nodeId id ∈ calls := by
  rw [Ne, lastWrite_eq_none_iff]
  apply Iff.intro
  · intro hsome
    by_contra hnone
    refine hsome fun call hcall => ?_
    cases call with
    | nodeId id => exact absurd ⟨id, hcall⟩ hnone
    | _ => simp [Call.setsNodeId]
  · intro hcall hnone
    obtain ⟨id, hid⟩ := hcall
    simpa [Call.setsNodeId] using hnone _ hid

theorem valid_iff_accepted {preset : Preset} {calls : List Call} {last : ConfigBuilder}
    (h : (calls.foldlM call (ofPreset preset) : Outcome ConfigError ConfigBuilder) = .ok last) :
    last.config.Valid ↔ Accepted preset calls := by
  have hfits := (calls_ok_iff (ofPreset preset) calls).mp ⟨last, h⟩
  have hnodeId := nodeId_of_calls h (by cases preset <;> rfl)
  have hpeers := peers_of_calls h (by cases preset <;> rfl)
  have helection := election_of_calls h (by cases preset <;> decide)
  have hdataDir := field_of_calls h (fun builder => builder.config.node.dataDir)
    fun _ _ _ hcall => hcall.dataDir
  have hmin := field_of_calls h (fun builder => builder.config.raft.electionTimeoutMin)
    fun _ _ _ hcall => hcall.electionTimeoutMin
  have hheartbeat := field_of_calls h (fun builder => builder.config.raft.heartbeatInterval)
    fun _ _ _ hcall => hcall.heartbeatInterval
  have hlevel := field_of_calls h (fun builder => builder.config.observability.logging.level)
    fun _ _ _ hcall => hcall.level
  have hrate := field_of_calls h (fun builder => builder.config.observability.tracing.sampleRate)
    fun _ _ _ hcall => hcall.sampleRate
  apply Iff.intro
  · intro hvalid
    refine ⟨hfits, lastWrite_setsNodeId_ne_none.mp (hnodeId ▸ hvalid.nodeId), ?_, ?_, ?_, ?_, ?_⟩
    · exact hdataDir ▸ hvalid.dataDir
    · rw [← hheartbeat, ← hmin]
      exact hvalid.heartbeat
    · exact hpeers ▸ hvalid.peers
    · rw [← hlevel]
      exact hvalid.level
    · rw [← hrate]
      exact hvalid.sampleRate
  · intro haccepted
    refine ⟨hnodeId ▸ lastWrite_setsNodeId_ne_none.mpr haccepted.nodeId, ?_, ?_, helection, ?_, ?_, ?_⟩
    · rw [hdataDir]
      exact haccepted.dataDir
    · rw [hheartbeat, hmin]
      exact haccepted.heartbeat
    · rw [hpeers]
      exact haccepted.peers
    · rw [hlevel]
      exact haccepted.level
    · rw [hrate]
      exact haccepted.sampleRate

theorem run_eq_ok_iff {preset : Preset} {calls : List Call} {config : Config} :
    run preset calls = .ok config ↔
      ∃ last, (calls.foldlM call (ofPreset preset) : Outcome ConfigError ConfigBuilder) = .ok last ∧ last.config.Valid ∧
        last.config = config := by
  simp only [run, build, Outcome.bind_eq_ok, Config.validate_eq_ok_iff, Outcome.pure_eq_ok, Outcome.ok.injEq]
  apply Iff.intro
  · intro hrun
    obtain ⟨last, hlast, _, hvalid, hconfig⟩ := hrun
    exact ⟨last, hlast, hvalid, hconfig⟩
  · intro hrun
    obtain ⟨last, hlast, hvalid, hconfig⟩ := hrun
    exact ⟨last, hlast, (), hvalid, hconfig⟩

theorem run_ok_iff_accepted (preset : Preset) (calls : List Call) :
    (∃ config, run preset calls = .ok config) ↔ Accepted preset calls := by
  apply Iff.intro
  · intro hrun
    obtain ⟨config, hconfig⟩ := hrun
    obtain ⟨last, hlast, hvalid, _⟩ := run_eq_ok_iff.mp hconfig
    exact (valid_iff_accepted hlast).mp hvalid
  · intro haccepted
    obtain ⟨last, hlast⟩ := (calls_ok_iff (ofPreset preset) calls).mpr haccepted.fits
    exact ⟨last.config, run_eq_ok_iff.mpr ⟨last, hlast, (valid_iff_accepted hlast).mpr haccepted, rfl⟩⟩

/-! ### The addresses -/

/-- Every address the calls were given. -/
def addresses (calls : List Call) : List String := calls.flatMap Call.addresses

/-- Every address was one, and the configuration has the last that was to be bound and the peers that were named. -/
structure Honest (calls : List Call) (config : Config) : Prop where
  valid : ∀ addr ∈ addresses calls, (parseText addr).isSome
  bindAddress : ∀ addr, lastWrite Call.setsBindAddress calls = some addr → parseText addr = some config.transport.bindAddress
  peers : (peerTexts calls).map parseText = config.transport.peers.map some

theorem mem_addresses_of_bindAddress {calls : List Call} {addr : String}
    (h : lastWrite Call.setsBindAddress calls = some addr) : addr ∈ addresses calls := by
  obtain ⟨before, call, after, heq, hcall, _⟩ := lastWrite_eq_some_iff.mp h
  refine List.mem_flatMap.mpr ⟨call, by simp [heq], ?_⟩
  cases call with
  | bindAddress text => simpa [Call.setsBindAddress, Call.addresses, eq_comm] using hcall
  | _ => simp [Call.setsBindAddress] at hcall

theorem peerTexts_subset_addresses (calls : List Call) : peerTexts calls ⊆ addresses calls := by
  induction calls using List.reverseRecOn with
  | nil => simp [peerTexts]
  | append_singleton calls call ih =>
      intro addr haddr
      rw [addresses, List.flatMap_append, List.mem_append, ← addresses]
      rw [peerTexts_concat] at haddr
      cases call with
      | peers texts =>
          refine .inr ?_
          simpa [Call.setsPeers, Call.addresses] using haddr
      | addPeer text =>
          simp only [Call.setsPeers, Call.addsPeer, Option.getD_none, Option.toList_some, List.mem_append,
            List.mem_singleton] at haddr
          exact haddr.imp (fun hmem => ih hmem) fun heq => by simp [Call.addresses, heq]
      | _ =>
          refine .inl (ih ?_)
          simpa [Call.setsPeers, Call.addsPeer] using haddr

theorem honest_of_valid {preset : Preset} {calls : List Call} {config : Config}
    (hvalid : ∀ addr ∈ addresses calls, (parseText addr).isSome) (h : run preset calls = .ok config) :
    Honest calls config := by
  obtain ⟨last, hlast, _, rfl⟩ := run_eq_ok_iff.mp h
  refine ⟨hvalid, ?_, ?_⟩
  · intro addr haddr
    obtain ⟨bindAddress, hparse⟩ := Option.isSome_iff_exists.mp (hvalid addr (mem_addresses_of_bindAddress haddr))
    rw [bindAddress_of_calls hlast, haddr, Option.map_some, Option.getD_some, hparse, Option.getD_some]
  · have hall : ∀ parsed ∈ (peerTexts calls).map parseText, parsed.isSome :=
      List.forall_mem_map.mpr fun addr haddr => hvalid addr (peerTexts_subset_addresses calls haddr)
    rw [peers_of_calls hlast (by cases preset <;> rfl), List.map_filterMap_some_eq_filter_map_isSome,
      List.filter_eq_self.mpr hall]

/-- What is built holds the addresses it was given exactly if they all are addresses, or nothing is built because of what
else the calls have set. -/
theorem honest_iff (preset : Preset) (calls : List Call) :
    (∀ config, run preset calls = .ok config → Honest calls config) ↔
      (∀ addr ∈ addresses calls, (parseText addr).isSome) ∨ ¬ Accepted preset calls := by
  apply Iff.intro
  · intro hhonest
    by_contra hneither
    obtain ⟨hinvalid, haccepted⟩ := not_or.mp hneither
    obtain ⟨config, hconfig⟩ := (run_ok_iff_accepted preset calls).mpr (not_not.mp haccepted)
    exact hinvalid (hhonest config hconfig).valid
  · intro hcalls config hconfig
    obtain hvalid | hrejected := hcalls
    · exact honest_of_valid hvalid hconfig
    · exact absurd ((run_ok_iff_accepted preset calls).mp ⟨config, hconfig⟩) hrejected

/-- An address that is none is bound as the default one. -/
theorem not_honest_localhost :
    ¬ ∀ (preset : Preset) (calls : List Call) (config : Config), run preset calls = .ok config → Honest calls config := by
  intro hhonest
  have haccepted : Accepted .new [.nodeId 1, .bindAddress "localhost"] := by
    refine ⟨?_, ⟨1, by simp⟩, ?_, ?_, ?_, ?_, ?_⟩
    · simp [Call.Fits, Call.setsElectionTimeout]
    · simp only [lastWrite]
      decide
    · simp only [lastWrite]
      decide
    · decide
    · decide
    · decide
  obtain ⟨config, hconfig⟩ := (run_ok_iff_accepted .new [.nodeId 1, .bindAddress "localhost"]).mpr haccepted
  have hvalid := (hhonest .new _ config hconfig).valid "localhost" (by simp [addresses, Call.addresses])
  have hparse : parseText "localhost" = none := by decide
  simp [hparse] at hvalid

end ConfigBuilder

end IrohRaft
