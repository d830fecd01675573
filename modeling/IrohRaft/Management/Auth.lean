import IrohRaft.Library.Stream
import IrohRaft.Management.Types
import IrohRaft.Error

/-!
# Tokens and permissions

`AuthManager` of `management/auth.rs`, and `IrohAuth`, which looks a connecting peer's token up in it.
Every reading of the clock is an argument. A signature is the text of the fields it covers.
-/

namespace IrohRaft.Management

open Rust

/-- The identity of an iroh peer, a public key. -/
abbrev NodeId := { bytes : Bytes // bytes.length = 32 }

structure AuthToken where
  nodeId : UInt64
  peerId : NodeId
  role : ManagementRole
  expiresAt : SystemTime
  issuedBy : UInt64
  /-- Token signature (simplified for demo). -/
  signature : String
  deriving DecidableEq

structure TimeRestriction where
  validFrom : SystemTime
  validUntil : SystemTime
  deriving DecidableEq

structure ResourceRestriction where
  /-- Allowed node IDs (empty means all). -/
  allowedNodes : List UInt64
  deniedNodes : List UInt64
  deriving DecidableEq

structure Permission where
  allowedOperations : List String
  timeRestrictions : Option TimeRestriction
  resourceRestrictions : Option ResourceRestriction
  deriving DecidableEq

structure AuthManager where
  rolePermissions : ManagementRole → Option Permission
  activeTokens : HashMap UInt64 AuthToken
  trustedIssuers : List UInt64
  defaultTokenLifetime : Duration

/-- `role as u32`. -/
def ManagementRole.toU32 : ManagementRole → UInt32
  | .admin => 0
  | .observer => 1
  | .memberManager => 2
  | .monitor => 3

def operationToString : ManagementOperation → String
  | .getClusterStatus => "get_cluster_status"
  | .addMember _ _ _ => "add_member"
  | .removeMember _ => "remove_member"
  | .updateMemberRole _ _ => "update_member_role"
  | .transferLeadership _ => "transfer_leadership"
  | .stepDown => "step_down"
  | .getConfiguration => "get_configuration"
  | .updateConfiguration _ => "update_configuration"
  | .getMetrics _ => "get_metrics"
  | .getHealthStatus => "get_health_status"
  | .getLogInfo => "get_log_info"
  | .compactLog _ => "compact_log"
  | .getLogEntries _ _ => "get_log_entries"
  | .triggerSnapshot => "trigger_snapshot"
  | .getSnapshotInfo => "get_snapshot_info"
  | .createBackup _ => "create_backup"
  | .restoreBackup _ => "restore_backup"
  | .listBackups => "list_backups"

def operationTargetNode : ManagementOperation → Option UInt64
  | .addMember nodeId _ _ => some nodeId
  | .removeMember nodeId => some nodeId
  | .updateMemberRole nodeId _ => some nodeId
  | .transferLeadership targetNode => targetNode
  | _ => none

/-! ### The clock -/

def addDuration (time : SystemTime) (duration : Duration) : Outcome RaftError SystemTime :=
  if h : FitsI64 ((time.val + duration.val) / nanosPerSec) then .ok ⟨time.val + duration.val, h⟩ else .panic

/-- `time.duration_since(SystemTime::UNIX_EPOCH).unwrap().as_secs()`. -/
def secsSinceEpoch (time : SystemTime) : Outcome RaftError Nat :=
  if 0 ≤ time.val then .ok (time.val.toNat / nanosPerSec) else .panic

/-- Simplified: in production, use proper cryptographic signatures. -/
def formatSignature (nodeId : UInt64) (role : ManagementRole) (secs : Nat) (issuer : UInt64) : String :=
  s!"sig_{nodeId}_{role.toU32}_{secs}_{issuer}"

/-! ### The manager -/

def denied (operation : String) (id : UInt64) : RaftError := .authorizationDenied operation (toString id)

def Permission.ofOperations (allowedOperations : List String) : Permission :=
  { allowedOperations, timeRestrictions := none, resourceRestrictions := none }

namespace AuthManager

/-- The permissions `setup_default_permissions` inserts, one for each role. -/
def defaultPermissions : ManagementRole → Permission
  -- the wildcard stands for all operations
  | .admin => .ofOperations ["*"]
  | .observer => .ofOperations ["get_cluster_status", "get_configuration", "get_metrics", "get_health_status",
      "get_log_info", "get_log_entries", "get_snapshot_info", "list_backups"]
  | .memberManager => .ofOperations ["get_cluster_status", "get_configuration", "get_health_status", "add_member",
      "remove_member", "update_member_role"]
  | .monitor => .ofOperations ["get_cluster_status", "get_metrics", "get_health_status"]

def new : AuthManager :=
  { rolePermissions := fun role => some (defaultPermissions role)
    activeTokens := ∅
    trustedIssuers := []
    defaultTokenLifetime := ⟨8 * 60 * 60 * nanosPerSec, by decide⟩ }

def addTrustedIssuer (manager : AuthManager) (issuer : UInt64) : AuthManager :=
  if issuer ∈ manager.trustedIssuers then manager
  else { manager with trustedIssuers := manager.trustedIssuers ++ [issuer] }

def removeTrustedIssuer (manager : AuthManager) (issuer : UInt64) : AuthManager :=
  { manager with trustedIssuers := manager.trustedIssuers.filter fun id => id != issuer }

/-- The token `issue_token` builds when the clock shows `now`. -/
def buildToken (manager : AuthManager) (nodeId : UInt64) (peerId : NodeId) (role : ManagementRole) (issuer : UInt64)
    (duration : Option Duration) (now : SystemTime) : Outcome RaftError AuthToken := do
  Outcome.rejectIf (issuer ∉ manager.trustedIssuers) (denied "issue_token" issuer)
  let expiresAt ← addDuration now (duration.getD manager.defaultTokenLifetime)
  let secs ← secsSinceEpoch expiresAt
  return { nodeId, peerId, role, expiresAt, issuedBy := issuer, signature := formatSignature nodeId role secs issuer }

/-- Issue a new authentication token, and store it as the active one of its node. -/
def issueToken (nodeId : UInt64) (peerId : NodeId) (role : ManagementRole) (issuer : UInt64)
    (duration : Option Duration) (now : SystemTime) : Action AuthManager RaftError AuthToken := fun manager =>
  match manager.buildToken nodeId peerId role issuer duration now with
  | .ok token => (.ok token, { manager with activeTokens := manager.activeTokens.insert nodeId token })
  | other => (other, manager)

def validateToken (manager : AuthManager) (token : AuthToken) (now : SystemTime) : Outcome RaftError Unit := do
  Outcome.rejectIf (now.val > token.expiresAt.val) (denied "validate_token" token.nodeId)
  Outcome.rejectIf (token.issuedBy ∉ manager.trustedIssuers) (denied "validate_token" token.issuedBy)
  let secs ← secsSinceEpoch token.expiresAt
  Outcome.rejectIf (token.signature ≠ formatSignature token.nodeId token.role secs token.issuedBy)
    (denied "validate_token" token.nodeId)

def checkTime (restriction : Option TimeRestriction) (now : SystemTime) (error : RaftError) : Outcome RaftError Unit :=
  match restriction with
  | some time => Outcome.rejectIf (now.val < time.validFrom.val ∨ now.val > time.validUntil.val) error
  | none => .ok ()

/-- Check resource restrictions, of an operation that has a target. -/
def checkResource (restriction : Option ResourceRestriction) (operation : ManagementOperation) (error : RaftError) :
    Outcome RaftError Unit :=
  match restriction, operationTargetNode operation with
  | some resource, some target => do
      Outcome.rejectIf (resource.allowedNodes ≠ [] ∧ target ∉ resource.allowedNodes) error
      Outcome.rejectIf (target ∈ resource.deniedNodes) error
  | _, _ => .ok ()

/-- The clock is read once to validate the token and once more when the permission is restricted in time. -/
def checkPermission (manager : AuthManager) (token : AuthToken) (operation : ManagementOperation) (now now' : SystemTime) :
    Outcome RaftError Unit := do
  manager.validateToken token now
  let permission ← Outcome.okOr (manager.rolePermissions token.role) (denied "check_permission" token.nodeId)
  let operationName := operationToString operation
  let isAllowed := permission.allowedOperations.contains "*" || permission.allowedOperations.contains operationName
  Outcome.rejectIf (isAllowed = false) (denied operationName token.nodeId)
  checkTime permission.timeRestrictions now' (denied operationName token.nodeId)
  checkResource permission.resourceRestrictions operation (denied operationName token.nodeId)

def revokeToken (manager : AuthManager) (nodeId : UInt64) : AuthManager :=
  { manager with activeTokens := manager.activeTokens.erase nodeId }

def cleanupExpiredTokens (manager : AuthManager) (now : SystemTime) : AuthManager :=
  { manager with activeTokens := manager.activeTokens.filter fun _ token => token.expiresAt.val > now.val }

def getActiveToken (manager : AuthManager) (nodeId : UInt64) : Option AuthToken := manager.activeTokens[nodeId]?

def updateRolePermission (manager : AuthManager) (role : ManagementRole) (permission : Permission) : AuthManager :=
  { manager with rolePermissions := Function.update manager.rolePermissions role (some permission) }

end AuthManager

/-! ### Connections -/

structure IrohAuth where
  authManager : AuthManager
  nodeWhitelist : List NodeId

namespace IrohAuth

def isNodeAllowed (auth : IrohAuth) (nodeId : NodeId) : Bool :=
  auth.nodeWhitelist.isEmpty || auth.nodeWhitelist.contains nodeId

/-- Authenticate a connection using Iroh's peer information. How a node id is printed is iroh's. -/
def authenticateConnection (display : NodeId → String) (auth : IrohAuth) (peerId : NodeId) (nodeId : UInt64)
    (now : SystemTime) : Outcome RaftError (Option AuthToken) := do
  Outcome.rejectIf (auth.isNodeAllowed peerId = false) (.authorizationDenied "authenticate_connection" (display peerId))
  match auth.authManager.getActiveToken nodeId with
  | some token =>
      if token.peerId = peerId then do
        auth.authManager.validateToken token now
        return some token
      else return none
  | none => return none

end IrohAuth

/-! ### Operations -/

/-- One call on a manager, with the readings of the clock it makes. -/
inductive AuthOp where
  | addTrustedIssuer (issuer : UInt64)
  | removeTrustedIssuer (issuer : UInt64)
  | issueToken (nodeId : UInt64) (peerId : NodeId) (role : ManagementRole) (issuer : UInt64) (duration : Option Duration)
      (now : SystemTime)
  | validateToken (token : AuthToken) (now : SystemTime)
  | checkPermission (token : AuthToken) (operation : ManagementOperation) (now now' : SystemTime)
  | revokeToken (nodeId : UInt64)
  | cleanupExpiredTokens (now : SystemTime)
  | updateRolePermission (role : ManagementRole) (permission : Permission)

namespace AuthOp

def exec (manager : AuthManager) : AuthOp → AuthManager
  | addTrustedIssuer issuer => manager.addTrustedIssuer issuer
  | removeTrustedIssuer issuer => manager.removeTrustedIssuer issuer
  | issueToken nodeId peerId role issuer duration now =>
      (AuthManager.issueToken nodeId peerId role issuer duration now manager).2
  | validateToken _ _ => manager
  | checkPermission _ _ _ _ => manager
  | revokeToken nodeId => manager.revokeToken nodeId
  | cleanupExpiredTokens now => manager.cleanupExpiredTokens now
  | updateRolePermission role permission => manager.updateRolePermission role permission

def returned (manager : AuthManager) : AuthOp → Option AuthToken
  | issueToken nodeId peerId role issuer duration now =>
      match (AuthManager.issueToken nodeId peerId role issuer duration now manager).1 with
      | .ok token => some token
      | _ => none
  | _ => none

/-- The token the call accepts, and the reading of the clock it is validated at. -/
def accepted (manager : AuthManager) : AuthOp → Option (AuthToken × SystemTime)
  | validateToken token now => if manager.validateToken token now = .ok () then some (token, now) else none
  | checkPermission token operation now now' =>
      if manager.checkPermission token operation now now' = .ok () then some (token, now) else none
  | _ => none

end AuthOp

end IrohRaft.Management
