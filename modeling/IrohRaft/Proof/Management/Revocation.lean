import IrohRaft.Proof.Management.Tokens

/-!
# Revoked tokens

Revoking takes a token out of the table of active tokens, and `check_permission` never looks there: a
token that was issued is rejected exactly when it would have been rejected without the revocation.
`authenticate_connection` does look, and finds no revoked token.
-/

namespace IrohRaft.Management

open Rust

variable {manager : AuthManager} {token : AuthToken} {operation : ManagementOperation} {now now' : SystemTime}

/-- The manager after calls among which the node's token is revoked. -/
def AuthManager.revoking (start : AuthManager) (before : List AuthOp) (nodeId : UInt64) (after : List AuthOp) : AuthManager :=
  start.after (before ++ .revokeToken nodeId :: after)

/-- A signed token is rejected for its expiry, for its issuer, or for what its role may do. -/
theorem checkPermission_ne_ok (hsigned : token.Signed) :
    manager.checkPermission token operation now now' ≠ .ok () ↔
      token.expiresAt.val < now.val ∨ token.issuedBy ∉ manager.trustedIssuers ∨ ¬ manager.Permits token.role operation now' := by
  rw [ne_eq, checkPermission_eq_ok, validateToken_eq_ok]
  have hlater : ¬ now.val ≤ token.expiresAt.val ↔ token.expiresAt.val < now.val := Int.not_le
  tauto

/-- **A revoked token** is rejected exactly when it is expired, when its issuer is no longer trusted, or
when its role does not permit the operation. -/
theorem revoked_rejected_iff (start : AuthManager) (before after : List AuthOp) (token : AuthToken)
    (hissued : token ∈ issuedTokens start before) (operation : ManagementOperation) (now now' : SystemTime) :
    (start.revoking before token.nodeId after).checkPermission token operation now now' ≠ .ok () ↔
      token.expiresAt.val < now.val ∨
      token.issuedBy ∉ (start.revoking before token.nodeId after).trustedIssuers ∨
      ¬ (start.revoking before token.nodeId after).Permits token.role operation now' :=
  checkPermission_ne_ok (issuedTokens_signed hissued)

/-! ### A revoked token that is accepted -/

def trustingManager : AuthManager := AuthManager.new.addTrustedIssuer 1

/-- The call that `adminToken` answers. -/
def issueAdmin : AuthOp :=
  .issueToken 7 samplePeer .admin 1 (some ⟨1000 * nanosPerSec, by decide⟩) unixEpoch

theorem revoked_rejected_iff_admin :
    (trustingManager.revoking [issueAdmin] 7 []).checkPermission adminToken .stepDown unixEpoch unixEpoch ≠ .ok () ↔
      (1000 * nanosPerSec : Int) < 0 ∨ 1 ∉ (trustingManager.revoking [issueAdmin] 7 []).trustedIssuers ∨
      ¬ (trustingManager.revoking [issueAdmin] 7 []).Permits .admin .stepDown unixEpoch :=
  revoked_rejected_iff trustingManager [issueAdmin] [] adminToken (by decide) .stepDown unixEpoch unixEpoch

/-- A token is issued and revoked, and then accepted. -/
theorem not_revoked_rejected :
    adminToken ∈ issuedTokens trustingManager [issueAdmin] ∧
    (trustingManager.revoking [issueAdmin] 7 []).checkPermission adminToken .stepDown unixEpoch unixEpoch = .ok () := by
  refine ⟨by decide, checkPermission_eq_ok.mpr ⟨validateToken_eq_ok.mpr ⟨by decide, ?_, by decide, by decide⟩, ?_⟩⟩
  · rw [AuthManager.revoking, AuthManager.after]
    decide
  · exact ⟨.ofOperations ["*"], rfl, Or.inl (by decide), by decide, by decide⟩

/-! ### Connections -/

/-- The call issues a token for this node, if it issues one. -/
def AuthOp.IssuesFor (nodeId : UInt64) : AuthOp → Prop
  | issueToken node _ _ _ _ _ => node = nodeId
  | _ => False

/-- A node without an active token gets none from calls that issue none for it. -/
theorem getActiveToken_exec {op : AuthOp} {nodeId : UInt64} (hop : ¬ op.IssuesFor nodeId)
    (hnone : manager.getActiveToken nodeId = none) : (op.exec manager).getActiveToken nodeId = none := by
  rw [AuthManager.getActiveToken] at hnone ⊢
  cases op with
  | issueToken node peerId role issuer duration reading =>
      rcases hbuild : manager.buildToken node peerId role issuer duration reading with token | error | _
      · have hne : ¬ compare node nodeId = .eq := fun heq => hop (Std.compare_eq_iff_eq.mp heq)
        simp only [AuthOp.exec, AuthManager.issueToken, hbuild, Std.ExtTreeMap.getElem?_insert, if_neg hne, hnone]
      · simpa only [AuthOp.exec, AuthManager.issueToken, hbuild] using hnone
      · simpa only [AuthOp.exec, AuthManager.issueToken, hbuild] using hnone
  | addTrustedIssuer issuer =>
      rw [AuthOp.exec, AuthManager.addTrustedIssuer]
      split <;> exact hnone
  | revokeToken node =>
      simp only [AuthOp.exec, AuthManager.revokeToken, Std.ExtTreeMap.getElem?_erase, hnone, ite_self]
  | cleanupExpiredTokens reading =>
      simp only [AuthOp.exec, AuthManager.cleanupExpiredTokens, Std.ExtTreeMap.getElem?_filter', hnone, Option.filter_none]
  | _ => exact hnone

theorem getActiveToken_revoking (start : AuthManager) (before : List AuthOp) {nodeId : UInt64} {after : List AuthOp}
    (hafter : ∀ op ∈ after, ¬ op.IssuesFor nodeId) : (start.revoking before nodeId after).getActiveToken nodeId = none := by
  rw [AuthManager.revoking, AuthManager.after, Run.final_append, Run.final_cons]
  apply Run.final_invariant (fun manager : AuthManager => manager.getActiveToken nodeId = none)
  · intro op hop manager hnone
    exact getActiveToken_exec (hafter op hop) hnone
  · rw [AuthManager.getActiveToken]
    exact Std.ExtTreeMap.getElem?_erase_self

/-- The connections of a node whose token was revoked get no token until a new one is issued. -/
theorem authenticateConnection_revoking (display : NodeId → String) (start : AuthManager) (before : List AuthOp)
    {nodeId : UInt64} {after : List AuthOp} (hafter : ∀ op ∈ after, ¬ op.IssuesFor nodeId) (nodeWhitelist : List NodeId)
    (peerId : NodeId) (now : SystemTime) :
    ∀ token, IrohAuth.authenticateConnection display ⟨start.revoking before nodeId after, nodeWhitelist⟩ peerId nodeId now ≠
      .ok (some token) := by
  intro token htoken
  obtain ⟨_, _, hfound⟩ := Outcome.bind_eq_ok.mp htoken
  rw [getActiveToken_revoking start before hafter] at hfound
  exact nomatch hfound

end IrohRaft.Management
