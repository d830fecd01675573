import IrohRaft.Library.Run
import IrohRaft.Management.Auth

/-!
# Which tokens are accepted

A token is accepted on its own contents and on the list of trusted issuers: its signature must be the
text of its fields, which anybody can write. So the tokens accepted are those `issue_token` would
return, whether it did or not, and the table of active tokens plays no part.
-/

namespace IrohRaft.Management

open Rust

variable {manager : AuthManager} {token : AuthToken} {now now' : SystemTime}

/-! ### Signatures -/

/-- A signature is told from another by each of the four fields it covers. -/
theorem formatSignature_inj {nodeId nodeId' issuer issuer' : UInt64} {role role' : ManagementRole} {secs secs' : Nat} :
    formatSignature nodeId role secs issuer = formatSignature nodeId' role' secs' issuer' ↔
      nodeId = nodeId' ∧ role = role' ∧ secs = secs' ∧ issuer = issuer' := by
  refine ⟨fun h => ?_, fun h => by rw [h.1, h.2.1, h.2.2.1, h.2.2.2]⟩
  have hchars := congrArg String.toList h
  have hrole : role.toU32.toNat = role'.toU32.toNat → role = role' := by
    cases role <;> cases role' <;> decide
  have hseparator : ('_' : Char).isDigit = false := by decide
  simp only [formatSignature, toString, String.toList_append, Nat.toList_repr, List.append_assoc] at hchars
  have hfields := List.append_cancel_left hchars
  obtain ⟨hnode, hfields⟩ := (toDigits_append_inj hseparator).mp hfields
  obtain ⟨hnumber, hfields⟩ := (toDigits_append_inj hseparator).mp hfields
  obtain ⟨hsecs, hfields⟩ := (toDigits_append_inj hseparator).mp hfields
  exact ⟨UInt64.toNat.inj hnode, hrole hnumber, hsecs, UInt64.toNat.inj (toDigits_inj.mp (by simpa using hfields))⟩

def AuthToken.expirySecs (token : AuthToken) : Nat := token.expiresAt.val.toNat / nanosPerSec

/-- The signature is the text of the fields it covers. -/
def AuthToken.Signed (token : AuthToken) : Prop :=
  0 ≤ token.expiresAt.val ∧ token.signature = formatSignature token.nodeId token.role token.expirySecs token.issuedBy

theorem AuthToken.Signed.agree {token' : AuthToken} (h : token.Signed) (h' : token'.Signed)
    (heq : token.signature = token'.signature) :
    token.nodeId = token'.nodeId ∧ token.role = token'.role ∧ token.issuedBy = token'.issuedBy ∧
      token.expirySecs = token'.expirySecs := by
  rw [h.2, h'.2] at heq
  obtain ⟨hnode, hrole, hsecs, hissuer⟩ := formatSignature_inj.mp heq
  exact ⟨hnode, hrole, hissuer, hsecs⟩

theorem secsSinceEpoch_eq_ok {time : SystemTime} {secs : Nat} :
    secsSinceEpoch time = .ok secs ↔ 0 ≤ time.val ∧ time.val.toNat / nanosPerSec = secs := by
  by_cases h : 0 ≤ time.val <;> simp [secsSinceEpoch, h]

/-! ### Issuing and validating -/

theorem buildToken_eq_ok {nodeId issuer : UInt64} {peerId : NodeId} {role : ManagementRole} {duration : Option Duration} :
    manager.buildToken nodeId peerId role issuer duration now = .ok token ↔
      issuer ∈ manager.trustedIssuers ∧
      addDuration now (duration.getD manager.defaultTokenLifetime) = .ok token.expiresAt ∧
      (token.nodeId = nodeId ∧ token.peerId = peerId ∧ token.role = role ∧ token.issuedBy = issuer) ∧ token.Signed := by
  simp only [AuthManager.buildToken, Outcome.bind_eq_ok, Outcome.rejectIf_eq_ok, secsSinceEpoch_eq_ok, not_not,
    Outcome.pure_eq_ok, Outcome.ok.injEq]
  apply Iff.intro
  · intro h
    obtain ⟨_, htrusted, expiresAt, hexpires, secs, ⟨hepoch, hsecs⟩, htoken⟩ := h
    subst htoken hsecs
    exact ⟨htrusted, hexpires, ⟨rfl, rfl, rfl, rfl⟩, hepoch, rfl⟩
  · intro h
    obtain ⟨htrusted, hexpires, ⟨hnode, hpeer, hrole, hissuer⟩, hepoch, hsignature⟩ := h
    subst hnode hpeer hrole hissuer
    refine ⟨(), htrusted, token.expiresAt, hexpires, token.expirySecs, ⟨hepoch, rfl⟩, ?_⟩
    rw [← hsignature]

theorem validateToken_eq_ok :
    manager.validateToken token now = .ok () ↔
      now.val ≤ token.expiresAt.val ∧ token.issuedBy ∈ manager.trustedIssuers ∧ token.Signed := by
  simp only [AuthManager.validateToken, Outcome.bind_eq_ok, Outcome.rejectIf_eq_ok, secsSinceEpoch_eq_ok, not_not,
    Int.not_lt, gt_iff_lt, ne_eq]
  apply Iff.intro
  · intro h
    obtain ⟨_, hexpires, _, htrusted, secs, ⟨hepoch, hsecs⟩, hsignature⟩ := h
    subst hsecs
    exact ⟨hexpires, htrusted, hepoch, hsignature⟩
  · intro h
    obtain ⟨hexpires, htrusted, hepoch, hsignature⟩ := h
    exact ⟨(), hexpires, (), htrusted, token.expirySecs, ⟨hepoch, rfl⟩, hsignature⟩

/-- There is a request for a token that this manager answers with exactly this one. -/
def AuthManager.WouldIssue (manager : AuthManager) (token : AuthToken) : Prop :=
  ∃ duration now, manager.buildToken token.nodeId token.peerId token.role token.issuedBy duration now = .ok token

theorem addDuration_zero (time : SystemTime) (h : 0 / nanosPerSec < 2 ^ 64) : addDuration time ⟨0, h⟩ = .ok time := by
  have hnanos : time.val + ((0 : Nat) : Int) = time.val := Int.add_zero _
  have hfits : FitsI64 ((time.val + ((0 : Nat) : Int)) / nanosPerSec) := by
    rw [hnanos]
    exact time.property
  exact (dif_pos hfits).trans (congrArg Outcome.ok (Subtype.ext hnanos))

theorem wouldIssue_iff : manager.WouldIssue token ↔ token.issuedBy ∈ manager.trustedIssuers ∧ token.Signed := by
  refine ⟨fun ⟨_, _, h⟩ => ?_, fun ⟨htrusted, hsigned⟩ => ?_⟩
  · obtain ⟨htrusted, _, _, hsigned⟩ := buildToken_eq_ok.mp h
    exact ⟨htrusted, hsigned⟩
  · refine ⟨some ⟨0, by decide⟩, token.expiresAt, ?_⟩
    exact buildToken_eq_ok.mpr ⟨htrusted, addDuration_zero _ _, ⟨rfl, rfl, rfl, rfl⟩, hsigned⟩

/-- Validation accepts the tokens that are not expired and that the manager would issue. -/
theorem validateToken_iff_wouldIssue :
    manager.validateToken token now = .ok () ↔ now.val ≤ token.expiresAt.val ∧ manager.WouldIssue token := by
  rw [validateToken_eq_ok, wouldIssue_iff]

/-! ### Permissions -/

/-- The operation is one of the permission's, at a time and on a node it is not restricted from. -/
def Permission.Allows (permission : Permission) (operation : ManagementOperation) (now : SystemTime) : Prop :=
  ("*" ∈ permission.allowedOperations ∨ operationToString operation ∈ permission.allowedOperations) ∧
  (∀ time ∈ permission.timeRestrictions, time.validFrom.val ≤ now.val ∧ now.val ≤ time.validUntil.val) ∧
  ∀ resource ∈ permission.resourceRestrictions, ∀ target ∈ operationTargetNode operation,
    (resource.allowedNodes = [] ∨ target ∈ resource.allowedNodes) ∧ target ∉ resource.deniedNodes

/-- The role has a permission, and it allows the operation. -/
def AuthManager.Permits (manager : AuthManager) (role : ManagementRole) (operation : ManagementOperation) (now : SystemTime) :
    Prop :=
  ∃ permission, manager.rolePermissions role = some permission ∧ permission.Allows operation now

theorem checkTime_eq_ok {restriction : Option TimeRestriction} {error : RaftError} {done : Unit} :
    AuthManager.checkTime restriction now error = .ok done ↔
      ∀ time ∈ restriction, time.validFrom.val ≤ now.val ∧ now.val ≤ time.validUntil.val := by
  cases restriction with
  | none => simp [AuthManager.checkTime]
  | some time => simp [AuthManager.checkTime, Outcome.rejectIf_eq_ok]

theorem checkResource_eq_ok {restriction : Option ResourceRestriction} {operation : ManagementOperation} {error : RaftError} :
    AuthManager.checkResource restriction operation error = .ok () ↔
      ∀ resource ∈ restriction, ∀ target ∈ operationTargetNode operation,
        (resource.allowedNodes = [] ∨ target ∈ resource.allowedNodes) ∧ target ∉ resource.deniedNodes := by
  cases restriction with
  | none => simp [AuthManager.checkResource]
  | some resource =>
      cases htarget : operationTargetNode operation with
      | none => simp [AuthManager.checkResource, htarget]
      | some target =>
          simp [AuthManager.checkResource, htarget, Outcome.bind_eq_ok, Outcome.rejectIf_eq_ok, or_iff_not_imp_left]

theorem checkPermission_eq_ok {operation : ManagementOperation} :
    manager.checkPermission token operation now now' = .ok () ↔
      manager.validateToken token now = .ok () ∧ manager.Permits token.role operation now' := by
  simp only [AuthManager.checkPermission, AuthManager.Permits, Permission.Allows, Outcome.bind_eq_ok, Outcome.okOr_eq_ok,
    Outcome.rejectIf_eq_ok, checkTime_eq_ok, checkResource_eq_ok, Bool.not_eq_false, Bool.or_eq_true,
    List.contains_iff_mem]
  apply Iff.intro
  · intro h
    obtain ⟨_, hvalid, permission, hrole, _, hallowed, _, htime, hresource⟩ := h
    exact ⟨hvalid, permission, hrole, hallowed, htime, hresource⟩
  · intro h
    obtain ⟨hvalid, permission, hrole, hallowed, htime, hresource⟩ := h
    exact ⟨(), hvalid, permission, hrole, (), hallowed, (), htime, hresource⟩

/-! ### Runs -/

def AuthManager.after (start : AuthManager) (ops : List AuthOp) : AuthManager := Run.final AuthOp.exec start ops

def issuedTokens (start : AuthManager) : List AuthOp → List AuthToken
  | [] => []
  | op :: rest => (op.returned start).toList ++ issuedTokens (op.exec start) rest

theorem returned_signed {op : AuthOp} (h : op.returned manager = some token) : token.Signed := by
  cases op with
  | issueToken nodeId peerId role issuer duration now =>
      rcases hbuild : manager.buildToken nodeId peerId role issuer duration now with token' | error | _
      · simp only [AuthOp.returned, AuthManager.issueToken, hbuild, Option.some.injEq] at h
        subst h
        exact (buildToken_eq_ok.mp hbuild).2.2.2
      · simp [AuthOp.returned, AuthManager.issueToken, hbuild] at h
      · simp [AuthOp.returned, AuthManager.issueToken, hbuild] at h
  | _ => exact nomatch h

theorem issuedTokens_signed {start : AuthManager} {ops : List AuthOp} (h : token ∈ issuedTokens start ops) : token.Signed := by
  induction ops generalizing start with
  | nil => exact nomatch h
  | cons op rest ih =>
      cases List.mem_append.mp h with
      | inl hreturned => exact returned_signed (Option.mem_toList.mp hreturned)
      | inr hlater => exact ih hlater

/-- The issuer was added as trusted and not removed since. -/
def TrustedSince (ops : List AuthOp) (issuer : UInt64) : Prop :=
  ∃ before after, ops = before ++ AuthOp.addTrustedIssuer issuer :: after ∧ AuthOp.removeTrustedIssuer issuer ∉ after

theorem trustedSince_append {ops : List AuthOp} {op : AuthOp} {issuer : UInt64} :
    TrustedSince (ops ++ [op]) issuer ↔
      op = .addTrustedIssuer issuer ∨ (op ≠ .removeTrustedIssuer issuer ∧ TrustedSince ops issuer) := by
  apply Iff.intro
  · intro h
    obtain ⟨before, after, hops, hkept⟩ := h
    rcases List.eq_nil_or_concat after with hnil | ⟨middle, last, hlast⟩
    · subst hnil
      exact Or.inl (List.append_inj_right' hops rfl |> List.singleton_inj.mp)
    · subst hlast
      rw [List.concat_eq_append] at hops hkept
      rw [← List.cons_append, ← List.append_assoc] at hops
      obtain ⟨hprior, hop⟩ := List.append_inj' hops rfl
      have hop := List.singleton_inj.mp hop
      subst hop
      refine Or.inr ⟨fun heq => hkept ?_, before, middle, hprior, fun hmem => hkept (List.mem_append_left _ hmem)⟩
      exact List.mem_append_right _ (List.mem_singleton.mpr heq.symm)
  · intro h
    cases h with
    | inl hadd => exact ⟨ops, [], by rw [hadd], List.not_mem_nil⟩
    | inr hkept =>
        obtain ⟨hop, before, after, hops, hkept⟩ := hkept
        refine ⟨before, after ++ [op], by rw [hops, List.append_assoc, List.cons_append], fun hmem => ?_⟩
        cases List.mem_append.mp hmem with
        | inl hmem => exact hkept hmem
        | inr hmem => exact hop (List.mem_singleton.mp hmem).symm

theorem mem_trustedIssuers_exec {op : AuthOp} {issuer : UInt64} :
    issuer ∈ (op.exec manager).trustedIssuers ↔
      op = .addTrustedIssuer issuer ∨ (op ≠ .removeTrustedIssuer issuer ∧ issuer ∈ manager.trustedIssuers) := by
  cases op with
  | addTrustedIssuer added =>
      by_cases hmem : added ∈ manager.trustedIssuers
      · simp only [AuthOp.exec, AuthManager.addTrustedIssuer, if_pos hmem]
        grind
      · simp only [AuthOp.exec, AuthManager.addTrustedIssuer, if_neg hmem]
        grind
  | removeTrustedIssuer removed =>
      simp only [AuthOp.exec, AuthManager.removeTrustedIssuer, List.mem_filter, bne_iff_ne]
      grind
  | issueToken nodeId peerId role issuer' duration now =>
      rcases hbuild : manager.buildToken nodeId peerId role issuer' duration now with token | error | _ <;>
        simp [AuthOp.exec, AuthManager.issueToken, hbuild]
  | _ => simp [AuthOp.exec, AuthManager.revokeToken, AuthManager.cleanupExpiredTokens, AuthManager.updateRolePermission]

theorem trustedIssuers_after (ops : List AuthOp) (issuer : UInt64) :
    issuer ∈ (AuthManager.new.after ops).trustedIssuers ↔ TrustedSince ops issuer := by
  let holds (done : List AuthOp) (manager : AuthManager) : Prop :=
    ∀ issuer, issuer ∈ manager.trustedIssuers ↔ TrustedSince done issuer
  refine Run.final_history holds (fun done manager op hholds issuer => ?_) (fun issuer => ?_) ops issuer
  · rw [mem_trustedIssuers_exec, trustedSince_append, hholds]
  · simp [AuthManager.new, TrustedSince]

/-! ### Accepted tokens -/

theorem accepted_eq_some {op : AuthOp} (h : op.accepted manager = some (token, now)) :
    manager.validateToken token now = .ok () := by
  cases op with
  | validateToken submitted reading =>
      simp only [AuthOp.accepted, Option.ite_none_right_eq_some, Option.some.injEq, Prod.mk.injEq] at h
      rw [← h.2.1, ← h.2.2]
      exact h.1
  | checkPermission submitted operation reading later =>
      simp only [AuthOp.accepted, Option.ite_none_right_eq_some, Option.some.injEq, Prod.mk.injEq] at h
      rw [← h.2.1, ← h.2.2]
      exact (checkPermission_eq_ok.mp h.1).1
  | _ => exact nomatch h

/-- What a token accepted after these calls is known to be. -/
structure Vouched (done : List AuthOp) (token : AuthToken) : Prop where
  trusted : TrustedSince done token.issuedBy
  /-- Asked for a token with its fields, the manager would return it. -/
  reissued : (AuthManager.new.after done).WouldIssue token
  /-- A token issued under the same signature is for the same node, role, issuer and second. -/
  agrees : ∀ issued ∈ issuedTokens .new done, issued.signature = token.signature →
    issued.nodeId = token.nodeId ∧ issued.role = token.role ∧ issued.issuedBy = token.issuedBy ∧
      issued.expirySecs = token.expirySecs

/-- **Every token accepted in a run** is unexpired and one the manager would issue. -/
theorem accepted_vouched (done : List AuthOp) (op : AuthOp) (token : AuthToken) (now : SystemTime)
    (h : op.accepted (AuthManager.new.after done) = some (token, now)) :
    now.val ≤ token.expiresAt.val ∧ Vouched done token := by
  have hvalid := accepted_eq_some h
  obtain ⟨hexpires, htrusted, hsigned⟩ := validateToken_eq_ok.mp hvalid
  refine ⟨hexpires, (trustedIssuers_after done _).mp htrusted, (validateToken_iff_wouldIssue.mp hvalid).2, ?_⟩
  intro issued hissued hsame
  exact (issuedTokens_signed hissued).agree hsigned hsame

def samplePeer : NodeId := ⟨List.replicate 32 0, rfl⟩

/-- An administrator's token of node 7, for the first thousand seconds. -/
def adminToken : AuthToken :=
  { nodeId := 7
    peerId := samplePeer
    role := .admin
    expiresAt := ⟨1000 * nanosPerSec, by decide⟩
    issuedBy := 1
    signature := "sig_7_0_1000_1" }

theorem accepted_vouched_forged : Vouched [.addTrustedIssuer 1] adminToken :=
  (accepted_vouched [.addTrustedIssuer 1] (.checkPermission adminToken .stepDown unixEpoch unixEpoch) adminToken
    unixEpoch (by decide)).2

/-- An accepted token need not be one that was issued. -/
theorem not_accepted_issued :
    ¬ ∀ (done : List AuthOp) (op : AuthOp) (token : AuthToken) (now : SystemTime),
      op.accepted (AuthManager.new.after done) = some (token, now) → token ∈ issuedTokens .new done := by
  intro h
  have hissued := h [.addTrustedIssuer 1] (.checkPermission adminToken .stepDown unixEpoch unixEpoch) adminToken
    unixEpoch (by decide)
  exact nomatch hissued

end IrohRaft.Management
