import Cruxible.Fallible
import Cruxible.Graph
import Cruxible.InFlight
import Cruxible.KeyedTable
import Cruxible.Permissions

/-!
# Runtime credentials

`RuntimeCredentialStore` of `server/credentials.py`. A method reads on a connection
that is in no transaction, and its first statement that writes begins one, so that a
call is a read of the store and later, on whatever the store is then, one write.
-/
namespace Cruxible.Credentials
open KeyedTable Fallible Permissions InFlight
open Cruxible.Graph (strip)

structure RuntimeCredentialRecord where
  credentialId : String
  instanceId : String
  label : String
  permissionMode : PermissionMode
  tokenHash : String
  createdAt : String
  createdBy : Option String := none
  revokedAt : Option String := none
  deriving DecidableEq

structure CreatedRuntimeCredential where
  record : RuntimeCredentialRecord
  token : String
  deriving DecidableEq

structure BootstrapClaim where
  bootstrapSecretHash : String
  instanceId : String
  credentialId : String
  claimedAt : String

structure RecoveryEvent where
  createdAt : String
  instanceId : String
  credentialId : String
  uid : Nat
  hostname : String

/-- The row `auth_required` of `runtime_auth_state`. -/
structure AuthRequired where
  updatedAt : String
  reason : String

structure CredentialStore where
  credentials : Table RuntimeCredentialRecord.credentialId := ∅
  claims : Table BootstrapClaim.bootstrapSecretHash := ∅
  authRequired : Option AuthRequired := none
  recoveryEvents : List RecoveryEvent := []

inductive CredentialError where
  | config (message : String)
  | authentication (message : String)
  | instanceNotFound (instanceId : String)
  | credentialNotFound (credentialId : String)
  | noAdminCredential (instanceId : String)
  | integrity
  deriving DecidableEq

abbrev Outcome (α : Type) := Except CredentialError α

/-- What a new credential draws at random, and the clock. -/
structure Minted where
  credentialId : String
  secret : String
  createdAt : String

def validateCredentialLabel (label : String) : Outcome Unit :=
  refuseIf (strip label = "operator") (.config
    ("Credential label 'operator' is reserved for the auth-off local " ++
      "operator identity and cannot be minted."))

def newToken (m : Minted) : String := s!"crt_{m.credentialId}_{m.secret}"

/-- `_new_created_credential`; `hash` is `_hash_token`. -/
def newCreatedCredential (hash : String → String) (m : Minted) (instanceId label : String)
    (permissionMode : PermissionMode) (createdBy : Option String) :
    Outcome CreatedRuntimeCredential := do
  validateCredentialLabel label
  pure {
    record := {
      credentialId := m.credentialId
      instanceId := instanceId
      label := label
      permissionMode := permissionMode
      tokenHash := hash (newToken m)
      createdAt := m.createdAt
      createdBy := createdBy }
    token := newToken m }

def CredentialStore.markAuthRequired (s : CredentialStore) (updatedAt reason : String) :
    CredentialStore :=
  { s with authRequired := some { updatedAt := updatedAt, reason := reason } }

/-- `_insert_credential_conn`: the id and the hash of the token are unique. -/
def CredentialStore.insertCredential (s : CredentialStore) (r : RuntimeCredentialRecord) :
    Outcome CredentialStore := do
  refuseIf ((s.credentials.get? r.credentialId).isSome ∨
    ∃ q ∈ s.credentials.rows, q.tokenHash = r.tokenHash) .integrity
  pure { s with credentials := s.credentials.put r }

/-- `_fetch_record_row`. -/
def CredentialStore.fetchRecordRow (s : CredentialStore) (instanceId credentialId : String) :
    Option RuntimeCredentialRecord :=
  (s.credentials.get? credentialId).filter fun r => r.instanceId = instanceId

/-- `UPDATE ... SET revoked_at = ? WHERE credential_id = ? AND instance_id = ?`. -/
def CredentialStore.setRevokedAt (s : CredentialStore) (instanceId credentialId revokedAt : String) :
    CredentialStore :=
  match s.fetchRecordRow instanceId credentialId with
  | none => s
  | some r => { s with credentials := s.credentials.put { r with revokedAt := some revokedAt } }

/-- `_validate_bootstrap_claim_conn`. -/
def CredentialStore.validateBootstrapClaim (s : CredentialStore)
    (instanceId bootstrapSecretHash : String) : Outcome Unit := do
  refuseIf (s.claims.get? bootstrapSecretHash).isSome (.authentication "Invalid bootstrap secret")
  refuseIf (∃ q ∈ s.credentials.rows, q.instanceId = instanceId ∧ q.permissionMode = .admin)
    (.authentication "Invalid bootstrap secret")

def CredentialStore.insertClaim (s : CredentialStore) (claim : BootstrapClaim) :
    Outcome CredentialStore := do
  refuseIf ((s.claims.get? claim.bootstrapSecretHash).isSome ∨
    ∃ q ∈ s.claims.rows, q.credentialId = claim.credentialId) .integrity
  pure { s with claims := s.claims.put claim }

/-- The row of an active credential that has the hash of the token. -/
def CredentialStore.authenticate (hash : String → String) (s : CredentialStore) (token : String) :
    Option RuntimeCredentialRecord :=
  s.credentials.rows.find? fun r => r.tokenHash = hash token ∧ r.revokedAt = none

inductive Method where
  | prepareCredential (instanceId label : String) (permissionMode : PermissionMode)
      (createdBy : Option String) (m : Minted)
  | commitPreparedCredential (created : CreatedRuntimeCredential) (reason : String)
  | recoverAdminCredential (instanceId label : String) (uid : Nat) (hostname : String) (m : Minted)
  | prepareBootstrapCredential (instanceId bootstrapSecret : String)
      (expectedBootstrapSecret : Option String) (m : Minted)
  | claimPreparedBootstrapCredential (created : CreatedRuntimeCredential) (bootstrapSecret : String)
  | authenticate (token : String)
  | revokeCredential (instanceId credentialId now : String)
  | prepareRotatedCredential (instanceId credentialId : String) (rotatedBy : Option String)
      (m : Minted)
  | commitPreparedRotation (created : CreatedRuntimeCredential) (instanceId credentialId : String)

/-- A call of a method, with the instances that the registry governs at that time. -/
structure Call where
  governed : String → Bool
  method : Method

def validateGovernedInstanceId (governed : String → Bool) (instanceId : String) : Outcome Unit :=
  refuseIf (governed instanceId = false) (.instanceNotFound instanceId)

/-- What a call returns or will write, once it has read. -/
inductive Plan where
  | prepared (created : CreatedRuntimeCredential)
  | authenticated (record : Option RuntimeCredentialRecord)
  | create (created : CreatedRuntimeCredential) (reason : String)
  | recover (created : CreatedRuntimeCredential) (uid : Nat) (hostname : String)
  | claim (created : CreatedRuntimeCredential) (bootstrapSecretHash : String)
  | revoke (instanceId credentialId revokedAt : String) (active : Bool)
  | rotate (created : CreatedRuntimeCredential) (instanceId credentialId : String)

/-- The active credential that a rotation replaces. -/
def CredentialStore.rotatable (s : CredentialStore) (instanceId credentialId : String) :
    Outcome RuntimeCredentialRecord :=
  match s.fetchRecordRow instanceId credentialId with
  | none => .error (.credentialNotFound credentialId)
  | some existing => do
      refuseIf (existing.revokedAt ≠ none) (.credentialNotFound credentialId)
      pure existing

/-- The statements of a call that precede its transaction. -/
def Call.read (hash : String → String) (c : Call) (s : CredentialStore) : Outcome Plan :=
  match c.method with
  | .prepareCredential instanceId label permissionMode createdBy m => do
      validateGovernedInstanceId c.governed instanceId
      let created ← newCreatedCredential hash m instanceId label permissionMode createdBy
      pure (.prepared created)
  | .commitPreparedCredential created reason => do
      validateGovernedInstanceId c.governed created.record.instanceId
      pure (.create created reason)
  | .recoverAdminCredential instanceId label uid hostname m => do
      let created ← newCreatedCredential hash m instanceId label .admin (some "local_recovery")
      pure (.recover created uid hostname)
  | .prepareBootstrapCredential instanceId bootstrapSecret expectedBootstrapSecret m => do
      validateGovernedInstanceId c.governed instanceId
      refuseIf (expectedBootstrapSecret ≠ some bootstrapSecret)
        (.authentication "Invalid bootstrap secret")
      s.validateBootstrapClaim instanceId (hash bootstrapSecret)
      let created ← newCreatedCredential hash m instanceId "bootstrap-admin" .admin
        (some "runtime_bootstrap")
      pure (.prepared created)
  | .claimPreparedBootstrapCredential created bootstrapSecret => do
      validateGovernedInstanceId c.governed created.record.instanceId
      s.validateBootstrapClaim created.record.instanceId (hash bootstrapSecret)
      pure (.claim created (hash bootstrapSecret))
  | .authenticate token => pure (.authenticated (s.authenticate hash token))
  | .revokeCredential instanceId credentialId now => do
      validateGovernedInstanceId c.governed instanceId
      match s.fetchRecordRow instanceId credentialId with
      | none => .error (.credentialNotFound credentialId)
      | some existing => pure (.revoke instanceId credentialId now (existing.revokedAt = none))
  | .prepareRotatedCredential instanceId credentialId rotatedBy m => do
      validateGovernedInstanceId c.governed instanceId
      let existing ← s.rotatable instanceId credentialId
      let created ← newCreatedCredential hash m instanceId existing.label existing.permissionMode
        rotatedBy
      pure (.prepared created)
  | .commitPreparedRotation created instanceId credentialId => do
      validateGovernedInstanceId c.governed instanceId
      let _ ← s.rotatable instanceId credentialId
      pure (.rotate created instanceId credentialId)

/-- The transaction of a call. A recovery begins its own before it reads. -/
def Plan.write (s : CredentialStore) : Plan → Outcome CredentialStore
  | .prepared _ | .authenticated _ => .ok s
  | .create created reason =>
      (s.markAuthRequired created.record.createdAt reason).insertCredential created.record
  | .recover created uid hostname => do
      refuseIf (¬∃ q ∈ s.credentials.rows, q.instanceId = created.record.instanceId ∧
        q.permissionMode = .admin) (.noAdminCredential created.record.instanceId)
      let marked := s.markAuthRequired created.record.createdAt "runtime_credential_recovered"
      let inserted ← marked.insertCredential created.record
      pure { inserted with recoveryEvents := inserted.recoveryEvents ++ [{
        createdAt := created.record.createdAt
        instanceId := created.record.instanceId
        credentialId := created.record.credentialId
        uid := uid
        hostname := hostname }] }
  | .claim created bootstrapSecretHash =>
      let marked := s.markAuthRequired created.record.createdAt "runtime_bootstrap_claimed"
      Except.mapError (fun _ => .authentication "Invalid bootstrap secret") do
        let inserted ← marked.insertCredential created.record
        inserted.insertClaim {
          bootstrapSecretHash := bootstrapSecretHash
          instanceId := created.record.instanceId
          credentialId := created.record.credentialId
          claimedAt := created.record.createdAt }
  | .revoke instanceId credentialId revokedAt active =>
      .ok (if active then s.setRevokedAt instanceId credentialId revokedAt else s)
  | .rotate created instanceId credentialId =>
      let marked := s.markAuthRequired created.record.createdAt "runtime_credential_rotated"
      (marked.setRevokedAt instanceId credentialId created.record.createdAt).insertCredential
        created.record

/-- The row that a transaction revokes: its instance and id, and the time. -/
def Plan.revokes : Plan → Option (String × String × String)
  | .revoke instanceId credentialId revokedAt true => some (instanceId, credentialId, revokedAt)
  | .rotate created instanceId credentialId =>
      some (instanceId, credentialId, created.record.createdAt)
  | _ => none

/-- The row that a transaction inserts. -/
def Plan.inserts : Plan → Option RuntimeCredentialRecord
  | .create created _ | .recover created _ _ | .claim created _ | .rotate created _ _ =>
      some created.record
  | _ => none

/-- The credential that the update meets. -/
def Plan.updated (s : CredentialStore) (p : Plan) : List String :=
  match p.revokes with
  | none => []
  | some (instanceId, credentialId, _) =>
      if (s.fetchRecordRow instanceId credentialId).isSome then [credentialId] else []

/-- The credentials whose rows a transaction updates or inserts. -/
def Plan.written (s : CredentialStore) (p : Plan) : List String :=
  p.updated s ++ (p.inserts.map RuntimeCredentialRecord.credentialId).toList

def credentialSystem (hash : String → String) :
    System CredentialStore Call Plan String CredentialError where
  read := Call.read hash
  commit p s := p.write s
  writes p s := p.written s

end Cruxible.Credentials
