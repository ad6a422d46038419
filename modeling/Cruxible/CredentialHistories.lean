import Cruxible.Credentials

/-!
# What a history of credentials keeps

A transaction revokes at most one row and inserts at most one, so that a revoked
credential stays revoked and a secret is exchanged once, in every interleaving of
calls. A rotation checks its credential before its transaction. When another call
wrote the credential in between, the rotation replaces a revoked one.
-/
namespace Cruxible.CredentialHistories
open KeyedTable Fallible Permissions InFlight Credentials

variable {s s' : CredentialStore} {p : Plan}

abbrev CredentialCommit := Commit CredentialStore Plan String

variable {credentialId instanceId : String} {r : RuntimeCredentialRecord}

theorem fetchRecordRow_eq_some :
    s.fetchRecordRow instanceId credentialId = some r ↔
      s.credentials.get? credentialId = some r ∧ r.instanceId = instanceId := by
  unfold CredentialStore.fetchRecordRow
  rw [Option.filter_eq_some_iff, decide_eq_true_eq]

variable {revokedAt : String}

theorem get?_setRevokedAt {id : String} (hr : s.credentials.get? id = some r) :
    (s.setRevokedAt instanceId credentialId revokedAt).credentials.get? id =
      some (if credentialId = id ∧ r.instanceId = instanceId
        then { r with revokedAt := some revokedAt } else r) := by
  unfold CredentialStore.setRevokedAt
  cases hrow : s.fetchRecordRow instanceId credentialId with
  | none =>
    rw [if_neg]
    · exact hr
    · intro ⟨hid, hinstance⟩
      have hfound := fetchRecordRow_eq_some.mpr ⟨hid ▸ hr, hinstance⟩
      rw [hrow] at hfound
      cases hfound
  | some q =>
    have ⟨hq, hinstance⟩ := fetchRecordRow_eq_some.mp hrow
    have hkey : q.credentialId = credentialId := Table.key_of_get? hq
    dsimp only
    rw [Table.get?_put]
    by_cases hid : credentialId = id
    · rw [← hid, hq] at hr
      rw [Option.some.inj hr] at hkey hinstance ⊢
      rw [if_pos (hkey.trans hid), if_pos ⟨hid, hinstance⟩]
    · rw [if_neg (fun h => hid (hkey.symm.trans h)), if_neg (fun h => hid h.1)]
      exact hr

theorem get?_setRevokedAt_none {id : String} (hr : s.credentials.get? id = none) :
    (s.setRevokedAt instanceId credentialId revokedAt).credentials.get? id = none := by
  unfold CredentialStore.setRevokedAt
  cases hrow : s.fetchRecordRow instanceId credentialId with
  | none => exact hr
  | some q =>
    have ⟨hq, _⟩ := fetchRecordRow_eq_some.mp hrow
    have hkey : q.credentialId = credentialId := Table.key_of_get? hq
    dsimp only
    rw [Table.get?_put_of_ne]
    · exact hr
    · intro hid
      have hsame : credentialId = id := hkey.symm.trans hid
      rw [← hsame, hq] at hr
      cases hr

/-- The store on which a transaction inserts. -/
def revoked (s : CredentialStore) (p : Plan) : CredentialStore :=
  match p.revokes with
  | none => s
  | some (instanceId, credentialId, revokedAt) => s.setRevokedAt instanceId credentialId revokedAt

/-- The id and the hash of the token are new. -/
def Fresh (s : CredentialStore) (r : RuntimeCredentialRecord) : Prop :=
  s.credentials.get? r.credentialId = none ∧ ∀ q ∈ s.credentials.rows, q.tokenHash ≠ r.tokenHash

theorem insertCredential_ok (h : s.insertCredential r = .ok s') :
    Fresh s r ∧ s' = { s with credentials := s.credentials.put r } := by
  unfold CredentialStore.insertCredential at h
  rw [refuseIf_bind_eq_ok, pure_eq_ok, not_or] at h
  have ⟨⟨hid, hhash⟩, hput⟩ := h
  refine ⟨⟨Option.not_isSome_iff_eq_none.mp hid, ?_⟩, hput.symm⟩
  intro q hq hsame
  exact hhash ⟨q, hq, hsame⟩

theorem insertClaim_ok {claim : BootstrapClaim} (h : s.insertClaim claim = .ok s') :
    s.claims.get? claim.bootstrapSecretHash = none ∧
      s' = { s with claims := s.claims.put claim } := by
  unfold CredentialStore.insertClaim at h
  rw [refuseIf_bind_eq_ok, pure_eq_ok, not_or] at h
  exact ⟨Option.not_isSome_iff_eq_none.mp h.1.1, h.2.symm⟩

@[simp] theorem setRevokedAt_claims (instanceId credentialId revokedAt : String) :
    (s.setRevokedAt instanceId credentialId revokedAt).claims = s.claims := by
  unfold CredentialStore.setRevokedAt
  cases s.fetchRecordRow instanceId credentialId with
  | none => rfl
  | some q => rfl

theorem setRevokedAt_mark (updatedAt reason instanceId credentialId revokedAt : String) :
    ((s.markAuthRequired updatedAt reason).setRevokedAt instanceId credentialId
      revokedAt).credentials = (s.setRevokedAt instanceId credentialId revokedAt).credentials := by
  unfold CredentialStore.setRevokedAt
  have hfetch : (s.markAuthRequired updatedAt reason).fetchRecordRow instanceId credentialId =
      s.fetchRecordRow instanceId credentialId := rfl
  rw [hfetch]
  cases s.fetchRecordRow instanceId credentialId with
  | none => rfl
  | some q => rfl

/-- The secret that a transaction exchanges, as its hash. -/
def exchanged : Plan → Option String
  | .claim _ bootstrapSecretHash => some bootstrapSecretHash
  | _ => none

/-- The credentials: an update, then an insertion of a fresh row. The claims: the
insertion of a fresh one. -/
structure Written (s s' : CredentialStore) (p : Plan) : Prop where
  credentials : (p.inserts = none ∧ s'.credentials = (revoked s p).credentials) ∨
    ∃ r, p.inserts = some r ∧ Fresh (revoked s p) r ∧
      s'.credentials = (revoked s p).credentials.put r
  claims : (exchanged p = none ∧ s'.claims = s.claims) ∨
    ∃ claim, exchanged p = some claim.bootstrapSecretHash ∧
      s.claims.get? claim.bootstrapSecretHash = none ∧ s'.claims = s.claims.put claim

theorem write_ok (h : p.write s = .ok s') : Written s s' p := by
  cases p with
  | prepared created | authenticated record =>
    rw [← Except.ok.inj h]
    exact ⟨.inl ⟨rfl, rfl⟩, .inl ⟨rfl, rfl⟩⟩
  | create created reason =>
    have ⟨hfresh, hput⟩ := insertCredential_ok h
    rw [hput]
    exact ⟨.inr ⟨created.record, rfl, hfresh, rfl⟩, .inl ⟨rfl, rfl⟩⟩
  | recover created uid hostname =>
    unfold Plan.write at h
    rw [refuseIf_bind_eq_ok] at h
    have ⟨inserted, hinsert, hdone⟩ := bind_eq_ok.mp h.2
    have ⟨hfresh, hput⟩ := insertCredential_ok hinsert
    rw [pure_eq_ok] at hdone
    rw [← hdone, hput]
    exact ⟨.inr ⟨created.record, rfl, hfresh, rfl⟩, .inl ⟨rfl, rfl⟩⟩
  | claim created bootstrapSecretHash =>
    unfold Plan.write at h
    rw [mapError_eq_ok] at h
    have ⟨inserted, hinsert, hclaim⟩ := bind_eq_ok.mp h
    have ⟨hfresh, hput⟩ := insertCredential_ok hinsert
    have ⟨hnew, hclaimed⟩ := insertClaim_ok hclaim
    rw [hput] at hnew hclaimed
    rw [hclaimed]
    exact ⟨.inr ⟨created.record, rfl, hfresh, rfl⟩, .inr ⟨_, rfl, hnew, rfl⟩⟩
  | revoke instanceId credentialId revokedAt active =>
    rw [← Except.ok.inj h]
    cases active with
    | false => exact ⟨.inl ⟨rfl, rfl⟩, .inl ⟨rfl, rfl⟩⟩
    | true => exact ⟨.inl ⟨rfl, rfl⟩, .inl ⟨rfl, setRevokedAt_claims _ _ _⟩⟩
  | rotate created instanceId credentialId =>
    have ⟨hfresh, hput⟩ := insertCredential_ok h
    have hcredentials := setRevokedAt_mark (s := s) created.record.createdAt
      "runtime_credential_rotated" instanceId credentialId created.record.createdAt
    constructor
    case credentials =>
      right
      refine ⟨created.record, rfl, ?_, ?_⟩
      · unfold Fresh at hfresh
        rw [hcredentials] at hfresh
        exact hfresh
      · rw [hput]
        change ((s.markAuthRequired _ _).setRevokedAt _ _ _).credentials.put created.record = _
        rw [hcredentials]
        rfl
    case claims =>
      left
      rw [hput]
      exact ⟨rfl, setRevokedAt_claims _ _ _⟩

theorem revoked_row {id : String} (hr : s.credentials.get? id = some r) :
    ((revoked s p).credentials.get? id = some r ∧ id ∉ p.updated s) ∨
      ∃ revokedAt, (revoked s p).credentials.get? id =
        some { r with revokedAt := some revokedAt } ∧ id ∈ p.updated s := by
  unfold revoked Plan.updated
  cases p.revokes with
  | none => exact .inl ⟨hr, List.not_mem_nil⟩
  | some target =>
    have ⟨instanceId, credentialId, revokedAt⟩ := target
    dsimp only
    rw [get?_setRevokedAt hr]
    by_cases hmeets : credentialId = id ∧ r.instanceId = instanceId
    · have hfound := fetchRecordRow_eq_some.mpr ⟨hmeets.1 ▸ hr, hmeets.2⟩
      rw [if_pos hmeets, hfound, Option.isSome_some, if_pos rfl, hmeets.1]
      exact .inr ⟨revokedAt, rfl, List.mem_singleton.mpr rfl⟩
    · rw [if_neg hmeets]
      refine .inl ⟨rfl, ?_⟩
      split_ifs with hfound
      · intro hmem
        have hid := List.mem_singleton.mp hmem
        have ⟨q, hq⟩ := Option.isSome_iff_exists.mp hfound
        have ⟨hget, hinstance⟩ := fetchRecordRow_eq_some.mp hq
        rw [← hid, hr] at hget
        exact hmeets ⟨hid.symm, Option.some.inj hget ▸ hinstance⟩
      · exact List.not_mem_nil

theorem Written.row (h : Written s s' p) {id : String} {r : RuntimeCredentialRecord}
    (hr : s.credentials.get? id = some r) :
    (s'.credentials.get? id = some r ∧ id ∉ p.written s) ∨
      ∃ revokedAt, s'.credentials.get? id = some { r with revokedAt := some revokedAt } ∧
        id ∈ p.written s := by
  have hkept : ∀ q, (revoked s p).credentials.get? id = some q →
      s'.credentials.get? id = some q ∧
        id ∉ (p.inserts.map RuntimeCredentialRecord.credentialId).toList := by
    intro q hq
    rcases h.credentials with ⟨hnone, hsame⟩ | ⟨fresh, hsome, hfresh, hput⟩
    · rw [hsame, hnone]
      exact ⟨hq, List.not_mem_nil⟩
    · have hne : fresh.credentialId ≠ id := by
        intro hid
        rw [← hid, hfresh.1] at hq
        cases hq
      rw [hput, hsome]
      refine ⟨(Table.get?_put_of_ne _ hne).trans hq, ?_⟩
      intro hmem
      exact hne (List.mem_singleton.mp hmem).symm
  rcases revoked_row hr with ⟨hsame, hout⟩ | ⟨revokedAt, hnew, hin⟩
  · have ⟨hget, hnot⟩ := hkept r hsame
    left
    refine ⟨hget, ?_⟩
    intro hmem
    rcases List.mem_append.mp hmem with hmem | hmem
    · exact hout hmem
    · exact hnot hmem
  · have ⟨hget, _⟩ := hkept _ hnew
    exact .inr ⟨revokedAt, hget, List.mem_append_left _ hin⟩

def UniqueTokens (s : CredentialStore) : Prop :=
  ∀ i j r q, s.credentials.get? i = some r → s.credentials.get? j = some q →
    r.tokenHash = q.tokenHash → i = j

theorem uniqueTokens_revoked (hs : UniqueTokens s) (p : Plan) : UniqueTokens (revoked s p) := by
  have hold : ∀ i r, (revoked s p).credentials.get? i = some r → ∃ r', s.credentials.get? i = some r' ∧
      r'.tokenHash = r.tokenHash := by
    intro i r hr
    cases hget : s.credentials.get? i with
    | none =>
      unfold revoked at hr
      cases hrevokes : p.revokes with
      | none =>
        rw [hrevokes, hget] at hr
        cases hr
      | some target =>
        rw [hrevokes, get?_setRevokedAt_none hget] at hr
        cases hr
    | some r' =>
      rcases revoked_row (p := p) hget with ⟨hsame, _⟩ | ⟨revokedAt, hnew, _⟩
      · rw [hsame] at hr
        exact ⟨r', rfl, congrArg _ (Option.some.inj hr)⟩
      · rw [hnew] at hr
        exact ⟨r', rfl, by rw [← Option.some.inj hr]⟩
  intro i j r q hr hq hhash
  have ⟨r', hr', hrhash⟩ := hold i r hr
  have ⟨q', hq', hqhash⟩ := hold j q hq
  exact hs i j r' q' hr' hq' (hrhash.trans (hhash.trans hqhash.symm))

theorem Written.uniqueTokens (h : Written s s' p) (hs : UniqueTokens s) : UniqueTokens s' := by
  have hrevoked := uniqueTokens_revoked hs p
  rcases h.credentials with ⟨_, hsame⟩ | ⟨fresh, _, hfresh, hput⟩
  · unfold UniqueTokens
    rw [hsame]
    exact hrevoked
  · have hnew : ∀ k q, (revoked s p).credentials.get? k = some q → q.tokenHash ≠ fresh.tokenHash :=
      fun k q hq => hfresh.2 q (Table.mem_rows_of_get? hq)
    intro i j r q hr hq hhash
    rw [hput, Table.get?_put] at hr hq
    split_ifs at hr hq with hi hj hj
    · exact hi.symm.trans hj
    · rw [← Option.some.inj hr] at hhash
      exact absurd hhash.symm (hnew j q hq)
    · rw [← Option.some.inj hq] at hhash
      exact absurd hhash (hnew i r hr)
    · exact hrevoked i j r q hr hq hhash

/-- A row later on: the same hash of a token, and revoked for good. -/
def Keeps (s s' : CredentialStore) : Prop :=
  ∀ id r, s.credentials.get? id = some r → ∃ q, s'.credentials.get? id = some q ∧
    q.tokenHash = r.tokenHash ∧ (r.revokedAt ≠ none → q.revokedAt ≠ none)

theorem Keeps.refl (s : CredentialStore) : Keeps s s := fun _ r hr => ⟨r, hr, rfl, fun h => h⟩

theorem Keeps.trans {u : CredentialStore} (h : Keeps s u) (h' : Keeps u s') : Keeps s s' := by
  intro id r hr
  have ⟨q, hq, hhash, hrevoked⟩ := h id r hr
  have ⟨q', hq', hhash', hrevoked'⟩ := h' id q hq
  exact ⟨q', hq', hhash'.trans hhash, fun hr => hrevoked' (hrevoked hr)⟩

theorem Written.keeps (h : Written s s' p) : Keeps s s' := by
  intro id r hr
  rcases h.row hr with ⟨hsame, _⟩ | ⟨revokedAt, hnew, _⟩
  · exact ⟨r, hsame, rfl, fun hrevoked => hrevoked⟩
  · exact ⟨_, hnew, rfl, fun _ => by simp⟩

variable {hash : String → String}

theorem authenticate_revoked {token id : String} (hs : UniqueTokens s)
    (hr : s.credentials.get? id = some r) (hhash : r.tokenHash = hash token)
    (hrevoked : r.revokedAt ≠ none) : s.authenticate hash token = none := by
  unfold CredentialStore.authenticate
  rw [List.find?_eq_none]
  intro q hq hfound
  have ⟨hqhash, hactive⟩ := of_decide_eq_true hfound
  have hget := Table.get?_of_mem_rows hq
  have hid := hs id _ r q hr hget (hhash.trans hqhash.symm)
  rw [← hid, hr] at hget
  rw [Option.some.inj hget] at hrevoked
  exact hrevoked hactive

/-- The credential that a rotation replaces is stored, and is active unless another
call wrote it since the rotation checked it. -/
def RotationMeets (p : Plan) (since : List String) (s : CredentialStore) : Prop :=
  match p with
  | .rotate _ instanceId credentialId => ∃ r, s.credentials.get? credentialId = some r ∧
      r.instanceId = instanceId ∧ (r.revokedAt = none ↔ credentialId ∉ since)
  | _ => True

theorem rotatable_ok (h : s.rotatable instanceId credentialId = .ok r) :
    s.credentials.get? credentialId = some r ∧ r.instanceId = instanceId ∧ r.revokedAt = none := by
  unfold CredentialStore.rotatable at h
  cases hrow : s.fetchRecordRow instanceId credentialId with
  | none =>
    rw [hrow] at h
    cases h
  | some existing =>
    rw [hrow] at h
    dsimp only at h
    rw [refuseIf_bind_eq_ok, pure_eq_ok, not_not] at h
    rw [← h.2]
    have ⟨hget, hinstance⟩ := fetchRecordRow_eq_some.mp hrow
    exact ⟨hget, hinstance, h.1⟩

/-- Only the commit of a rotation plans one, after its check. -/
theorem read_rotate {c : Call} {created : CreatedRuntimeCredential}
    (h : c.read hash s = .ok (.rotate created instanceId credentialId)) :
    ∃ r, s.rotatable instanceId credentialId = .ok r := by
  unfold Call.read at h
  cases hmethod : c.method with
  | prepareCredential =>
    rw [hmethod] at h
    have ⟨_, _, h⟩ := bind_eq_ok.mp h
    have ⟨_, _, h⟩ := bind_eq_ok.mp h
    cases h
  | commitPreparedCredential | recoverAdminCredential =>
    rw [hmethod] at h
    have ⟨_, _, h⟩ := bind_eq_ok.mp h
    cases h
  | prepareBootstrapCredential =>
    rw [hmethod] at h
    have ⟨_, _, h⟩ := bind_eq_ok.mp h
    have ⟨_, _, h⟩ := bind_eq_ok.mp h
    have ⟨_, _, h⟩ := bind_eq_ok.mp h
    have ⟨_, _, h⟩ := bind_eq_ok.mp h
    cases h
  | claimPreparedBootstrapCredential =>
    rw [hmethod] at h
    have ⟨_, _, h⟩ := bind_eq_ok.mp h
    have ⟨_, _, h⟩ := bind_eq_ok.mp h
    cases h
  | authenticate =>
    rw [hmethod] at h
    cases h
  | revokeCredential instanceId credentialId now =>
    rw [hmethod] at h
    have ⟨_, _, h⟩ := bind_eq_ok.mp h
    split at h
    · cases h
    · cases h
  | prepareRotatedCredential =>
    rw [hmethod] at h
    have ⟨_, _, h⟩ := bind_eq_ok.mp h
    have ⟨_, _, h⟩ := bind_eq_ok.mp h
    have ⟨_, _, h⟩ := bind_eq_ok.mp h
    cases h
  | commitPreparedRotation =>
    rw [hmethod] at h
    have ⟨_, _, h⟩ := bind_eq_ok.mp h
    have ⟨r, hr, h⟩ := bind_eq_ok.mp h
    have hplan := Plan.rotate.inj (pure_eq_ok.mp h)
    rw [hplan.2.1, hplan.2.2] at hr
    exact ⟨r, hr⟩

theorem rotationMeets_read {c : Call} (h : c.read hash s = .ok p) : RotationMeets p [] s := by
  cases p with
  | rotate created instanceId credentialId =>
    have ⟨_, hrotatable⟩ := read_rotate h
    have ⟨hget, hinstance, hactive⟩ := rotatable_ok hrotatable
    exact ⟨_, hget, hinstance, ⟨fun _ => List.not_mem_nil, fun _ => hactive⟩⟩
  | prepared | authenticated | create | recover | claim | revoke => trivial

theorem rotationMeets_write {q : Plan} {since : List String} (hp : RotationMeets p since s)
    (hq : q.write s = .ok s') : RotationMeets p (since ++ q.written s) s' := by
  cases p with
  | rotate created instanceId credentialId =>
    have ⟨r, hr, hinstance, hsince⟩ := hp
    rcases (write_ok hq).row hr with ⟨hsame, hout⟩ | ⟨revokedAt, hnew, hin⟩
    · refine ⟨r, hsame, hinstance, ?_⟩
      rw [hsince, List.mem_append, not_or]
      exact ⟨fun h => ⟨h, hout⟩, fun h => h.1⟩
    · refine ⟨_, hnew, hinstance, ?_⟩
      constructor
      · intro h
        cases h
      · intro h
        exact absurd (List.mem_append_right _ hin) h
  | prepared | authenticated | create | recover | claim | revoke => trivial

section Runs
variable (hash : String → String) (calls : Nat → Call)

/-- The store, the calls in flight and the log after a schedule, from an empty store. -/
abbrev after (schedule : List Step) : World CredentialStore Plan String :=
  run (credentialSystem hash) calls (idle {}) schedule

/-- The credential that a rotation replaces. -/
def replaced : Plan → Option String
  | .rotate _ _ credentialId => some credentialId
  | _ => none

/-- No secret is exchanged twice, a revoked token finds no credential, no credential is
replaced twice, and a rotation replaces an active credential. -/
structure Governed (schedule : List Step) : Prop where
  exchangedOnce : ((after hash calls schedule).log.filterMap fun c => exchanged c.plan).Nodup
  revokedForGood : ∀ earlier later, schedule = earlier ++ later → ∀ id r token,
    (after hash calls earlier).store.credentials.get? id = some r → r.revokedAt ≠ none →
      r.tokenHash = hash token → (after hash calls schedule).store.authenticate hash token = none
  replacedOnce : ((after hash calls schedule).log.filterMap fun c => replaced c.plan).Nodup
  neverRevived : ∀ c ∈ (after hash calls schedule).log, ∀ id, replaced c.plan = some id →
    ∃ r, c.before.credentials.get? id = some r ∧ r.revokedAt = none

/-- No other call has written the credential of a rotation since the rotation checked it. -/
def Undisturbed (c : CredentialCommit) : Prop :=
  ∀ id, replaced c.plan = some id → id ∉ c.since

variable {hash calls}

theorem log_meets (schedule : List Step) : ∀ c ∈ (after hash calls schedule).log,
    RotationMeets c.plan c.since c.before ∧ c.plan.write c.before = .ok c.after := by
  apply run_log_held (credentialSystem hash) calls RotationMeets
  · intro c s p h
    exact rotationMeets_read h
  · intro p since q s s' hp hq
    exact rotationMeets_write hp hq
  · intro i h hi
    cases hi
  · intro c hc
    cases hc

theorem uniqueTokens_run (schedule : List Step) :
    UniqueTokens (after hash calls schedule).store := by
  apply run_log_invariant (credentialSystem hash) calls (fun _ s => UniqueTokens s)
    (fun c => c.plan.write c.before = .ok c.after)
  · intro log c hbefore hwrite
    exact (write_ok hwrite).uniqueTokens hbefore
  · intro i j r q hr
    cases hr
  · intro c hc
    exact (log_meets schedule c hc).2

theorem keeps_run (earlier later : List Step) :
    Keeps (after hash calls earlier).store (after hash calls (earlier ++ later)).store := by
  apply run_related (credentialSystem hash) calls Keeps.refl
  · intro s t u hst htu
    exact hst.trans htu
  · intro c hc
    exact (write_ok (log_meets (earlier ++ later) c hc).2).keeps

theorem exchanged_once (schedule : List Step) :
    ((after hash calls schedule).log.filterMap fun c => exchanged c.plan).Nodup := by
  apply run_once (credentialSystem hash) calls exchanged
    (fun secretHash s => s.claims.get? secretHash ≠ none)
    (fun c => c.plan.write c.before = .ok c.after)
  · intro c hwrite k hk
    rcases (write_ok hwrite).claims with ⟨_, hsame⟩ | ⟨claim, _, _, hput⟩
    · rw [hsame]
      exact hk
    · rw [hput, Table.get?_put]
      split_ifs
      · simp
      · exact hk
  · intro c hwrite k hk
    rcases (write_ok hwrite).claims with ⟨hnone, _⟩ | ⟨claim, hsome, hfresh, hput⟩
    · rw [hnone] at hk
      cases hk
    · have hsame : claim.bootstrapSecretHash = k := Option.some.inj (hsome.symm.trans hk)
      rw [hput, ← hsame, Table.get?_put_self]
      exact ⟨fun h => h hfresh, by simp⟩
  · intro c hc
    exact (log_meets schedule c hc).2

/-- The id of a row that is revoked. -/
def Revoked (id : String) (s : CredentialStore) : Prop :=
  ∃ r, s.credentials.get? id = some r ∧ r.revokedAt ≠ none

theorem rotationMeets_replaced {since : List String} {id : String} (h : RotationMeets p since s)
    (hid : replaced p = some id) :
    ∃ r, s.credentials.get? id = some r ∧ (r.revokedAt = none ↔ id ∉ since) := by
  cases p with
  | rotate created instanceId credentialId =>
    obtain rfl : credentialId = id := Option.some.inj hid
    have ⟨r, hr, _, hsince⟩ := h
    exact ⟨r, hr, hsince⟩
  | prepared | authenticated | create | recover | claim | revoke => cases hid

theorem revoked_replaced {since : List String} {id : String} (hmeets : RotationMeets p since s)
    (hwrite : p.write s = .ok s') (hid : replaced p = some id) : Revoked id s' := by
  cases p with
  | rotate created instanceId credentialId =>
    have hsame : credentialId = id := Option.some.inj hid
    have ⟨r, hr, hinstance, _⟩ := hmeets
    have hmet : id ∈ (Plan.rotate created instanceId credentialId).written s := by
      have hfound := fetchRecordRow_eq_some.mpr ⟨hr, hinstance⟩
      apply List.mem_append_left
      unfold Plan.updated Plan.revokes
      dsimp only
      rw [hfound, Option.isSome_some, if_pos rfl, hsame]
      exact List.mem_cons_self
    rw [hsame] at hr
    rcases (write_ok hwrite).row hr with ⟨_, hout⟩ | ⟨revokedAt, hnew, _⟩
    · exact absurd hmet hout
    · exact ⟨_, hnew, by simp⟩
  | prepared | authenticated | create | recover | claim | revoke => cases hid

theorem replaced_once (schedule : List Step) (h : ∀ c ∈ (after hash calls schedule).log, ∀ id,
      replaced c.plan = some id → ∃ r, c.before.credentials.get? id = some r ∧ r.revokedAt = none) :
    ((after hash calls schedule).log.filterMap fun c => replaced c.plan).Nodup := by
  apply run_once (credentialSystem hash) calls replaced Revoked
    (fun c => (RotationMeets c.plan c.since c.before ∧ c.plan.write c.before = .ok c.after) ∧
      ∀ id, replaced c.plan = some id →
        ∃ r, c.before.credentials.get? id = some r ∧ r.revokedAt = none)
  · intro c ⟨⟨_, hwrite⟩, _⟩ id ⟨r, hr, hrevoked⟩
    have ⟨q, hq, _, hkept⟩ := (write_ok hwrite).keeps id r hr
    exact ⟨q, hq, hkept hrevoked⟩
  · intro c ⟨⟨hmeets, hwrite⟩, hactive⟩ id hid
    constructor
    · intro ⟨q, hq, hrevoked⟩
      have ⟨r, hr, hnone⟩ := hactive id hid
      rw [hr] at hq
      rw [← Option.some.inj hq] at hrevoked
      exact hrevoked hnone
    · exact revoked_replaced hmeets hwrite hid
  · intro c hc
    exact ⟨log_meets schedule c hc, h c hc⟩

/-- In every interleaving, secrets are exchanged once and revoked tokens find nothing.
Rotations replace active credentials, and each of them once, in exactly the runs in
which no other call wrote the credential of a rotation since it was checked. -/
theorem credentials_governed_iff (hash : String → String) (calls : Nat → Call)
    (schedule : List Step) :
    Governed hash calls schedule ↔ ∀ c ∈ (after hash calls schedule).log, Undisturbed c := by
  constructor
  case mp =>
    intro h c hc id hid
    have ⟨r, hr, hactive⟩ := h.neverRevived c hc id hid
    have ⟨q, hq, hsince⟩ := rotationMeets_replaced (log_meets schedule c hc).1 hid
    rw [hr] at hq
    rw [← Option.some.inj hq] at hsince
    exact hsince.mp hactive
  case mpr =>
    intro hquiet
    have hactive : ∀ c ∈ (after hash calls schedule).log, ∀ id, replaced c.plan = some id →
        ∃ r, c.before.credentials.get? id = some r ∧ r.revokedAt = none := by
      intro c hc id hid
      have ⟨r, hr, hsince⟩ := rotationMeets_replaced (log_meets schedule c hc).1 hid
      exact ⟨r, hr, hsince.mpr (hquiet c hc id hid)⟩
    constructor
    case exchangedOnce => exact exchanged_once schedule
    case revokedForGood =>
      intro earlier later hsplit id r token hr hrevoked hhash
      have hkeeps : Keeps (after hash calls earlier).store (after hash calls schedule).store :=
        hsplit ▸ keeps_run earlier later
      have ⟨q, hq, hsame, hkept⟩ := hkeeps id r hr
      exact authenticate_revoked (uniqueTokens_run schedule) hq (hsame.trans hhash) (hkept hrevoked)
    case replacedOnce => exact replaced_once schedule hactive
    case neverRevived => exact hactive

end Runs

def minted (id : String) : Minted where
  credentialId := id
  secret := "secret"
  createdAt := "2025-01-01T00:00:00Z"

/-- A credential as `_new_created_credential` makes it, with the token for its hash. -/
def created (id : String) : CreatedRuntimeCredential where
  record := {
    credentialId := id
    instanceId := "inst"
    label := "ci"
    permissionMode := .admin
    tokenHash := newToken (minted id)
    createdAt := "2025-01-01T00:00:00Z" }
  token := newToken (minted id)

/-- One credential, and two rotations of it that were prepared with new ids. -/
def rotations : Nat → Call
  | 0 => ⟨fun _ => true, .commitPreparedCredential (created "rcred_0") "runtime_credential_created"⟩
  | 1 => ⟨fun _ => true, .prepareRotatedCredential "inst" "rcred_0" none (minted "rcred_1")⟩
  | 2 => ⟨fun _ => true, .prepareRotatedCredential "inst" "rcred_0" none (minted "rcred_2")⟩
  | 3 => ⟨fun _ => true, .commitPreparedRotation (created "rcred_1") "inst" "rcred_0"⟩
  | _ => ⟨fun _ => true, .commitPreparedRotation (created "rcred_2") "inst" "rcred_0"⟩

/-- Both rotations check the credential before either writes. -/
def bothChecked : List Step :=
  [.read 0, .commit 0, .read 1, .commit 1, .read 2, .commit 2, .read 3, .read 4, .commit 3,
   .commit 4]

/-- Both commit, so that the credential is replaced twice. -/
theorem credential_is_replaced_twice : ¬Governed id rotations bothChecked := by
  intro h
  have htwice : ¬((after id rotations bothChecked).log.filterMap fun c => replaced c.plan).Nodup := by
    decide +kernel
  exact htwice h.replacedOnce

end Cruxible.CredentialHistories
