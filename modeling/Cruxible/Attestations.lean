import Cruxible.CanonicalJson
import Cruxible.GovernedWrites
import Cruxible.KeyedTable
import Cruxible.Storage

/-!
# Attestation records

An attestation is one immutable observation of one claim. The table of records has
two keys: the minted id of the record, and, for records that carry an idempotency
key, this key together with the claim tuple and the observer. A request first
resolves the claim it observes in the graph as it is now. Then the record that its
key already minted, when there is one, answers the request or refuses it; a request
without such a record attaches to the claim or creates it, and inserts a new record.
-/
namespace Cruxible.Attestations
open JsonValue PythonDict AssertionState Fallible Cruxible.Graph PropertyValidation
open GraphOperations DirectWrites Feedback GovernedWrites Storage KeyedTable

inductive ClaimStateAtRecord where
  | live
  | pending
  | rejected
  | inactive
  | superseded
  | retracted
  deriving DecidableEq, Repr

structure AttestationRecord where
  attestationId : String
  relationshipType : String
  fromType : String
  fromId : String
  toType : String
  toId : String
  edgeKey : Option Nat := none
  claimId : Option String := none
  claimContentDigest : String
  claimStateAtRecord : ClaimStateAtRecord
  stance : AttestationStance
  evidenceRefs : List Value := []
  observedAt : Timestamp
  recordedAt : Timestamp
  actorContext : GovernedActorContext
  note : Option String := none
  idempotencyKey : Option String := none
  receiptId : Option String := none
  deriving DecidableEq

/-- The columns of the partial unique index: the key, the claim tuple in the order
of `identity_tuple`, and the organisation and id of the observer. -/
structure ObservationKey where
  idempotencyKey : String
  claim : String × String × String × String × String
  orgId : String
  actorId : String
  deriving DecidableEq

def AttestationRecord.claimKey (r : AttestationRecord) :
    String × String × String × String × String :=
  (r.fromType, r.fromId, r.toType, r.toId, r.relationshipType)

/-- Rows without an idempotency key are outside the index. -/
def AttestationRecord.observationKey (r : AttestationRecord) : Option ObservationKey :=
  r.idempotencyKey.map fun key =>
    { idempotencyKey := key, claim := r.claimKey, orgId := r.actorContext.orgId,
      actorId := r.actorContext.actorId }

/-- `AttestationStore`: nothing updates or deletes a row. -/
structure AttestationStore where
  table : Table AttestationRecord.attestationId
  indexed : ∀ p ∈ table.rows, ∀ q ∈ table.rows,
    p.observationKey = q.observationKey → p.observationKey ≠ none → p = q

namespace AttestationStore

def empty : AttestationStore := ⟨∅, by intro p hp; cases hp⟩

def rows (store : AttestationStore) : List AttestationRecord := store.table.rows

/-- `find_idempotent_attestation`. -/
def findIdempotentAttestation (store : AttestationStore) (key : ObservationKey) :
    Option AttestationRecord :=
  store.rows.find? fun r => r.observationKey = some key

/-- A row that would repeat the observation key of a stored one. -/
def Occupied (store : AttestationStore) (r : AttestationRecord) : Prop :=
  r.observationKey ≠ none ∧ ∃ p ∈ store.rows, p.observationKey = r.observationKey

instance (store : AttestationStore) (r : AttestationRecord) : Decidable (store.Occupied r) :=
  inferInstanceAs (Decidable (_ ∧ _))

/-- `save_attestation`: a plain insert, under both keys of the table. -/
def saveAttestation (store : AttestationStore) (r : AttestationRecord) :
    Except CoreError AttestationStore :=
  if store.table.get? r.attestationId ≠ none then
    .error (.storageIntegrity "attestations.attestation_id")
  else if hfree : store.Occupied r then .error (.storageIntegrity "idx_attestations_idempotency")
  else .ok {
    table := store.table.put r
    indexed := by
      apply Table.forall_pairs_put (R := fun p q : AttestationRecord =>
        p.observationKey = q.observationKey → p.observationKey ≠ none → p = q)
      · intro _ _
        rfl
      · intro q hq
        constructor
        · intro heq hsome
          exact absurd ⟨hsome, q, hq, heq.symm⟩ hfree
        · intro heq hsome
          exact absurd ⟨heq ▸ hsome, q, hq, heq⟩ hfree
      · exact store.indexed }

variable {r : AttestationRecord} {store : AttestationStore}

theorem saveAttestation_ok {store' : AttestationStore} (h : store.saveAttestation r = .ok store') :
    r ∈ store'.rows ∧ ∀ p ∈ store.rows, p ∈ store'.rows := by
  unfold saveAttestation at h
  split_ifs at h with hid hkey
  rw [← Except.ok.inj h]
  have hid : store.table.get? r.attestationId = none := not_not.mp hid
  constructor
  · exact Table.mem_rows.mpr (Table.get?_put_self _ r)
  · intro p hp
    have hget := Table.get?_of_mem_rows hp
    have hne : r.attestationId ≠ p.attestationId := by
      intro heq
      rw [← heq, hid] at hget
      cases hget
    exact Table.mem_rows.mpr ((Table.get?_put_of_ne _ hne).trans hget)

variable {key : ObservationKey}

theorem find_of_mem (hr : r ∈ store.rows) (hkey : r.observationKey = some key) :
    store.findIdempotentAttestation key = some r := by
  unfold findIdempotentAttestation
  cases hfind : store.rows.find? fun r => r.observationKey = some key with
  | none =>
    have hnone := List.find?_eq_none.mp hfind r hr
    exact absurd hkey (by simpa using hnone)
  | some p =>
    have hp : p.observationKey = some key := by simpa using List.find?_some hfind
    have hmem : p ∈ store.rows := List.mem_of_find?_eq_some hfind
    have hsome : p.observationKey ≠ none := by simp [hp]
    exact congrArg some (store.indexed p hmem r hr (hp.trans hkey.symm) hsome)

theorem mem_of_find (h : store.findIdempotentAttestation key = some r) :
    r ∈ store.rows ∧ r.observationKey = some key :=
  ⟨List.mem_of_find?_eq_some h, by simpa using List.find?_some h⟩

end AttestationStore

/-- The arguments of `service_attest`; the target holds the claim tuple and the
two disambiguators, and the evidence the payloads of its normalized refs. -/
structure AttestRequest where
  target : RelationshipInstance
  stance : AttestationStance
  evidenceRefs : List Value := []
  observedAt : Timestamp
  actorContext : Option GovernedActorContext
  properties : Option Properties := none
  note : Option String := none
  idempotencyKey : Option String := none

/-- What a call brings besides the request: the configuration, the clock, the ids
it mints, and the hash behind the content digest. -/
structure AttestCall where
  w : WriteContext
  now : Timestamp
  receiptId : String
  attestationId : String
  mintedClaimId : String
  hash : Value → String

/-- The part of an instance that attesting reads and writes. Of the procedure
evidence it reads only which artifacts exceed the size cap. -/
structure Instance where
  graph : EntityGraph
  attestations : AttestationStore
  oversized : List String := []

structure AttestationRecordResult where
  attestation : AttestationRecord
  createdClaim : Bool := false
  idempotentReplay : Bool := false
  warnings : List String := []
  receiptId : Option String := none
  deriving DecidableEq

/-- `_require_actor`. -/
def requireActor (actorContext : Option GovernedActorContext) (role : String) :
    Except CoreError GovernedActorContext :=
  match actorContext with
  | some actor => .ok actor
  | none => .error (.config ("attestation " ++ role ++ " actor context is required"))

/-- The artifact that a procedure ref cites. -/
def citedArtifact : Value → Option String
  | .object ref =>
      match ref.lookup "source", ref.lookup "artifact_id" with
      | some (.str "procedure_run"), some (.str artifactId) => some artifactId
      | _, _ => none
  | _ => none

/-- `_refuse_oversized_procedure_evidence`. -/
def refuseOversizedProcedureEvidence (oversized : List String) (refs : List Value) :
    Except CoreError Unit :=
  match (refs.filterMap citedArtifact).find? (· ∈ oversized) with
  | none => .ok ()
  | some artifactId => .error (.config ("procedure evidence artifact '" ++ artifactId ++
      "' exceeds the size cap and cannot be used for attestation"))

/-- The checks that every request passes before its key is looked up, and the
claim that it observes, when there is one. -/
def resolveRequest (s : Instance) (now : Timestamp) (q : AttestRequest) :
    Except CoreError (GovernedActorContext × Option RelationshipInstance) := do
  let actor ← requireActor q.actorContext "observer"
  refuseIf (q.stance ≠ .unsure ∧ q.evidenceRefs = [])
    (.config ("attestation stance '" ++ q.stance.text ++ "' requires at least one evidence ref"))
  refuseIf (now < q.observedAt) (.config "attestation observed_at must be <= recorded_at")
  refuseOversizedProcedureEvidence s.oversized q.evidenceRefs
  let relationship ← resolveClaimTarget s.graph q.target
  return (actor, relationship)

def AttestRequest.observationKey (q : AttestRequest) (actor : GovernedActorContext) :
    Option ObservationKey :=
  q.idempotencyKey.map fun key =>
    { idempotencyKey := key, claim := q.target.identityTuple, orgId := actor.orgId,
      actorId := actor.actorId }

/-- The claim ids are compared when both sides have one. -/
def claimDivergence (original resolved : Option String) : List String :=
  match original, resolved with
  | some c, some d =>
      if c ≠ d then ["claim target (original '" ++ c ++ "', request '" ++ d ++ "')"] else []
  | _, _ => []

/-- `_replay_divergences`. The edge key is compared when the caller gave one. -/
def replayDivergences (original : AttestationRecord) (q : AttestRequest)
    (relationship : Option RelationshipInstance) : List String :=
  (if original.stance ≠ q.stance then
    ["stance (original '" ++ original.stance.text ++ "', request '" ++ q.stance.text ++ "')"]
    else []) ++
  (if Value.pyEqItems original.evidenceRefs q.evidenceRefs = false then ["evidence_refs"]
    else []) ++
  (if original.observedAt ≠ q.observedAt then ["observed_at"] else []) ++
  (if original.note ≠ q.note then ["note"] else []) ++
  claimDivergence original.claimId (relationship.bind RelationshipInstance.claimId) ++
  (if q.target.edgeKey ≠ none ∧ original.edgeKey ≠ q.target.edgeKey then ["edge_key"] else [])

/-- The answer to a request whose observation key has a record. -/
def replay (original : AttestationRecord) (q : AttestRequest)
    (relationship : Option RelationshipInstance) : Except CoreError AttestationRecordResult :=
  let divergences := replayDivergences original q relationship
  if divergences ≠ [] then
    .error (.config ("idempotency key replay diverges from the original attestation on " ++
      ", ".intercalate divergences ++ "; a reused key must carry an identical request"))
  else .ok { attestation := original, idempotentReplay := true, receiptId := original.receiptId }

/-- `_resolve_claim`. -/
def resolveClaim (g : EntityGraph) (t : RelationshipInstance) : Option RelationshipInstance :=
  g.getRelationship t.fromType t.fromId t.toType t.toId t.relationshipType

/-- The claim that an observation attaches to. -/
structure ObservedClaim where
  graph : EntityGraph
  relationship : RelationshipInstance
  created : Bool := false
  warnings : List String := []

/-- The branch of an absent claim: a support creates it as a pending edge and
persists its row. The tuple has no edge before a create, so the first one after it
is the edge that was created. -/
def createObservedClaim (call : AttestCall) (s : Instance) (q : AttestRequest)
    (actor : GovernedActorContext) : Except CoreError ObservedClaim :=
  let observation : Observation :=
    { target := q.target, stance := q.stance, evidenceRefs := q.evidenceRefs,
      properties := q.properties.getD ∅, mintedClaimId := call.mintedClaimId }
  let write : Call :=
    { actorContext := some actor, receiptId := some call.receiptId, now := call.now }
  match createPendingClaim call.w s.graph observation write with
  | .error (.dataValidation message _) =>
      match resolveClaim s.graph q.target with
      | none => .error (.config ("cannot create pending claim for attestation: " ++ message))
      | some raced =>
          .ok { graph := s.graph, relationship := raced, warnings :=
            ["pending claim appeared during create; attached to existing claim"] }
  | .error e => .error e
  | .ok (h, created) =>
      match resolveClaim h q.target with
      | none => .error (.config ("cannot create pending claim for attestation: " ++
          "claim tuple appeared but could not be resolved"))
      | some relationship => do
          if created then
            let graph ← upsertRelationships s.graph [relationship]
            return { graph := graph, relationship := relationship, created := true }
          else return { graph := s.graph, relationship := relationship }

def observeClaim (call : AttestCall) (s : Instance) (q : AttestRequest)
    (actor : GovernedActorContext) (relationship : Option RelationshipInstance) :
    Except CoreError ObservedClaim :=
  match relationship with
  | some r => .ok { graph := s.graph, relationship := r }
  | none =>
      if q.stance = .support then createObservedClaim call s q actor
      else .error (.config ("cannot record stance '" ++ q.stance.text ++
        "' for an absent claim; only support may create a pending claim"))

/-- `_claim_state`. -/
def claimState (r : RelationshipInstance) (now : Timestamp) : ClaimStateAtRecord :=
  let a := r.metadata.assertion
  if relationshipIsLive a now then .live
  else match a.lifecycle.status with
    | .superseded => .superseded
    | .retracted => .retracted
    | .inactive => .inactive
    | .active =>
        match a.review.status with
        | .pending => .pending
        | .rejected => .rejected
        | _ => if relationshipLifecycleIsActive a now then .live else .inactive

/-- `compute_claim_content_digest`: the serializer refuses non-finite numbers. -/
def computeClaimContentDigest (hash : Value → String) (r : RelationshipInstance) :
    Except CoreError String :=
  if storable r.properties then
    .ok ("sha256:" ++ hash (Value.canonical (.object
      [("relationship_type", .str r.relationshipType), ("from_type", .str r.fromType),
       ("from_id", .str r.fromId), ("to_type", .str r.toType), ("to_id", .str r.toId),
       ("properties", .object r.properties.entries)])))
  else .error (.value "Out of range float values are not JSON compliant")

/-- The constructor of `AttestationRecord`: the stamps come from the resolved claim,
and the edge key from the caller when it gave one. -/
def attestationRecord (call : AttestCall) (q : AttestRequest) (actor : GovernedActorContext)
    (r : RelationshipInstance) : Except CoreError AttestationRecord := do
  let digest ← computeClaimContentDigest call.hash r
  refuseIf (∃ coordinate ∈ [r.relationshipType, r.fromType, r.fromId, r.toType, r.toId],
      blank coordinate = true)
    (.value "attestation claim coordinates and digest must be non-empty")
  refuseIf (q.idempotencyKey.any blank = true)
    (.value "idempotency_key must be non-empty when provided")
  return { attestationId := call.attestationId, relationshipType := r.relationshipType,
           fromType := r.fromType, fromId := r.fromId, toType := r.toType, toId := r.toId,
           edgeKey := q.target.edgeKey.or r.edgeKey, claimId := r.claimId,
           claimContentDigest := digest, claimStateAtRecord := claimState r call.now,
           stance := q.stance, evidenceRefs := q.evidenceRefs, observedAt := q.observedAt,
           recordedAt := call.now, actorContext := actor, note := q.note,
           idempotencyKey := q.idempotencyKey, receiptId := some call.receiptId }

/-- The rest of `service_attest` when its key has no record yet. -/
def recordObservation (call : AttestCall) (s : Instance) (q : AttestRequest)
    (actor : GovernedActorContext) (relationship : Option RelationshipInstance) :
    Except CoreError (Instance × AttestationRecordResult) := do
  let observed ← observeClaim call s q actor relationship
  let ignored := if q.properties.isSome ∧ observed.created = false then
    ["properties ignored because the claim tuple already exists"] else []
  let record ← attestationRecord call q actor observed.relationship
  let attestations ← s.attestations.saveAttestation record
  return ({ s with
    graph := observed.graph
    attestations := attestations },
    { attestation := record, createdClaim := observed.created,
      warnings := observed.warnings ++ ignored, receiptId := some call.receiptId })

/-- `service_attest`. An error rolls the whole transaction back. -/
def serviceAttest (call : AttestCall) (s : Instance) (q : AttestRequest) :
    Except CoreError (Instance × AttestationRecordResult) := do
  let (actor, relationship) ← resolveRequest s call.now q
  match (q.observationKey actor).bind s.attestations.findIdempotentAttestation with
  | some original =>
      let result ← replay original q relationship
      return (s, result)
  | none => recordObservation call s q actor relationship

end Cruxible.Attestations
