import Cruxible.PropertyValidation

/-!
# Validation and application of graph writes

The two chokepoints that every write shares. Validation is pure and reads the
graph; application checks the write policy, the terminal-lifecycle refusal and
the pending-edge refusal, and then runs one mutator. Everything a caller cannot
compute (the clock, the minted claim id) is an argument.
-/
namespace Cruxible.GraphOperations
open JsonValue PythonDict AssertionState AppendOnly Fallible Cruxible.Graph PropertyValidation

/-- The types that an upstream release owns. -/
structure UpstreamMetadata where
  ownedEntityTypes : List String := []
  ownedRelationshipTypes : List String := []
  deriving DecidableEq, Repr

/-- What the process supplies to every write: the runtime, the loaded
configuration, the value of `CRUXIBLE_REFUSE_DIRECT_WRITES`, and the upstream
metadata of an overlay. -/
structure WriteContext where
  rt : TextRuntime
  config : CoreConfig
  refuseDirectWritesEnv : Option String := none
  upstream : Option UpstreamMetadata := none

def governedSources : List String :=
  ["workflow_apply", "group_resolve", "lifecycle_supersede", "lifecycle_retract"]

def tokenMintSource : String := "token_mint"

def isGovernedSource (source : String) : Bool := source ∈ governedSources

/-- `_is_truthy`. -/
def isTruthy (value : Option String) : Bool :=
  (strip (value.getD "")).toLower ∈ ["1", "true", "yes", "on"]

def envRefusesDirectWrites (w : WriteContext) : Bool := isTruthy w.refuseDirectWritesEnv

/-- `_resolve`: `mint_only` is absolute, then the kill switch, then the type's
own policy, then the default. -/
def resolvePolicy (w : WriteContext) (explicit : Option WritePolicy) : WritePolicy :=
  if explicit = some .mintOnly then .mintOnly
  else if envRefusesDirectWrites w then .proposalOnly
  else explicit.getD w.config.defaultWritePolicy

def effectiveEntityWritePolicy (w : WriteContext) (entityType : String) : WritePolicy :=
  resolvePolicy w ((w.config.entityTypes.get? entityType).bind EntityTypeSchema.writePolicy)

def effectiveRelationshipWritePolicy (w : WriteContext) (relationshipType : String) : WritePolicy :=
  resolvePolicy w ((w.config.getRelationship relationshipType).bind RelationshipSchema.writePolicy)

/-- `refuse_governed_source_at_direct_write_entry`. -/
def refuseGovernedSourceAtDirectWriteEntry (source entryPoint : String) : Except CoreError Unit :=
  if isGovernedSource source then .error (.governedSourceSpoofRefused source entryPoint)
  else .ok ()

/-- `check_upstream_type_ownership`. -/
def checkUpstreamTypeOwnership (w : WriteContext) (entityTypes relationshipTypes : List String) :
    Except CoreError Unit :=
  match w.upstream with
  | none => .ok ()
  | some upstream =>
      let blocked (types owned : List String) : List String :=
        (types.dedup.filter (· ∈ owned)).insertionSort (· ≤ ·)
      let entities := blocked entityTypes upstream.ownedEntityTypes
      let relationships := blocked relationshipTypes upstream.ownedRelationshipTypes
      if entities ≠ [] then
        .error (.ownership ("Overlay instances cannot mutate upstream-owned entity types: " ++
          ", ".intercalate entities) entities)
      else if relationships ≠ [] then
        .error (.ownership ("Overlay instances cannot mutate upstream-owned relationship types: " ++
          ", ".intercalate relationships) relationships)
      else .ok ()

structure ValidatedEntity where
  entity : EntityInstance
  isUpdate : Bool

structure ValidatedRelationship where
  relationship : RelationshipInstance
  isUpdate : Bool

/-- `validate_entity`. -/
def validateEntity (w : WriteContext) (g : EntityGraph) (entityType entityId : String)
    (properties : Properties) (metadata : EntityMetadata) : Except CoreError ValidatedEntity :=
  match w.config.entityTypes.get? entityType with
  | none => .error (.dataValidation ("type '" ++ entityType ++ "' not found in config") [])
  | some schema =>
      if blank entityId then .error (.dataValidation "entity_id must not be empty" [])
      else
        let isUpdate := g.hasEntity entityType entityId
        match validatePropertyPayload w.rt w.config schema.properties properties (!isUpdate)
            schema.getPrimaryKey (some entityId) with
        | .error e => .error e
        | .ok result =>
            if result.errors = [] then
              .ok { entity := { entityType := entityType, entityId := entityId,
                                properties := result.properties, metadata := metadata },
                    isUpdate := isUpdate }
            else .error (.dataValidation ("Entity '" ++ entityType ++ ":" ++ entityId ++
              "' property validation failed") result.errors)

/-- `validate_relationship`: the payload is laid over the first stored match
before it is validated, so the result replaces the edge's properties whole. -/
def validateRelationship (w : WriteContext) (g : EntityGraph)
    (fromType fromId relationship toType toId : String) (properties : Properties)
    (missingEndpointHint : Option String) : Except CoreError ValidatedRelationship :=
  let suffix := match missingEndpointHint with
    | some hint => "; " ++ hint
    | none => ""
  match w.config.getRelationship relationship with
  | none => .error (.dataValidation ("relationship '" ++ relationship ++ "' not found in config") [])
  | some schema =>
      if fromType ≠ schema.fromEntity then
        .error (.dataValidation ("from_type '" ++ fromType ++ "' does not match relationship '" ++
          relationship ++ "' which expects '" ++ schema.fromEntity ++ "'") [])
      else if toType ≠ schema.toEntity then
        .error (.dataValidation ("to_type '" ++ toType ++ "' does not match relationship '" ++
          relationship ++ "' which expects '" ++ schema.toEntity ++ "'") [])
      else if g.hasEntity fromType fromId = false then
        .error (.dataValidation ("entity " ++ fromType ++ ":" ++ fromId ++ " not found" ++ suffix) [])
      else if g.hasEntity toType toId = false then
        .error (.dataValidation ("entity " ++ toType ++ ":" ++ toId ++ " not found" ++ suffix) [])
      else
        let existing := g.getRelationship fromType fromId toType toId relationship
        let stored := match existing with
          | some r => r.properties
          | none => ∅
        match validatePropertyPayload w.rt w.config schema.properties (stored.update properties)
            true none none with
        | .error e => .error e
        | .ok result =>
            if result.errors = [] then
              .ok { relationship := { relationshipType := relationship, fromType := fromType,
                                      fromId := fromId, toType := toType, toId := toId,
                                      properties := result.properties },
                    isUpdate := existing.isSome }
            else .error (.dataValidation ("Relationship '" ++ relationship ++
              "' property validation failed") result.errors)

structure EntityIdentityWarning where
  entityType : String
  entityId : String
  similarEntityId : String
  matchedProperties : List String
  deriving DecidableEq, Repr

/-- `entity_properties_with_identity`. -/
def entityPropertiesWithIdentity (w : WriteContext) (entityType entityId : String)
    (properties : Properties) : Properties :=
  match (w.config.entityTypes.get? entityType).bind EntityTypeSchema.getPrimaryKey with
  | some pk => if properties.contains pk then properties else properties.set pk (.str entityId)
  | none => properties

/-- `_identity_key`: no key unless every property is a string and some
normalized value is nonempty. -/
def identityKey (w : WriteContext) (properties : Properties) (names : List String) :
    Option (List String) := do
  let values ← names.mapM (fun name =>
    match properties.get? name with
    | some (.str s) => some (w.rt.normalizeIdentityValue s)
    | _ => none)
  if values.any (· ≠ "") then some values else none

/-- `_candidate_properties`. -/
def candidateProperties (w : WriteContext) (g : EntityGraph) (e : EntityInstance)
    (isUpdate : Bool) : Properties :=
  let stored : Properties := match isUpdate, g.getEntity e.entityType e.entityId with
    | true, some d => d.properties
    | _, _ => ∅
  entityPropertiesWithIdentity w e.entityType e.entityId (stored.update e.properties)

/-- `_update_changes_unique_key`. -/
def updateChangesUniqueKey (w : WriteContext) (g : EntityGraph) (e : EntityInstance)
    (names : List String) : Bool :=
  match g.getEntity e.entityType e.entityId with
  | none => true
  | some d =>
      identityKey w (entityPropertiesWithIdentity w e.entityType e.entityId d.properties) names ≠
        identityKey w (candidateProperties w g e true) names

/-- `_matching_existing_entity`: the first other entity of the type, in the
order of entity ids, with the candidate's key. -/
def matchingExistingEntity (w : WriteContext) (g : EntityGraph) (e : EntityInstance)
    (names : List String) (isUpdate : Bool) : Option EntityInstance :=
  match identityKey w (candidateProperties w g e isUpdate) names with
  | none => none
  | some key =>
      let ofType := (g.nodes.entries.map Prod.snd).filter (fun d => d.entityType = e.entityType)
      (ofType.insertionSort (fun a b => a.entityId ≤ b.entityId)).find? (fun d =>
        d.entityId ≠ e.entityId ∧
        identityKey w (entityPropertiesWithIdentity w d.entityType d.entityId d.properties) names =
          some key)

/-- `check_declared_entity_identity`. -/
def checkDeclaredEntityIdentity (w : WriteContext) (g : EntityGraph) (e : EntityInstance)
    (isUpdate : Bool) : Except CoreError (Option EntityIdentityWarning) :=
  match w.config.entityTypes.get? e.entityType with
  | none => .error (.keyError e.entityType)
  | some schema =>
      let badPattern := match schema.idPattern with
        | some pattern => if w.rt.fullmatch pattern e.entityId then none else some pattern
        | none => none
      match badPattern with
      | some pattern => .error (.dataValidation ("Entity id '" ++ e.entityId ++ "' for type '" ++
          e.entityType ++ "' does not match id_pattern '" ++ pattern ++ "'") [])
      | none =>
          let clash := match schema.uniqueBy with
            | some names =>
                if names ≠ [] ∧ (isUpdate = false ∨ updateChangesUniqueKey w g e names = true) then
                  matchingExistingEntity w g e names isUpdate
                else none
            | none => none
          match clash with
          | some d => .error (.dataValidation ("Entity '" ++ e.entityType ++ ":" ++ e.entityId ++
              "' violates unique_by [" ++ ", ".intercalate (schema.uniqueBy.getD []) ++
              "]: normalized identity matches existing entity_id '" ++ d.entityId ++
              "'; reuse that entity_id or change the declared identity properties") [])
          | none =>
              match isUpdate, schema.identityHint with
              | false, some names =>
                  .ok ((matchingExistingEntity w g e names false).map fun d =>
                    { entityType := e.entityType, entityId := e.entityId,
                      similarEntityId := d.entityId, matchedProperties := names })
              | _, _ => .ok none

/-- `_refuse_terminal_lifecycle_write`. -/
def refuseTerminalLifecycleWrite (status : Option String) (kind : String) (terminal : List String)
    (writable : String) (trusted : Bool) : Except CoreError Unit :=
  match status with
  | none => .ok ()
  | some s =>
      if trusted then .ok ()
      else if s ∈ terminal then .error (.terminalLifecycleWriteRefused kind s writable)
      else .ok ()

/-- The message of the retired-identity refusal in `apply_entity`. -/
def retiredEntityMessage (entityType entityId : String) : String :=
  "Entity " ++ entityType ++ ":" ++ entityId ++ " is retired: a direct add/update would " ++
    "re-occupy a settled identity with none of its history. Retirement is reversed by the " ++
    "deferred reinstate adjudication, which no verb performs in this release; 'cruxible entity " ++
    "supersede' links a live predecessor to a successor and does not apply to an " ++
    "already-retired one."

/-- A direct write may not re-occupy a retired identity. -/
def refuseRetiredEntityWrite (g : EntityGraph) (v : ValidatedEntity) (source : String)
    (trusted : Bool) : Except CoreError Unit :=
  match g.getEntity v.entity.entityType v.entity.entityId with
  | none => .ok ()
  | some existing =>
      if v.isUpdate = true ∧ existing.metadata.lifecycleStatus = .retired ∧ trusted = false ∧
          isGovernedSource source = false ∧ source ≠ tokenMintSource then
        .error (.dataValidation (retiredEntityMessage v.entity.entityType v.entity.entityId) [])
      else .ok ()

/-- The write-policy refusals of `apply_entity`. -/
def refuseEntityPolicy (w : WriteContext) (entityType source : String) : Except CoreError Unit :=
  let policy := effectiveEntityWritePolicy w entityType
  if policy = .mintOnly ∧ source ≠ tokenMintSource then
    .error (.directWriteRefused "entity" entityType source policy.text)
  else if isGovernedSource source = false ∧ policy = .proposalOnly then
    .error (.directWriteRefused "entity" entityType source policy.text)
  else .ok ()

/-- The mutation that an accepted entity write performs. -/
def writeEntity (g : EntityGraph) (v : ValidatedEntity) : EntityGraph :=
  let e := v.entity
  if v.isUpdate then
    (g.updateEntityProperties e.entityType e.entityId e.properties).updateEntityMetadata
      e.entityType e.entityId e.metadata
  else g.addEntity e

/-- `apply_entity`. -/
def applyEntity (w : WriteContext) (g : EntityGraph) (v : ValidatedEntity) (source : String)
    (trusted : Bool) : Except CoreError (EntityGraph × Option EntityIdentityWarning) := do
  refuseEntityPolicy w v.entity.entityType source
  refuseRetiredEntityWrite g v source trusted
  refuseTerminalLifecycleWrite (v.entity.metadata.lifecycle.map (fun l => l.status.text))
    "entity" ["retired", "superseded"] "live" trusted
  let warning ← checkDeclaredEntityIdentity w g v.entity v.isUpdate
  return (writeEntity g v, warning)

/-- The arguments of `apply_relationship` beside the graph and the validated
edge, with the clock reading and the id that a mint would return. -/
structure RelationshipWrite where
  source : String
  sourceRef : String
  receiptId : Option String := none
  resolutionId : Option String := none
  actorContext : Option GovernedActorContext := none
  pending : Bool := false
  lifecycle : Option RelationshipLifecycleState := none
  trusted : Bool := false
  now : Timestamp := 0
  mintedClaimId : String := ""

/-- `_initial_assertion` and `_pending_assertion`. -/
def initialAssertion (a : RelationshipWrite) : RelationshipAssertion :=
  if a.pending then
    { review := { status := .pending, source := .agent, updatedAt := some a.now,
                  updatedBy := some "relationship:add_pending", actorContext := a.actorContext } }
  else if a.source = "group_resolve" then
    { review := { status := .approved, source := .group, updatedAt := some a.now,
                  updatedBy := some a.sourceRef, actorContext := a.actorContext } }
  else {}

/-- `_refuse_write_onto_pending_edge`. -/
def refuseWriteOntoPendingEdge (existing : Option RelationshipInstance) (pending : Bool) :
    Except CoreError Unit :=
  match existing with
  | none => .ok ()
  | some r =>
      if pending then .ok ()
      else if r.metadata.assertion.review.status = .pending then
        .error (.pendingEdgeWriteRefused r.relationshipType r.fromType r.fromId r.toType r.toId)
      else .ok ()

/-- The metadata that an update writes over an existing edge: provenance is
stamped, evidence and the lifecycle slice are replaced when supplied. -/
def updatedMetadata (existing incoming : RelationshipMetadata) (a : RelationshipWrite) :
    RelationshipMetadata :=
  { provenance := some (backfillProvenanceOnTouch existing.provenance a.source a.actorContext a.now),
    assertion := { existing.assertion with
      lifecycle := a.lifecycle.getD existing.assertion.lifecycle },
    evidence := incoming.evidence.or existing.evidence }

/-- The metadata that a create writes; the incoming assertion is discarded. -/
def createdMetadata (incoming : RelationshipMetadata) (a : RelationshipWrite) :
    RelationshipMetadata :=
  { provenance := some (makeProvenance a.source a.sourceRef a.receiptId a.resolutionId
      a.actorContext a.now),
    assertion := { initialAssertion a with
      lifecycle := a.lifecycle.getD (initialAssertion a).lifecycle },
    evidence := incoming.evidence }

/-- `_durable_relationship`. -/
def durableRelationship (g : EntityGraph) (r : RelationshipInstance) (edgeKey : Option Nat) :
    Except CoreError RelationshipInstance :=
  match g.getRelationship r.fromType r.fromId r.toType r.toId r.relationshipType
      (edgeKey.or r.edgeKey) with
  | some persisted => .ok persisted
  | none => .error (.value "Applied relationship is not resolvable in the graph")

/-- The policy refusal of `apply_relationship`; staged writes pass. -/
def refuseRelationshipPolicy (w : WriteContext) (relationshipType source : String)
    (pending : Bool) : Except CoreError Unit :=
  let policy := effectiveRelationshipWritePolicy w relationshipType
  if isGovernedSource source = false ∧ pending = false ∧ policy = .proposalOnly then
    .error (.directWriteRefused "relationship" relationshipType source policy.text)
  else .ok ()

/-- The update branch of `apply_relationship`. -/
def updateRelationship (g : EntityGraph) (r : RelationshipInstance) (a : RelationshipWrite) :
    Except CoreError (EntityGraph × RelationshipInstance) := do
  let existing := g.getRelationship r.fromType r.fromId r.toType r.toId r.relationshipType r.edgeKey
  refuseWriteOntoPendingEdge existing a.pending
  let metadata := match existing with
    | some e => updatedMetadata e.metadata r.metadata a
    | none => r.metadata
  let h := g.replaceRelationshipState r.fromType r.fromId r.toType r.toId r.relationshipType
    r.properties metadata r.edgeKey
  let durable ← durableRelationship h r none
  return (h, durable)

/-- The create branch of `apply_relationship`, the one mint site. -/
def createRelationship (g : EntityGraph) (r : RelationshipInstance) (a : RelationshipWrite) :
    Except CoreError (EntityGraph × RelationshipInstance) :=
  let r := { r with metadata := createdMetadata r.metadata a,
                    claimId := some (r.claimId.getD a.mintedClaimId) }
  match g.addRelationship r with
  | .error m => .error (.value m)
  | .ok (h, key) => do
      let durable ← durableRelationship h r (some key)
      return (h, durable)

/-- `apply_relationship`. -/
def applyRelationship (w : WriteContext) (g : EntityGraph) (v : ValidatedRelationship)
    (a : RelationshipWrite) : Except CoreError (EntityGraph × RelationshipInstance) := do
  refuseRelationshipPolicy w v.relationship.relationshipType a.source a.pending
  refuseTerminalLifecycleWrite (a.lifecycle.map (fun l => l.status.text))
    "relationship" ["retracted", "superseded"] "active, inactive" a.trusted
  if v.isUpdate then updateRelationship g v.relationship a
  else createRelationship g v.relationship a

variable {w : WriteContext} {a : RelationshipWrite} {d : RelationshipInstance} {g h : EntityGraph}
  {v : ValidatedRelationship} {r : RelationshipInstance} {m : EntityMetadata} {p : Properties}

theorem validateEntity_ok {t i : String} {v : ValidatedEntity}
    (h : validateEntity w g t i p m = .ok v) :
    v.entity.nodeId = makeNodeId t i ∧ v.entity.metadata = m ∧ v.isUpdate = g.hasEntity t i := by
  unfold validateEntity at h
  split at h
  · cases h
  · split_ifs at h
    simp only at h
    split at h
    · cases h
    · split_ifs at h
      rw [Except.ok.injEq] at h
      subst h
      exact ⟨rfl, rfl, rfl⟩

theorem validateRelationship_ok {ft fi r tt ti : String} {hint : Option String}
    (h : validateRelationship w g ft fi r tt ti p hint = .ok v) :
    v.relationship.identityTuple = (ft, fi, tt, ti, r) ∧ v.relationship.edgeKey = none ∧
      v.relationship.claimId = none ∧
      v.isUpdate = (g.getRelationship ft fi tt ti r).isSome := by
  unfold validateRelationship at h
  simp only at h
  split at h
  · cases h
  · split_ifs at h
    split at h
    · cases h
    · split_ifs at h
      rw [Except.ok.injEq] at h
      subst h
      exact ⟨rfl, rfl, rfl, rfl⟩

/-- A record with a write laid over it. -/
def overwrite (d e : EntityInstance) : EntityInstance :=
  { d with properties := d.properties.update e.properties,
           metadata := d.metadata.merge e.metadata }

theorem writeEntity_update (g : EntityGraph) (v : ValidatedEntity) (h : v.isUpdate = true) :
    writeEntity g v = g.modifyNode v.entity.nodeId (fun d => overwrite d v.entity) := by
  simp only [writeEntity, h, if_true, EntityGraph.updateEntityProperties,
    EntityGraph.updateEntityMetadata, EntityGraph.modifyNode_modifyNode]
  rfl

theorem applyEntity_ok {v : ValidatedEntity} {source : String} {trusted : Bool}
    {warning : Option EntityIdentityWarning}
    (hok : applyEntity w g v source trusted = .ok (h, warning)) :
    h = writeEntity g v ∧ refuseEntityPolicy w v.entity.entityType source = .ok () ∧
      refuseRetiredEntityWrite g v source trusted = .ok () ∧
      refuseTerminalLifecycleWrite (v.entity.metadata.lifecycle.map (fun l => l.status.text))
        "entity" ["retired", "superseded"] "live" trusted = .ok () := by
  unfold applyEntity at hok
  obtain ⟨⟨⟩, hpolicy, hok⟩ := bind_eq_ok.mp hok
  obtain ⟨⟨⟩, hretired, hok⟩ := bind_eq_ok.mp hok
  obtain ⟨⟨⟩, hterminal, hok⟩ := bind_eq_ok.mp hok
  obtain ⟨c, -, hok⟩ := bind_eq_ok.mp hok
  rw [pure_eq_ok] at hok
  exact ⟨(Prod.mk.inj hok).1.symm, hpolicy, hretired, hterminal⟩

theorem refuseTerminal_entity
    (h : refuseTerminalLifecycleWrite (m.lifecycle.map (fun l => l.status.text))
      "entity" ["retired", "superseded"] "live" false = .ok ()) :
    ∀ l, m.lifecycle = some l → l.status = .live := by
  intro l hl
  rw [hl] at h
  cases hs : l.status <;> simp [refuseTerminalLifecycleWrite, hs, EntityLifecycleStatus.text] at h ⊢

theorem refuseTerminal_relationship {lifecycle : Option RelationshipLifecycleState}
    (h : refuseTerminalLifecycleWrite (lifecycle.map (fun l => l.status.text))
      "relationship" ["retracted", "superseded"] "active, inactive" false = .ok ()) :
    ∀ l, lifecycle = some l → l.status.terminal = false := by
  intro l hl
  rw [hl] at h
  cases hs : l.status <;>
    simp [refuseTerminalLifecycleWrite, hs, RelationshipLifecycleStatus.text,
      RelationshipLifecycleStatus.terminal] at h ⊢

/-- The edge that an accepted update leaves in place of the one it found. -/
def updatedEdge (r : RelationshipInstance) (a : RelationshipWrite) (e : EdgeData) : EdgeData :=
  { e with properties := r.properties, metadata := updatedMetadata e.metadata r.metadata a }

/-- The edge that an accepted create appends. -/
def createdEdge (g : EntityGraph) (r : RelationshipInstance) (a : RelationshipWrite) : EdgeData :=
  { fromNode := makeNodeId r.fromType r.fromId, toNode := makeNodeId r.toType r.toId,
    key := g.edgeCounter, relationshipType := r.relationshipType,
    claimId := r.claimId.getD a.mintedClaimId, properties := r.properties,
    metadata := createdMetadata r.metadata a }

theorem updateRelationship_ok (hok : updateRelationship g r a = .ok (h, d)) :
    h = g.modifyEdge r.fromType r.fromId r.toType r.toId r.relationshipType r.edgeKey
      (updatedEdge r a) ∧
    refuseWriteOntoPendingEdge (g.getRelationship r.fromType r.fromId r.toType r.toId
      r.relationshipType r.edgeKey) a.pending = .ok () := by
  unfold updateRelationship at hok
  obtain ⟨⟨⟩, hpending, hok⟩ := bind_eq_ok.mp hok
  obtain ⟨c, -, hok⟩ := bind_eq_ok.mp hok
  rw [pure_eq_ok] at hok
  refine ⟨?_, hpending⟩
  rw [← (Prod.mk.inj hok).1]
  apply EntityGraph.modifyEdge_congr
  intro e he
  simp [EntityGraph.getRelationship, he, updatedEdge]

theorem createRelationship_ok (hok : createRelationship g r a = .ok (h, d)) :
    r.claimId.getD a.mintedClaimId ∉ g.claimIds ∧ blank (r.claimId.getD a.mintedClaimId) = false ∧
    ∃ k, k = (g.ensureNode r.fromType r.fromId).ensureNode r.toType r.toId ∧
      h.nodes = k.nodes ∧ h.edges = k.edges ++ [createdEdge k r a] ∧
      h.edgeCounter = k.edgeCounter + 1 ∧
      h.claimIds = k.claimIds ++ [r.claimId.getD a.mintedClaimId] := by
  unfold createRelationship EntityGraph.addRelationship at hok
  simp only at hok
  split at hok
  · cases hok
  · rename_i h' key hadd
    obtain ⟨c, -, hok⟩ := bind_eq_ok.mp hok
    rw [pure_eq_ok] at hok
    obtain ⟨rfl, -⟩ := Prod.mk.inj hok
    split_ifs at hadd with hb hc
    rw [Except.ok.injEq, Prod.mk.injEq] at hadd
    obtain ⟨rfl, -⟩ := hadd
    exact ⟨hc, by simpa using hb, _, rfl, rfl, rfl, rfl, rfl⟩

section Frames
variable {F : Frame} {g₀ g h : EntityGraph}

theorem evolves_writeEntity (hg : Evolves F g₀ g) (v : ValidatedEntity)
    (hupdate : v.isUpdate = true → ∀ d, g.nodes.get? v.entity.nodeId = some d →
      F.node d (overwrite d v.entity))
    (hcreate : v.isUpdate = false → g₀.nodes.get? v.entity.nodeId = none ∧ F.newNode v.entity) :
    Evolves F g₀ (writeEntity g v) := by
  cases hu : v.isUpdate with
  | true =>
    rw [writeEntity_update g v hu]
    exact hg.trans (Evolves.modifyNode _ _ (fun _ => rfl) (hupdate hu))
  | false =>
    obtain ⟨habsent, hnew⟩ := hcreate hu
    have hw : writeEntity g v = g.addEntity v.entity := by simp [writeEntity, hu]
    rw [hw]
    refine ⟨?_, ?_, hg.edges, hg.index, fun h₀ => (hg.wellFormed h₀).setNode rfl⟩
    · intro n d hd
      have hne : v.entity.nodeId ≠ n := by
        rintro rfl
        rw [habsent] at hd
        cases hd
      obtain ⟨d', hd', hr⟩ := hg.nodes n d hd
      exact ⟨d', by simpa [EntityGraph.addEntity, Dict.get?_set_of_ne _ _ hne] using hd', hr⟩
    · intro n d hn hd
      by_cases he : v.entity.nodeId = n
      · subst he
        simp only [EntityGraph.addEntity, Dict.get?_set_self, Option.some.injEq] at hd
        exact hd ▸ hnew
      · rw [EntityGraph.addEntity, Dict.get?_set_of_ne _ _ he] at hd
        exact hg.newNodes n d hn hd

theorem evolves_ensureNode (hg : Evolves F g₀ g) (t i : String)
    (hstub : F.newNode { entityType := t, entityId := i }) : Evolves F g₀ (g.ensureNode t i) :=
  hg.trans (Evolves.ensureNode t i hstub)

theorem evolves_applyRelationship (hg : Evolves F g₀ g)
    (hok : applyRelationship w g v a = .ok (h, d))
    (hupdate : v.isUpdate = true → ∀ e, g.findRelationshipEdge v.relationship.fromType
      v.relationship.fromId v.relationship.toType v.relationship.toId
      v.relationship.relationshipType v.relationship.edgeKey = some e →
      F.edge e (updatedEdge v.relationship a e))
    (hcreate : v.isUpdate = false → v.relationship.claimId.getD a.mintedClaimId ∉ g.claimIds →
      ∀ k, F.newEdge (createdEdge k v.relationship a))
    (hstub : ∀ t i, F.newNode { entityType := t, entityId := i }) : Evolves F g₀ h := by
  unfold applyRelationship at hok
  obtain ⟨⟨⟩, -, hok⟩ := bind_eq_ok.mp hok
  obtain ⟨⟨⟩, -, hok⟩ := bind_eq_ok.mp hok
  split_ifs at hok with hu
  · rw [(updateRelationship_ok hok).1]
    exact hg.trans (Evolves.modifyEdge _ _ _ _ _ _ _ (fun _ => rfl) (fun _ => rfl) (hupdate hu))
  · obtain ⟨hfresh, -, k, rfl, hn, he, hctr, hc⟩ := createRelationship_ok hok
    have hk := evolves_ensureNode (evolves_ensureNode hg v.relationship.fromType
      v.relationship.fromId (hstub _ _)) v.relationship.toType v.relationship.toId (hstub _ _)
    refine hk.trans ⟨?_, ?_, ?_, ?_, ?_⟩
    · intro n d hd
      exact ⟨d, by rw [hn]; exact hd, F.node_refl d⟩
    · intro n d hd hd'
      rw [hn, hd] at hd'
      cases hd'
    · rw [he]
      apply Grows.append F.edge_refl
      intro e hm
      rw [List.mem_singleton.mp hm]
      exact hcreate (by simpa using hu) hfresh _
    · rw [hc]
      exact List.subset_append_left _ _
    · intro hw
      have happend := hw.appendEdge (e := createdEdge _ v.relationship a) rfl
        (by simpa [createdEdge] using hfresh)
      convert happend using 1
      exact EntityGraph.ext hn he hctr hc

end Frames

theorem applyRelationship_lifecycle (hok : applyRelationship w g v a = .ok (h, d))
    (ht : a.trusted = false) : ∀ l, a.lifecycle = some l → l.status.terminal = false := by
  unfold applyRelationship at hok
  obtain ⟨⟨⟩, -, hok⟩ := bind_eq_ok.mp hok
  obtain ⟨⟨⟩, hterminal, -⟩ := bind_eq_ok.mp hok
  rw [ht] at hterminal
  exact refuseTerminal_relationship hterminal

end Cruxible.GraphOperations
