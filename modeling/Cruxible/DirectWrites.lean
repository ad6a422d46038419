import Cruxible.GroupDrift

/-!
# Direct writes of entities and relationships

The three free-write entries: adding entities, adding relationships, and the
combined batch. Each validates its members one by one, collects the validation
refusals, evaluates the mutation guards, and applies the members in order; any
other refusal aborts the call. The functions below give the graph and the rows
that an accepted call persists, as a function of the graph it loaded. Guards are
arbitrary evaluators of the proposed write: nothing below depends on what they
decide.
-/
namespace Cruxible.DirectWrites
open JsonValue PythonDict AssertionState AppendOnly Fallible Cruxible.Graph PropertyValidation
open GraphOperations GroupDrift

/-- Mutation guards, as the messages that they raise against a write. -/
structure Guards where
  entity : EntityGraph → EntityGraph → List ValidatedEntity → List String
  relationship : EntityGraph → List ValidatedRelationship → List String

/-- The per-call inputs that the service supplies: actor, receipt and clock. -/
structure Call where
  actorContext : Option GovernedActorContext := none
  receiptId : Option String := none
  now : Timestamp := 0

/-- The accumulators of the entity loop. -/
structure EntityBatch where
  graph : EntityGraph
  seen : List (String × String) := []
  validated : List ValidatedEntity := []
  errors : List String := []

/-- One member: `reference` is the graph that validation reads, which is the
loaded graph for `add_entities` and the working copy for a batch. -/
def addEntityMember (w : WriteContext) (source : String) (reference : EntityBatch → EntityGraph)
    (b : EntityBatch) (member : Nat × EntityInstance) : Except CoreError EntityBatch :=
  let (i, e) := member
  let key := (e.entityType, e.entityId)
  let label := "Entity " ++ toString i ++ ": "
  if key ∈ b.seen then
    .ok { b with errors := b.errors ++
      [label ++ "duplicate in batch " ++ e.entityType ++ ":" ++ e.entityId] }
  else
    match validateEntity w (reference b) e.entityType e.entityId e.properties e.metadata with
    | .error (.dataValidation m _) => .ok { b with errors := b.errors ++ [label ++ m] }
    | .error other => .error other
    | .ok v =>
        match applyEntity w b.graph v source false with
        | .error (.dataValidation m _) => .ok { b with errors := b.errors ++ [label ++ m] }
        | .error other => .error other
        | .ok (h, _) => .ok { graph := h, seen := key :: b.seen,
                              validated := b.validated ++ [v], errors := b.errors }

/-- Refuse a batch whose members failed validation. -/
def requireNoErrors (kind : String) (errors : List String) : Except CoreError Unit :=
  if errors = [] then .ok ()
  else .error (.dataValidation (kind ++ " validation failed with " ++ toString errors.length ++
    " error(s)") errors)

theorem requireNoErrors_ok {kind : String} {errors : List String} {u : Unit}
    (h : requireNoErrors kind errors = .ok u) : errors = [] := by
  unfold requireNoErrors at h
  split_ifs at h with he
  exact he

/-- `service_add_entities`, up to the persisted rows. -/
def serviceAddEntities (w : WriteContext) (guards : Guards) (g : EntityGraph)
    (entities : List EntityInstance) : Except CoreError EntityBatch := do
  checkUpstreamTypeOwnership w (entities.map (·.entityType)) []
  let b ← (entities.zipIdx 1).foldlM
    (fun b p => addEntityMember w "add_entity" (fun _ => g) b (p.2, p.1)) { graph := g }
  requireNoErrors "Entity" b.errors
  requireNoErrors "Mutation guard" (guards.entity g b.graph b.validated)
  return b

/-- One requested relationship write. -/
structure RelationshipRequest where
  edge : RelationshipInstance
  pending : Bool := false
  lifecycle : Option RelationshipLifecycleState := none
  /-- The id that a mint would return for this member. -/
  mintedClaimId : String := ""

structure PreparedRelationship where
  validated : ValidatedRelationship
  request : RelationshipRequest

structure RelationshipBatch where
  seen : List (String × String × String × String × String) := []
  prepared : List PreparedRelationship := []
  errors : List String := []

/-- One member of the validation loop. -/
def prepareRelationshipMember (w : WriteContext) (label hint : String) (g : EntityGraph)
    (b : RelationshipBatch) (member : Nat × RelationshipRequest) :
    Except CoreError RelationshipBatch :=
  let (i, q) := member
  let e := q.edge
  let prefix_ := label ++ " " ++ toString i ++ ": "
  if e.identityTuple ∈ b.seen then
    .ok { b with errors := b.errors ++ [prefix_ ++ "duplicate in batch " ++ e.fromType ++ ":" ++
      e.fromId ++ " -[" ++ e.relationshipType ++ "]-> " ++ e.toType ++ ":" ++ e.toId] }
  else
    match validateRelationship w g e.fromType e.fromId e.relationshipType e.toType e.toId
        e.properties (some hint) with
    | .error (.dataValidation m _) => .ok { b with errors := b.errors ++ [prefix_ ++ m] }
    | .error other => .error other
    | .ok v =>
        let v : ValidatedRelationship :=
          { v with relationship := { v.relationship with metadata := e.metadata } }
        if q.pending = true ∧ v.isUpdate = true then
          .ok { b with errors := b.errors ++
            [prefix_ ++ "pending relationship writes can only create new edges"] }
        else .ok { seen := e.identityTuple :: b.seen,
                   prepared := b.prepared ++ [{ validated := v, request := q }],
                   errors := b.errors }

/-- The drift part of `_detect_direct_write_group_interactions` for one member:
a change of group-approved content is refused where the chokepoint would let a
`proposal_only` write through, and recorded otherwise. -/
def detectContentDrift (w : WriteContext) (source : String) (g : EntityGraph)
    (p : PreparedRelationship) : Except CoreError (Option GroupContentDrift) :=
  let r := p.validated.relationship
  match g.getRelationship r.fromType r.fromId r.toType r.toId r.relationshipType with
  | none => .ok none
  | some existing =>
      match groupContentDrift r existing with
      | none => .ok none
      | some drift =>
          if effectiveRelationshipWritePolicy w r.relationshipType = .proposalOnly then
            if isGovernedSource source = true ∨ p.request.pending = true then
              .error (.groupApprovedContentWriteRefused r.relationshipType drift.groupId
                drift.changedProperties)
            else .ok none
          else .ok (some drift)

/-- The arguments that one member passes to `apply_relationship`. -/
def relationshipWrite (source sourceRef : String) (c : Call) (q : RelationshipRequest) :
    RelationshipWrite :=
  { source := source, sourceRef := sourceRef, receiptId := c.receiptId,
    actorContext := c.actorContext, pending := q.pending, lifecycle := q.lifecycle,
    now := c.now, mintedClaimId := q.mintedClaimId }

/-- The accumulators of the application loop: the working graph and the rows
that the call will persist. -/
structure Applied where
  graph : EntityGraph
  touched : List RelationshipInstance := []

/-- Apply one prepared member, recompute its drift marker and read the row back
under the key that the application returned. -/
def applyPrepared (w : WriteContext) (source sourceRef : String) (c : Call) (s : Applied)
    (m : PreparedRelationship × Option GroupContentDrift) : Except CoreError Applied := do
  let (h, durable) ← applyRelationship w s.graph m.1.validated
    (relationshipWrite source sourceRef c m.1.request)
  let e := m.1.request.edge
  let k := stampGroupApprovalDrift h e m.2 c.receiptId c.actorContext c.now
  let stamped := k.getRelationship e.fromType e.fromId e.toType e.toId e.relationshipType
    durable.edgeKey
  return { graph := k, touched := s.touched ++ [stamped.getD durable] }

/-- Apply the prepared members in order. -/
def applyAllPrepared (w : WriteContext) (source sourceRef : String) (c : Call) (g : EntityGraph)
    (ms : List (PreparedRelationship × Option GroupContentDrift)) : Except CoreError Applied :=
  ms.foldlM (applyPrepared w source sourceRef c) { graph := g }

/-- Validation of a list of relationship requests against one graph. -/
def prepareRelationships (w : WriteContext) (label hint : String) (g : EntityGraph)
    (requests : List RelationshipRequest) : Except CoreError RelationshipBatch :=
  (requests.zipIdx 1).foldlM (fun b p => prepareRelationshipMember w label hint g b (p.2, p.1)) {}

def addRelationshipMissingEndpointHint : String :=
  "create the entity first, or use cruxible_batch_direct_write to write the entity and the " ++
    "relationship in one call"

def batchMissingEndpointHint : String :=
  "create the entity first or include it in the same batch"

/-- `service_add_relationships`, up to the persisted rows. -/
def serviceAddRelationships (w : WriteContext) (guards : Guards) (g : EntityGraph)
    (source sourceRef : String) (requests : List RelationshipRequest) (c : Call) :
    Except CoreError Applied := do
  checkUpstreamTypeOwnership w [] (requests.map (·.edge.relationshipType))
  refuseGovernedSourceAtDirectWriteEntry source "add_relationship"
  let b ← prepareRelationships w "Edge" addRelationshipMissingEndpointHint g requests
  requireNoErrors "Relationship" b.errors
  requireNoErrors "Mutation guard" (guards.relationship g (b.prepared.map (·.validated)))
  let drifts ← b.prepared.mapM (detectContentDrift w source g)
  let _ ← applyAllPrepared w source sourceRef c g (b.prepared.map (·, none))
  applyAllPrepared w source sourceRef c g (b.prepared.zip drifts)

/-- What a call has prepared when it begins to write: the applied entities, and
the relationships with their drift. -/
structure PreparedBatch where
  entities : EntityBatch
  relationships : List (PreparedRelationship × Option GroupContentDrift) := []

/-- `_prepare_batch_direct_write`. The relationships are validated against the
graph that already holds the batch's entities, while content drift is measured
against the loaded graph. -/
def prepareBatchDirectWrite (w : WriteContext) (guards : Guards) (g : EntityGraph)
    (source sourceRef : String) (entities : List EntityInstance)
    (requests : List RelationshipRequest) (c : Call) : Except CoreError PreparedBatch := do
  refuseGovernedSourceAtDirectWriteEntry source "batch_direct_write"
  let eb ← (entities.zipIdx 1).foldlM
    (fun b p => addEntityMember w source EntityBatch.graph b (p.2, p.1)) { graph := g }
  let rb ← prepareRelationships w "Relationship" batchMissingEndpointHint eb.graph requests
  let proposed ← applyAllPrepared w source sourceRef c eb.graph (rb.prepared.map (·, none))
  let guardErrors := guards.entity g proposed.graph eb.validated ++
    guards.relationship g (rb.prepared.map (·.validated))
  let drifts ← rb.prepared.mapM (detectContentDrift w source g)
  requireNoErrors "Batch direct write" (eb.errors ++ rb.errors ++ guardErrors)
  return { entities := eb, relationships := rb.prepared.zip drifts }

/-- `service_batch_direct_write`, up to the persisted rows. -/
def serviceBatchDirectWrite (w : WriteContext) (guards : Guards) (g : EntityGraph)
    (source sourceRef : String) (entities : List EntityInstance)
    (requests : List RelationshipRequest) (c : Call) :
    Except CoreError (EntityBatch × Applied) := do
  checkUpstreamTypeOwnership w (entities.map (·.entityType))
    (requests.map (·.edge.relationshipType))
  let prepared ← prepareBatchDirectWrite w guards g source sourceRef entities requests c
  let applied ← applyAllPrepared w source sourceRef c prepared.entities.graph
    prepared.relationships
  return (prepared.entities, applied)

variable {w : WriteContext} {guards : Guards} {g : EntityGraph} {source sourceRef : String}
  {entities : List EntityInstance} {requests : List RelationshipRequest} {c : Call}

theorem addEntityMember_cases {reference : EntityBatch → EntityGraph} {b b' : EntityBatch}
    {i : Nat} {e : EntityInstance} (hok : addEntityMember w source reference b (i, e) = .ok b') :
    (∃ error, b' = { b with errors := b.errors ++ [error] }) ∨
    (e.entityType, e.entityId) ∉ b.seen ∧ ∃ v h warning,
      validateEntity w (reference b) e.entityType e.entityId e.properties e.metadata = .ok v ∧
      applyEntity w b.graph v source false = .ok (h, warning) ∧
      b' = { graph := h, seen := (e.entityType, e.entityId) :: b.seen
             validated := b.validated ++ [v], errors := b.errors } := by
  unfold addEntityMember at hok
  simp only at hok
  split_ifs at hok with hseen
  · exact .inl ⟨_, (Except.ok.inj hok).symm⟩
  · split at hok
    · exact .inl ⟨_, (Except.ok.inj hok).symm⟩
    · cases hok
    · rename_i v hv
      split at hok
      · exact .inl ⟨_, (Except.ok.inj hok).symm⟩
      · cases hok
      · rename_i h warning happly
        exact .inr ⟨hseen, v, h, warning, hv, happly, (Except.ok.inj hok).symm⟩

theorem prepareRelationshipMember_cases {label hint : String} {b b' : RelationshipBatch} {i : Nat}
    {q : RelationshipRequest} (hok : prepareRelationshipMember w label hint g b (i, q) = .ok b') :
    (∃ error, b' = { b with errors := b.errors ++ [error] }) ∨
    q.edge.identityTuple ∉ b.seen ∧ ∃ v,
      validateRelationship w g q.edge.fromType q.edge.fromId q.edge.relationshipType q.edge.toType
        q.edge.toId q.edge.properties (some hint) = .ok v ∧
      ¬(q.pending = true ∧ v.isUpdate = true) ∧
      b' = { seen := q.edge.identityTuple :: b.seen
             prepared := b.prepared ++ [{ request := q, validated := { v with
               relationship := { v.relationship with metadata := q.edge.metadata } } }]
             errors := b.errors } := by
  unfold prepareRelationshipMember at hok
  simp only at hok
  split_ifs at hok with hseen
  · exact .inl ⟨_, (Except.ok.inj hok).symm⟩
  · split at hok
    · exact .inl ⟨_, (Except.ok.inj hok).symm⟩
    · cases hok
    · rename_i v hv
      split_ifs at hok with hstaged
      · exact .inl ⟨_, (Except.ok.inj hok).symm⟩
      · exact .inr ⟨hseen, v, hv, hstaged, (Except.ok.inj hok).symm⟩

theorem addEntities_accepted {b : EntityBatch}
    (hok : serviceAddEntities w guards g entities = .ok b) :
    (entities.zipIdx 1).foldlM
      (fun b p => addEntityMember w "add_entity" (fun _ => g) b (p.2, p.1)) { graph := g } = .ok b ∧
      b.errors = [] ∧ guards.entity g b.graph b.validated = [] := by
  unfold serviceAddEntities at hok
  have ⟨_, _, hok⟩ := bind_eq_ok.mp hok
  have ⟨b', hfold, hok⟩ := bind_eq_ok.mp hok
  have ⟨_, herrors, hok⟩ := bind_eq_ok.mp hok
  have ⟨_, hguards, hok⟩ := bind_eq_ok.mp hok
  obtain rfl := pure_eq_ok.mp hok
  exact ⟨hfold, requireNoErrors_ok herrors, requireNoErrors_ok hguards⟩

theorem addRelationships_accepted {t : Applied}
    (hok : serviceAddRelationships w guards g source sourceRef requests c = .ok t) :
    refuseGovernedSourceAtDirectWriteEntry source "add_relationship" = .ok () ∧ ∃ b drifts,
      prepareRelationships w "Edge" addRelationshipMissingEndpointHint g requests = .ok b ∧
      b.errors = [] ∧ b.prepared.mapM (detectContentDrift w source g) = .ok drifts ∧
      applyAllPrepared w source sourceRef c g (b.prepared.zip drifts) = .ok t := by
  unfold serviceAddRelationships at hok
  have ⟨_, _, hok⟩ := bind_eq_ok.mp hok
  have ⟨_, hsource, hok⟩ := bind_eq_ok.mp hok
  have ⟨b, hb, hok⟩ := bind_eq_ok.mp hok
  have ⟨_, herrors, hok⟩ := bind_eq_ok.mp hok
  have ⟨_, _, hok⟩ := bind_eq_ok.mp hok
  have ⟨drifts, hdrifts, hok⟩ := bind_eq_ok.mp hok
  have ⟨_, _, hok⟩ := bind_eq_ok.mp hok
  exact ⟨hsource, b, drifts, hb, requireNoErrors_ok herrors, hdrifts, hok⟩

structure BatchAccepted (w : WriteContext) (guards : Guards) (g : EntityGraph)
    (source sourceRef : String) (entities : List EntityInstance)
    (requests : List RelationshipRequest) (c : Call) (eb : EntityBatch) (rb : RelationshipBatch)
    (proposed : Applied) (drifts : List (Option GroupContentDrift)) : Prop where
  ungoverned : refuseGovernedSourceAtDirectWriteEntry source "batch_direct_write" = .ok ()
  folded : (entities.zipIdx 1).foldlM
    (fun b p => addEntityMember w source EntityBatch.graph b (p.2, p.1)) { graph := g } = .ok eb
  prepared : prepareRelationships w "Relationship" batchMissingEndpointHint eb.graph requests =
    .ok rb
  proposes : applyAllPrepared w source sourceRef c eb.graph (rb.prepared.map (·, none)) =
    .ok proposed
  detected : rb.prepared.mapM (detectContentDrift w source g) = .ok drifts
  entityErrors : eb.errors = []
  relationshipErrors : rb.errors = []
  guarded : guards.entity g proposed.graph eb.validated = []

theorem prepareBatch_accepted {p : PreparedBatch}
    (hok : prepareBatchDirectWrite w guards g source sourceRef entities requests c = .ok p) :
    ∃ rb proposed drifts, p.relationships = rb.prepared.zip drifts ∧
      BatchAccepted w guards g source sourceRef entities requests c p.entities rb proposed
        drifts := by
  unfold prepareBatchDirectWrite at hok
  have ⟨_, hsource, hok⟩ := bind_eq_ok.mp hok
  have ⟨eb, hfold, hok⟩ := bind_eq_ok.mp hok
  have ⟨rb, hrb, hok⟩ := bind_eq_ok.mp hok
  have ⟨proposed, hproposed, hok⟩ := bind_eq_ok.mp hok
  have ⟨drifts, hdrifts, hok⟩ := bind_eq_ok.mp hok
  have ⟨_, hnone, hok⟩ := bind_eq_ok.mp hok
  obtain rfl := pure_eq_ok.mp hok
  have hall := requireNoErrors_ok hnone
  rw [List.append_eq_nil_iff, List.append_eq_nil_iff, List.append_eq_nil_iff] at hall
  have ⟨⟨hentities, hrelationships⟩, hguards, _⟩ := hall
  exact ⟨rb, proposed, drifts, rfl, hsource, hfold, hrb, hproposed, hdrifts, hentities,
    hrelationships, hguards⟩

theorem batch_accepted {eb : EntityBatch} {t : Applied}
    (hok : serviceBatchDirectWrite w guards g source sourceRef entities requests c = .ok (eb, t)) :
    ∃ rb proposed drifts,
      applyAllPrepared w source sourceRef c eb.graph (rb.prepared.zip drifts) = .ok t ∧
      BatchAccepted w guards g source sourceRef entities requests c eb rb proposed drifts := by
  unfold serviceBatchDirectWrite at hok
  have ⟨_, _, hok⟩ := bind_eq_ok.mp hok
  have ⟨p, hp, hok⟩ := bind_eq_ok.mp hok
  have ⟨applied, happlied, hok⟩ := bind_eq_ok.mp hok
  rw [pure_eq_ok] at hok
  have ⟨rb, proposed, drifts, hzip, haccepted⟩ := prepareBatch_accepted hp
  obtain ⟨rfl, rfl⟩ := Prod.mk.inj hok
  exact ⟨rb, proposed, drifts, hzip ▸ happlied, haccepted⟩

end Cruxible.DirectWrites
