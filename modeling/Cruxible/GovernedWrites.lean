import Cruxible.Feedback

/-!
# Attestations and group approvals

Two governed writers of the graph. A supporting observation of an absent claim
creates one pending edge and an observation of a present claim writes nothing.
Approving a group creates the edges of the members whose tuple is free, leaves
the occupied tuples alone, and on request relabels the surviving edges as
blessed by the group.
-/
namespace Cruxible.GovernedWrites
open JsonValue PythonDict AssertionState AppendOnly Fallible Cruxible.Graph PropertyValidation
open GraphOperations GroupDrift DirectWrites Feedback

inductive AttestationStance where
  | support
  | contradict
  | unsure
  deriving DecidableEq, Repr

def AttestationStance.text : AttestationStance → String
  | .support => "support"
  | .contradict => "contradict"
  | .unsure => "unsure"

def attestationMissingEndpointHint : String :=
  "create the entity first (cruxible_add_entity or cruxible_batch_direct_write), " ++
    "then attest to the claim"

/-- What an observation supplies. The target holds the claim key and the two
optional disambiguators. -/
structure Observation where
  target : RelationshipInstance
  stance : AttestationStance
  evidenceRefs : List Value := []
  properties : Properties := ∅
  mintedClaimId : String := ""

/-- `_create_pending_claim`: `false` means that an existing claim was attached. -/
def createPendingClaim (w : WriteContext) (g : EntityGraph) (o : Observation) (c : Call) :
    Except CoreError (EntityGraph × Bool) := do
  let t := o.target
  let v ← validateRelationship w g t.fromType t.fromId t.relationshipType t.toType t.toId
    o.properties (some attestationMissingEndpointHint)
  if v.isUpdate then return (g, false)
  else
    let v := { v with relationship := { v.relationship with
      metadata := { evidence := some { evidenceRefs := o.evidenceRefs } } } }
    let (h, _) ← applyRelationship w g v
      { source := "attestation", sourceRef := "support_observation", receiptId := c.receiptId,
        actorContext := c.actorContext, pending := true, now := c.now,
        mintedClaimId := o.mintedClaimId }
    return (h, true)

/-- `service_attest`, up to the persisted graph. -/
def serviceAttest (w : WriteContext) (g : EntityGraph) (o : Observation) (c : Call) :
    Except CoreError EntityGraph := do
  match ← resolveClaimTarget g o.target with
  | some _ => return g
  | none =>
      if o.stance = .support then
        let (h, _) ← createPendingClaim w g o c
        return h
      else throw (.dataValidation ("cannot record stance '" ++ o.stance.text ++
        "' for an absent claim; only support may create a pending claim") [])

/-- A group member as the approval reads it: the candidate edge without
governance fields, and the evidence collected from the group and its signals. -/
structure ApprovalMember where
  relationship : RelationshipInstance
  evidence : RelationshipEvidence := {}
  mintedClaimId : String := ""

structure ApprovalValidation where
  validInputs : List (ValidatedRelationship × String) := []
  skippedExisting : List RelationshipInstance := []
  validationErrors : List String := []

/-- One turn of `_validate_approval_members`. -/
def validateApprovalMember (w : WriteContext) (g : EntityGraph) (a : ApprovalValidation)
    (m : ApprovalMember) : Except CoreError ApprovalValidation :=
  let r := m.relationship
  if 0 < g.relationshipCountBetween r.fromType r.fromId r.toType r.toId r.relationshipType then
    .ok { a with skippedExisting := a.skippedExisting ++ [r] }
  else
    match validateRelationship w g r.fromType r.fromId r.relationshipType r.toType r.toId
        r.properties none with
    | .error (.dataValidation m errors) =>
        .ok { a with validationErrors := a.validationErrors ++
          [if errors = [] then m else "; ".intercalate errors] }
    | .error other => .error other
    | .ok v =>
        let v := { v with relationship := { v.relationship with
          metadata := { evidence := some m.evidence } } }
        .ok { a with validInputs := a.validInputs ++ [(v, m.mintedClaimId)] }

def validateApprovalMembers (w : WriteContext) (g : EntityGraph) (members : List ApprovalMember) :
    Except CoreError ApprovalValidation :=
  members.foldlM (validateApprovalMember w g) {}

/-- `_apply_resolved_relationships`. -/
def applyResolvedRelationships (w : WriteContext) (groupId : String)
    (resolutionId : Option String) (c : Call) (g : EntityGraph) (inputs : List (ValidatedRelationship × String)) :
    Except CoreError EntityGraph :=
  inputs.foldlM (fun g p => do
    let (h, _) ← applyRelationship w g p.1
      { source := "group_resolve", sourceRef := "group:" ++ groupId, receiptId := c.receiptId,
        resolutionId := resolutionId, actorContext := c.actorContext, now := c.now,
        mintedClaimId := p.2 }
    return h) g

/-- `_blessed_metadata_for_existing`: the group becomes the origin, the creation
history survives, and a drift marker is dropped. -/
def blessedMetadataForExisting (groupId : String) (resolutionId : Option String) (c : Call)
    (m : RelationshipMetadata) : RelationshipMetadata :=
  let sourceRef := "group:" ++ groupId
  let provenance := match m.provenance with
    | none => makeProvenance "group_resolve" sourceRef c.receiptId resolutionId
        c.actorContext c.now
    | some p => { stampProvenanceModified p "group_resolve" c.actorContext c.now with
        source := some "group_resolve", sourceRef := some sourceRef,
        resolutionId := resolutionId, receiptId := c.receiptId }
  { m with
    provenance := some provenance,
    assertion := { m.assertion with
      review := { status := .approved, source := .group, updatedAt := some c.now,
                  updatedBy := some sourceRef, actorContext := c.actorContext },
      groupApprovalDrift := none } }

/-- One turn of `_stamp_existing_edges`. -/
def stampExistingEdge (groupId : String) (resolutionId : Option String) (c : Call)
    (g : EntityGraph) (r : RelationshipInstance) : EntityGraph :=
  match g.getRelationship r.fromType r.fromId r.toType r.toId r.relationshipType with
  | none => g
  | some existing =>
      g.replaceRelationshipState r.fromType r.fromId r.toType r.toId r.relationshipType
        existing.properties (blessedMetadataForExisting groupId resolutionId c existing.metadata)
        existing.edgeKey

/-- The graph effect of `_approve_group`. -/
def approveGroupEdges (w : WriteContext) (guards : Guards) (g : EntityGraph)
    (relationshipType groupId : String) (resolutionId : Option String)
    (members : List ApprovalMember) (stampExisting : Bool) (c : Call) : Except CoreError EntityGraph := do
  checkUpstreamTypeOwnership w [] [relationshipType]
  let a ← validateApprovalMembers w g members
  requireNoErrors "Mutation guard" (guards.relationship g (a.validInputs.map Prod.fst))
  let h ← applyResolvedRelationships w groupId resolutionId c g a.validInputs
  if stampExisting then
    return a.skippedExisting.foldl (stampExistingEdge groupId resolutionId c) h
  else return h

theorem stampExistingEdge_eq (groupId : String) (resolutionId : Option String) (c : Call)
    (g : EntityGraph) (r : RelationshipInstance) :
    stampExistingEdge groupId resolutionId c g r = g ∨
    stampExistingEdge groupId resolutionId c g r =
      g.modifyEdge r.fromType r.fromId r.toType r.toId r.relationshipType none
        (fun e => { e with
          metadata := blessedMetadataForExisting groupId resolutionId c e.metadata }) := by
  unfold stampExistingEdge
  split
  · exact .inl rfl
  · rename_i existing hx
    right
    obtain ⟨e, he, rfl⟩ := Option.map_eq_some_iff.mp hx
    rw [EntityGraph.replaceRelationshipState, modifyEdge_key he]
    apply EntityGraph.modifyEdge_congr
    intro e' he'
    obtain rfl : e = e' := by
      rw [he] at he'
      exact Option.some.inj he'
    rfl

end Cruxible.GovernedWrites
