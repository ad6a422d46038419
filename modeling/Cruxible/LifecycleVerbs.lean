import Cruxible.GraphOperations

/-!
# Receipted lifecycle verbs

Supersede and retract for claims, supersede and retire for entities. Each verb
loads the graph inside its transaction, checks the actor, the reason and the
eligibility of its subject, and moves one lifecycle slice, or two when a
successor takes the back pointer. The claim verbs look their subjects up by the
trimmed claim id and store the pointers as the caller spelled them.
-/
namespace Cruxible.LifecycleVerbs
open JsonValue PythonDict AssertionState AppendOnly Fallible Cruxible.Graph PropertyValidation
open GraphOperations

/-- What an adjudicator supplies beside the subject; `evidenceValid` is the
verdict of the evidence normalizer on the optional reference. -/
structure Adjudication where
  reason : String
  actorContext : Option GovernedActorContext
  permitted : Bool := true
  evidenceValid : Bool := true
  receiptId : Option String := none
  now : Timestamp := 0

def supersedeSource : String := "lifecycle_supersede"

def retractSource : String := "lifecycle_retract"

/-- `_require_actor`. -/
def requireActor (actor : Option GovernedActorContext) : Except CoreError GovernedActorContext :=
  match actor with
  | some a => .ok a
  | none => .error (.config "lifecycle adjudication actor context is required")

/-- `_require_reason`. -/
def requireReason (reason action : String) : Except CoreError String :=
  if strip reason = "" then
    .error (.config ("lifecycle " ++ action ++ " requires a non-empty reason"))
  else .ok (strip reason)

/-- The checks that open every verb. -/
def openAdjudication (a : Adjudication) (tool action : String) :
    Except CoreError (GovernedActorContext × String) := do
  refuseIf (a.permitted = false) (.permissionDenied tool "GRAPH_WRITE")
  let actor ← requireActor a.actorContext
  let reason ← requireReason a.reason action
  refuseIf (a.evidenceValid = false) (.config "invalid lifecycle evidence_ref")
  return (actor, reason)

/-- `_get_claim`. -/
def getClaim (g : EntityGraph) (claimId role : String) : Except CoreError RelationshipInstance :=
  let normalized := strip claimId
  if normalized = "" then .error (.config (role ++ " claim_id must not be empty"))
  else
    match g.findRelationshipByClaimId normalized with
    | some r => .ok r
    | none => .error (.config (role ++ " claim '" ++ normalized ++ "' not found"))

/-- `_get_entity`. -/
def getSubject (g : EntityGraph) (entityType entityId : String) : Except CoreError EntityInstance :=
  match g.getEntity entityType entityId with
  | some d => .ok d
  | none => .error (.entityNotFound entityType entityId)

/-- `_require_claim_predecessor_eligible`. -/
def requireClaimPredecessorEligible (r : RelationshipInstance) : Except CoreError Unit :=
  let a := r.metadata.assertion
  if a.lifecycle.status ≠ .active ∨ a.review.status = .pending ∨ a.review.status = .rejected then
    .error (.config ("predecessor claim '" ++ r.claimId.getD "" ++ "' is not eligible for " ++
      "lifecycle adjudication; requires lifecycle 'active' and review not pending/rejected, " ++
      "found lifecycle '" ++ a.lifecycle.status.text ++ "' and review '" ++
      a.review.status.text ++ "'"))
  else .ok ()

/-- `_require_entity_predecessor_eligible`. -/
def requireEntityPredecessorEligible (d : EntityInstance) : Except CoreError Unit :=
  if d.metadata.lifecycleStatus ≠ .live then
    .error (.config ("predecessor entity " ++ d.entityType ++ ":" ++ d.entityId ++
      " is not eligible for lifecycle adjudication; requires status 'live', found '" ++
      d.metadata.lifecycleStatus.text ++ "'"))
  else .ok ()

/-- `_pointer_label`; the last case stands for the dump of an unknown pointer kind. -/
def pointerLabel (p : SupersessionPointer) : String :=
  match p.claimId, p.entityType with
  | some c, _ => "claim '" ++ c ++ "'"
  | none, some t => "entity " ++ t ++ ":" ++ p.entityId.getD "None"
  | none, none => "an unknown record"

/-- `_refuse_reused_successor`: a successor records one predecessor. -/
def refuseReusedSuccessor (existing : Option SupersessionPointer)
    (successorLabel predecessorLabel : String) : Except CoreError Unit :=
  match existing with
  | none => .ok ()
  | some p => .error (.config (successorLabel ++ " already supersedes " ++ pointerLabel p ++
      "; a successor can record only one predecessor. Adjudicate the existing supersession " ++
      "before superseding " ++ predecessorLabel ++ " onto it."))

/-- `_apply_claim_lifecycle`: the content is carried verbatim and the edge is
addressed by its key. -/
def applyClaimLifecycle (w : WriteContext) (g : EntityGraph) (r : RelationshipInstance)
    (lifecycle : RelationshipLifecycleState) (source : String) (actor : GovernedActorContext)
    (a : Adjudication) : Except CoreError EntityGraph := do
  let (h, _) ← applyRelationship w g
    { relationship := { r with metadata := {} }, isUpdate := true }
    { source := source, sourceRef := source, receiptId := a.receiptId, actorContext := some actor,
      lifecycle := some lifecycle, trusted := true, now := a.now }
  return h

/-- `_apply_entity_lifecycle`. -/
def applyEntityLifecycle (w : WriteContext) (g : EntityGraph) (d : EntityInstance)
    (lifecycle : EntityLifecycleState) (source : String) (actor : GovernedActorContext) :
    Except CoreError EntityGraph := do
  let v ← validateEntity w g d.entityType d.entityId d.properties
    { d.metadata with lifecycle := some lifecycle, actorContext := some actor }
  let (h, _) ← applyEntity w g v source true
  return h

/-- `service_supersede_claim`. -/
def serviceSupersedeClaim (w : WriteContext) (g : EntityGraph)
    (claimId successorClaimId : String) (a : Adjudication) : Except CoreError EntityGraph := do
  let (actor, reason) ← openAdjudication a "cruxible_supersede_claim" "supersede"
  refuseIf (strip claimId = strip successorClaimId)
    (.config ("claim '" ++ claimId ++ "' cannot supersede itself"))
  let predecessor ← getClaim g claimId "predecessor"
  let successor ← getClaim g successorClaimId "successor"
  requireClaimPredecessorEligible predecessor
  refuseIf (predecessor.relationshipType ≠ successor.relationshipType)
    (.config ("claim supersession requires the same relationship type; predecessor is '" ++
      predecessor.relationshipType ++ "', successor is '" ++ successor.relationshipType ++ "'"))
  refuseIf (relationshipIsLive successor.metadata.assertion a.now = false)
    (.config ("successor claim '" ++ successorClaimId ++ "' must be live; found lifecycle " ++
      "status '" ++ successor.metadata.assertion.lifecycle.status.text ++ "'"))
  refuseReusedSuccessor successor.metadata.assertion.lifecycle.supersedes
    ("claim '" ++ successorClaimId ++ "'") ("claim '" ++ claimId ++ "'")
  let h ← applyClaimLifecycle w g successor
    { successor.metadata.assertion.lifecycle with
      supersedes := some { claimId := some claimId } } supersedeSource actor a
  applyClaimLifecycle w h predecessor
    { predecessor.metadata.assertion.lifecycle with
      status := .superseded, reason := some reason, closedAt := some a.now,
      closedBy := some actor.actorId,
      supersededBy := some { claimId := some successorClaimId } } supersedeSource actor a

/-- `service_retract_claim`. -/
def serviceRetractClaim (w : WriteContext) (g : EntityGraph) (claimId : String)
    (a : Adjudication) : Except CoreError EntityGraph := do
  let (actor, reason) ← openAdjudication a "cruxible_retract_claim" "retract"
  let subject ← getClaim g claimId "subject"
  requireClaimPredecessorEligible subject
  applyClaimLifecycle w g subject
    { subject.metadata.assertion.lifecycle with
      status := .retracted, reason := some reason, closedAt := some a.now,
      closedBy := some actor.actorId } retractSource actor a

/-- The slice of an entity, or the default one. -/
def EntityInstance.lifecycleOrDefault (d : EntityInstance) : EntityLifecycleState :=
  d.metadata.lifecycle.getD { status := .live }

/-- `service_supersede_entity`. -/
def serviceSupersedeEntity (w : WriteContext) (g : EntityGraph)
    (entityType entityId successorEntityType successorEntityId : String) (a : Adjudication) :
    Except CoreError EntityGraph := do
  let (actor, reason) ← openAdjudication a "cruxible_supersede_entity" "supersede"
  refuseIf ((entityType, entityId) = (successorEntityType, successorEntityId))
    (.config ("entity " ++ entityType ++ ":" ++ entityId ++ " cannot supersede itself"))
  let predecessor ← getSubject g entityType entityId
  let successor ← getSubject g successorEntityType successorEntityId
  requireEntityPredecessorEligible predecessor
  refuseIf (entityType ≠ successorEntityType)
    (.config ("entity supersession requires the same entity type; predecessor is '" ++
      entityType ++ "', successor is '" ++ successorEntityType ++ "'"))
  refuseIf (successor.metadata.isLive a.now = false)
    (.config ("successor entity " ++ successorEntityType ++ ":" ++ successorEntityId ++
      " must be live; found '" ++ successor.metadata.lifecycleStatus.text ++ "'"))
  refuseReusedSuccessor (EntityInstance.lifecycleOrDefault successor).supersedes
    ("entity " ++ successorEntityType ++ ":" ++ successorEntityId)
    ("entity " ++ entityType ++ ":" ++ entityId)
  let h ← applyEntityLifecycle w g successor
    { EntityInstance.lifecycleOrDefault successor with
      supersedes := some { entityType := some entityType, entityId := some entityId } }
    supersedeSource actor
  applyEntityLifecycle w h predecessor
    { EntityInstance.lifecycleOrDefault predecessor with
      status := .superseded, reason := some reason, closedAt := some a.now,
      closedBy := some actor.actorId,
      supersededBy := some { entityType := some successorEntityType,
                             entityId := some successorEntityId } } supersedeSource actor

/-- `service_retire_entity`. -/
def serviceRetireEntity (w : WriteContext) (g : EntityGraph) (entityType entityId : String)
    (a : Adjudication) : Except CoreError EntityGraph := do
  let (actor, reason) ← openAdjudication a "cruxible_retire_entity" "retire"
  let subject ← getSubject g entityType entityId
  requireEntityPredecessorEligible subject
  applyEntityLifecycle w g subject
    { EntityInstance.lifecycleOrDefault subject with
      status := .retired, reason := some reason, closedAt := some a.now,
      closedBy := some actor.actorId } retractSource actor

/-- A claim that the lookup returns is an edge with that id, and the returned
instance addresses exactly that edge. -/
structure Addresses (r : RelationshipInstance) (e : EdgeData) : Prop where
  fromNode : makeNodeId r.fromType r.fromId = e.fromNode
  toNode : makeNodeId r.toType r.toId = e.toNode
  type : r.relationshipType = e.relationshipType
  key : r.edgeKey = some e.key

variable {g : EntityGraph} {r : RelationshipInstance} {e : EdgeData}

theorem findRelationshipByClaimId_ok {c : String} (h : g.findRelationshipByClaimId c = some r) :
    ∃ e, g.edges.find? (fun x => x.claimId = c) = some e ∧ Addresses r e ∧
      r.metadata = e.metadata := by
  unfold EntityGraph.findRelationshipByClaimId at h
  split_ifs at h
  obtain ⟨e, he, rfl⟩ := Option.map_eq_some_iff.mp h
  exact ⟨e, he, ⟨makeNodeId_splitNodeId _, makeNodeId_splitNodeId _, rfl, rfl⟩, rfl⟩

theorem getClaim_ok {c role : String} (h : getClaim g c role = .ok r) :
    ∃ e, g.edges.find? (fun x => x.claimId = strip c) = some e ∧ Addresses r e ∧
      r.metadata = e.metadata := by
  unfold getClaim at h
  simp only at h
  split_ifs at h
  split at h
  · rename_i r' hr
    obtain rfl := Except.ok.inj h
    exact findRelationshipByClaimId_ok hr
  · cases h

variable {d : EntityInstance} {h : EntityGraph} {source : String} {w : WriteContext}

theorem getSubject_ok {t i : String} (h : getSubject g t i = .ok d) :
    g.nodes.get? (makeNodeId t i) = some d := by
  unfold getSubject at h
  split at h
  · rename_i d' hd
    obtain rfl := Except.ok.inj h
    exact hd
  · cases h

theorem edgeMatches_of_addresses (hg : WellFormed g) (he : e ∈ g.edges) (hr : Addresses r e) :
    ∀ x ∈ g.edges, EntityGraph.edgeMatches (makeNodeId r.fromType r.fromId)
      (makeNodeId r.toType r.toId) r.relationshipType r.edgeKey x =
        decide (x.claimId = e.claimId) := by
  intro x hx
  rw [hr.fromNode, hr.toNode, hr.type, hr.key]
  by_cases hxe : x = e
  · subst hxe
    simp [EntityGraph.edgeMatches]
  · have hkey : x.key ≠ e.key := by
      intro hk
      have hfx := hg.find?_key hx
      rw [hk, hg.find?_key he] at hfx
      exact hxe (Option.some.inj hfx).symm
    have hclaim : x.claimId ≠ e.claimId := by
      intro hc
      have hfx := hg.find?_claimId hx
      rw [hc, hg.find?_claimId he] at hfx
      exact hxe (Option.some.inj hfx).symm
    simp [EntityGraph.edgeMatches, hkey, hclaim]

theorem modifyEdge_of_addresses (hg : WellFormed g) (he : e ∈ g.edges) (hr : Addresses r e)
    (f : EdgeData → EdgeData) :
    g.modifyEdge r.fromType r.fromId r.toType r.toId r.relationshipType r.edgeKey f =
      { g with edges := modifyFirst (fun x => x.claimId = e.claimId) f g.edges } := by
  simp only [EntityGraph.modifyEdge]
  rw [modifyFirst_congr_test (edgeMatches_of_addresses hg he hr)]

variable {actor : GovernedActorContext}

theorem applyClaimLifecycle_ok {l : RelationshipLifecycleState} {a : Adjudication}
    (hok : applyClaimLifecycle w g r l source actor a = .ok h) (hg : WellFormed g)
    (he : e ∈ g.edges) (hr : Addresses r e) :
    WellFormed h ∧ ∃ f : EdgeData → EdgeData, (∀ x, (f x).claimId = x.claimId) ∧
      (∀ x, (f x).lifecycle = l) ∧
      h = { g with edges := modifyFirst (fun x => x.claimId = e.claimId) f g.edges } := by
  unfold applyClaimLifecycle at hok
  obtain ⟨⟨k, d⟩, hk, hok⟩ := bind_eq_ok.mp hok
  obtain rfl := pure_eq_ok.mp hok
  unfold applyRelationship at hk
  obtain ⟨⟨⟩, -, hk⟩ := bind_eq_ok.mp hk
  obtain ⟨⟨⟩, -, hk⟩ := bind_eq_ok.mp hk
  rw [if_pos rfl] at hk
  have hedge := (updateRelationship_ok hk).1
  constructor
  · rw [hedge]
    exact hg.modifyEdge _ _ _ _ _ _ (fun _ => rfl) (fun _ => rfl)
  · rw [hedge, modifyEdge_of_addresses hg he ⟨hr.fromNode, hr.toNode, hr.type, hr.key⟩]
    refine ⟨_, ?_, ?_, rfl⟩
    · exact fun _ => rfl
    · exact fun _ => rfl

theorem applyEntityLifecycle_ok {l : EntityLifecycleState} {n : NodeId}
    (hok : applyEntityLifecycle w g d l source actor = .ok h) (hg : WellFormed g)
    (hd : g.nodes.get? n = some d) :
    ∃ d', h = { g with nodes := g.nodes.set n d' } ∧ d'.nodeId = n ∧
      d'.metadata.lifecycle = some l := by
  unfold applyEntityLifecycle at hok
  obtain ⟨v, hv, hok⟩ := bind_eq_ok.mp hok
  obtain ⟨⟨k, warning⟩, hk, hok⟩ := bind_eq_ok.mp hok
  obtain rfl := pure_eq_ok.mp hok
  obtain ⟨rfl, -, -, -⟩ := applyEntity_ok hk
  obtain ⟨hnode, hmeta, hupdate⟩ := validateEntity_ok hv
  have hkeyed : makeNodeId d.entityType d.entityId = n := hg.keyed n d hd
  have hu : v.isUpdate = true := by
    rw [hupdate, EntityGraph.hasEntity, EntityGraph.getEntity, hkeyed, hd]
    rfl
  rw [writeEntity_update g v hu, hnode, hkeyed]
  refine ⟨overwrite d v.entity, ?_, hkeyed, ?_⟩
  · simp [EntityGraph.modifyNode, hd]
  · simp [overwrite, EntityMetadata.merge, hmeta]

end Cruxible.LifecycleVerbs
