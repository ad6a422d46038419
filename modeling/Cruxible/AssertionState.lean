import Cruxible.JsonValue
import Cruxible.PythonDict

/-!
# Assertion state, provenance and metadata of graph records

The typed envelopes that ride on entities and relationships. An entity carries
a lifecycle slice, an actor slice and free-form `extra`; a relationship carries
provenance, an assertion (review axis, lifecycle axis, group flags) and
evidence. Instants are UTC counts, and every clock reading is an argument of
the operation that makes it.
-/
namespace Cruxible.AssertionState
open JsonValue PythonDict

abbrev Timestamp := Nat

abbrev Properties := Dict String Value

inductive ActorType where
  | humanUser
  | serviceAccount
  | system
  deriving DecidableEq, Repr

structure GovernedActorContext where
  actorType : ActorType
  actorId : String
  orgId : String
  operationId : String
  timestamp : Timestamp
  requestId : Option String := none
  deriving DecidableEq, Repr

inductive RelationshipReviewStatus where
  | unreviewed
  | pending
  | approved
  | rejected
  deriving DecidableEq, Repr

inductive RelationshipReviewSource where
  | system
  | human
  | agent
  | group
  | unknown
  deriving DecidableEq, Repr

inductive RelationshipLifecycleStatus where
  | active
  | inactive
  | superseded
  | retracted
  deriving DecidableEq, Repr

inductive EntityLifecycleStatus where
  | live
  | superseded
  | retired
  deriving DecidableEq, Repr

/-- `TERMINAL_RELATIONSHIP_LIFECYCLE_STATUSES`. -/
def RelationshipLifecycleStatus.terminal : RelationshipLifecycleStatus → Bool
  | .retracted | .superseded => true
  | .active | .inactive => false

/-- `TERMINAL_ENTITY_LIFECYCLE_STATUSES`. -/
def EntityLifecycleStatus.terminal : EntityLifecycleStatus → Bool
  | .retired | .superseded => true
  | .live => false

/-- The wire spellings that appear in refusal messages. -/
def RelationshipLifecycleStatus.text : RelationshipLifecycleStatus → String
  | .active => "active"
  | .inactive => "inactive"
  | .superseded => "superseded"
  | .retracted => "retracted"

def EntityLifecycleStatus.text : EntityLifecycleStatus → String
  | .live => "live"
  | .superseded => "superseded"
  | .retired => "retired"

def RelationshipReviewStatus.text : RelationshipReviewStatus → String
  | .unreviewed => "unreviewed"
  | .pending => "pending"
  | .approved => "approved"
  | .rejected => "rejected"

/-- A claim is named by its minted id, an entity by its natural key. The model
is open, so unknown members are carried along. -/
structure SupersessionPointer where
  claimId : Option String := none
  entityType : Option String := none
  entityId : Option String := none
  modelExtra : List (String × Value) := []
  deriving DecidableEq, Repr

/-- The shared lifecycle structure; only the status vocabulary differs by kind. -/
structure LifecycleState (σ : Type) where
  status : σ
  reason : Option String := none
  effectiveFrom : Option Timestamp := none
  effectiveUntil : Option Timestamp := none
  closedAt : Option Timestamp := none
  closedBy : Option String := none
  supersedes : Option SupersessionPointer := none
  supersededBy : Option SupersessionPointer := none
  modelExtra : List (String × Value) := []
  deriving DecidableEq, Repr

abbrev RelationshipLifecycleState := LifecycleState RelationshipLifecycleStatus

abbrev EntityLifecycleState := LifecycleState EntityLifecycleStatus

instance : Inhabited RelationshipLifecycleState := ⟨{ status := .active }⟩

instance : Inhabited EntityLifecycleState := ⟨{ status := .live }⟩

structure RelationshipReviewState where
  status : RelationshipReviewStatus := .unreviewed
  source : RelationshipReviewSource := .system
  updatedAt : Option Timestamp := none
  updatedBy : Option String := none
  actorContext : Option GovernedActorContext := none
  deriving DecidableEq, Repr

/-- Divergence between what a group approved and what the edge says now. -/
structure GroupApprovalDrift where
  groupId : String
  changedProperties : List String
  approvedValues : Properties
  firstDetectedAt : Option Timestamp
  detectedAt : Option Timestamp
  receiptId : Option String
  actorContext : Option GovernedActorContext
  deriving DecidableEq

structure RelationshipAssertion where
  review : RelationshipReviewState := {}
  lifecycle : RelationshipLifecycleState := { status := .active }
  groupOverride : Bool := false
  groupApprovalDrift : Option GroupApprovalDrift := none
  deriving DecidableEq

structure RelationshipProvenance where
  source : Option String := none
  sourceRef : Option String := none
  createdAt : Option Timestamp := none
  lastModifiedAt : Option Timestamp := none
  lastModifiedBy : Option String := none
  receiptId : Option String := none
  resolutionId : Option String := none
  cloneOrigin : Option String := none
  touchedBy : Option String := none
  backfilledAt : Option Timestamp := none
  createdActorContext : Option GovernedActorContext := none
  lastModifiedActorContext : Option GovernedActorContext := none
  deriving DecidableEq, Repr

structure RelationshipEvidence where
  evidenceRefs : List Value := []
  rationale : Option String := none
  sourceGroupId : Option String := none
  sourceReceiptIds : List String := []
  sourceTraceIds : List String := []
  sourceStepIds : List String := []
  deriving DecidableEq, Repr

structure RelationshipMetadata where
  provenance : Option RelationshipProvenance := none
  assertion : RelationshipAssertion := {}
  evidence : Option RelationshipEvidence := none
  deriving DecidableEq

structure EntityMetadata where
  lifecycle : Option EntityLifecycleState := none
  actorContext : Option GovernedActorContext := none
  extra : Properties := ∅
  deriving DecidableEq

/-- An undecorated entity reads as live. -/
def EntityMetadata.lifecycleStatus (m : EntityMetadata) : EntityLifecycleStatus :=
  match m.lifecycle with
  | some l => l.status
  | none => .live

/-- `is_effective`: the instant lies in `[effective_from, effective_until)`. -/
def isEffective (effectiveFrom effectiveUntil : Option Timestamp) (now : Timestamp) : Bool :=
  (match effectiveFrom with
    | some t => t ≤ now
    | none => true) &&
  (match effectiveUntil with
    | some t => now < t
    | none => true)

def EntityMetadata.isLive (m : EntityMetadata) (now : Timestamp) : Bool :=
  match m.lifecycle with
  | none => true
  | some l => l.status == .live && isEffective l.effectiveFrom l.effectiveUntil now

def relationshipLifecycleIsActive (a : RelationshipAssertion) (now : Timestamp) : Bool :=
  a.lifecycle.status == .active &&
    isEffective a.lifecycle.effectiveFrom a.lifecycle.effectiveUntil now

def relationshipIsLive (a : RelationshipAssertion) (now : Timestamp) : Bool :=
  relationshipLifecycleIsActive a now &&
    !(a.review.status == .pending || a.review.status == .rejected)

/-- Writing a metadata mapping over a stored one replaces each slice that the
mapping carries and keeps the others; an empty slice is not serialized, so it
replaces nothing. -/
def EntityMetadata.merge (m u : EntityMetadata) : EntityMetadata where
  lifecycle := u.lifecycle.or m.lifecycle
  actorContext := u.actorContext.or m.actorContext
  extra := if u.extra.entries = [] then m.extra else u.extra

variable {now : Timestamp}

theorem EntityMetadata.isLive_status {m : EntityMetadata} (h : m.isLive now = true) :
    m.lifecycleStatus = .live := by
  unfold EntityMetadata.isLive at h
  unfold EntityMetadata.lifecycleStatus
  split at h
  · rename_i hl
    simp [hl]
  · rename_i l hl
    simp only [Bool.and_eq_true, beq_iff_eq] at h
    simp [hl, h.1]

theorem relationshipIsLive_status {a : RelationshipAssertion} (h : relationshipIsLive a now = true)
    : a.lifecycle.status = .active := by
  simp only [relationshipIsLive, relationshipLifecycleIsActive, Bool.and_eq_true,
    beq_iff_eq] at h
  exact h.1.1

/-- `make_provenance`. -/
def makeProvenance (source sourceRef : String) (receiptId resolutionId : Option String)
    (actorContext : Option GovernedActorContext) (now : Timestamp) : RelationshipProvenance :=
  { source := some source, sourceRef := some sourceRef, createdAt := some now,
    receiptId := receiptId, resolutionId := resolutionId, createdActorContext := actorContext }

/-- `stamp_provenance_modified`. -/
def stampProvenanceModified (p : RelationshipProvenance) (actor : String)
    (actorContext : Option GovernedActorContext) (now : Timestamp) : RelationshipProvenance :=
  { p with lastModifiedAt := some now, lastModifiedBy := some actor,
           lastModifiedActorContext := actorContext }

/-- `backfill_provenance_on_touch`: a touch never borrows the toucher's channel
as the origin of an edge that carried no provenance. -/
def backfillProvenanceOnTouch (p : Option RelationshipProvenance) (actor : String)
    (actorContext : Option GovernedActorContext) (now : Timestamp) : RelationshipProvenance :=
  match p with
  | some p => stampProvenanceModified p actor actorContext now
  | none =>
      { source := some "unknown_backfilled", sourceRef := some "unknown_backfilled",
        lastModifiedAt := some now, lastModifiedBy := some actor,
        lastModifiedActorContext := actorContext, touchedBy := some actor,
        backfilledAt := some now }

/-- `provenance_group_id`: the group named by a `group:` source reference. -/
def provenanceGroupId (p : RelationshipProvenance) : Option String :=
  match p.sourceRef with
  | none => none
  | some ref =>
      if "group:".toList.isPrefixOf ref.toList then
        some (String.ofList (ref.toList.drop "group:".length))
      else none

end Cruxible.AssertionState
