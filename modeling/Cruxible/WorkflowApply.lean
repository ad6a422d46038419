import Cruxible.DirectWrites

/-!
# Applying the sets of a canonical workflow

The two apply steps. Each validates every member against the graph as it stands
at the start of the step, lets the mutation guards refuse, and then takes one
create, update or noop decision for each member against the working graph. The
preview that a step returns counts the decisions and repeats the duplicate
diagnostics of its set.
-/
namespace Cruxible.WorkflowApply
open JsonValue PythonDict AssertionState AppendOnly Fallible Cruxible.Graph PropertyValidation
open GraphOperations GroupDrift DirectWrites

/-- Duplicate diagnostics that ride on sets and previews. -/
structure DuplicateTracking where
  duplicateInputCount : Nat := 0
  conflictingDuplicateCount : Nat := 0
  duplicateExamples : List Value := []
  deriving DecidableEq

/-- The members of a set have the type of the set. -/
structure EntitySet where
  entityType : String
  entities : List EntityInstance := []
  duplicates : DuplicateTracking := {}
  member_type : ∀ e ∈ entities, e.entityType = entityType

structure RelationshipSet where
  relationshipType : String
  relationships : List RelationshipInstance := []
  duplicates : DuplicateTracking := {}
  member_type : ∀ r ∈ relationships, r.relationshipType = relationshipType

structure Counts where
  create : Nat := 0
  update : Nat := 0
  noop : Nat := 0
  deriving DecidableEq, Repr

structure ApplyEntitiesPreview where
  entityType : String
  counts : Counts
  duplicates : DuplicateTracking
  deriving DecidableEq

structure ApplyRelationshipsPreview where
  relationshipType : String
  counts : Counts
  duplicates : DuplicateTracking
  deriving DecidableEq

/-- The mutation guards of the workflow path, as evaluators that may refuse. -/
structure WorkflowGuards where
  entity : EntityGraph → List ValidatedEntity → Except CoreError Unit
  relationship : EntityGraph → List ValidatedRelationship → Except CoreError Unit

/-- Validation errors of a set are gathered; any other refusal aborts. -/
def gather {ι α : Type} (label : ι → String) (validate : ι → Except CoreError α) :
    List ι → Except CoreError (List α × List String)
  | [] => .ok ([], [])
  | x :: xs =>
      match validate x with
      | .error (.dataValidation m errors) => do
          let (vs, es) ← gather label validate xs
          return (vs, (label x ++ ": " ++
            (if errors = [] then m else "; ".intercalate errors)) :: es)
      | .error other => .error other
      | .ok v => do
          let (vs, es) ← gather label validate xs
          return (v :: vs, es)

/-- Refuse a step whose set failed validation. -/
def requireValidSet (stepId kind : String) (errors : List String) : Except CoreError Unit :=
  if errors = [] then .ok ()
  else .error (.queryExecution ("Workflow step '" ++ stepId ++ "' " ++ kind ++
    " property validation failed: " ++ "; ".intercalate errors))

/-- `_would_update_entity`: an absent property reads as null. -/
def wouldUpdateEntity (current new : Properties) : Bool :=
  new.entries.any (fun b => !((current.get? b.1).getD .null).pyEq b.2)

/-- Python inequality of two property mappings. -/
def propertiesDiffer (a b : Properties) : Bool := !(Value.object a.entries).pyEq (.object b.entries)

/-- The decision for one entity of a set. -/
def applyEntityMember (w : WriteContext) (c : Call) (s : EntityGraph × Counts)
    (v : ValidatedEntity) : Except CoreError (EntityGraph × Counts) :=
  let e := v.entity
  let stamped := { e with metadata := { e.metadata with
    actorContext := c.actorContext.or e.metadata.actorContext } }
  match s.1.getEntity e.entityType e.entityId with
  | some existing =>
      if wouldUpdateEntity existing.properties e.properties then do
        let (h, _) ← applyEntity w s.1 { entity := stamped, isUpdate := true } "workflow_apply" false
        return (h, { s.2 with update := s.2.update + 1 })
      else .ok (s.1, { s.2 with noop := s.2.noop + 1 })
  | none => do
      let (h, _) ← applyEntity w s.1 { entity := stamped, isUpdate := false } "workflow_apply" false
      return (h, { s.2 with create := s.2.create + 1 })

/-- `apply_entity_set`. -/
def applyEntitySet (w : WriteContext) (guards : WorkflowGuards) (stepId : String) (c : Call)
    (g : EntityGraph) (set : EntitySet) : Except CoreError (EntityGraph × ApplyEntitiesPreview) := do
  checkUpstreamTypeOwnership w [set.entityType] []
  let (validated, errors) ← gather (fun e => set.entityType ++ ":" ++ e.entityId)
    (fun e => validateEntity w g set.entityType e.entityId e.properties {}) set.entities
  requireValidSet stepId "entity" errors
  guards.entity g validated
  let (h, counts) ← validated.foldlM (applyEntityMember w c) (g, {})
  return (h, { entityType := set.entityType, counts := counts, duplicates := set.duplicates })

theorem applyEntitySet_accepted {w : WriteContext} {guards : WorkflowGuards} {stepId : String}
    {c : Call} {g h : EntityGraph} {set : EntitySet} {preview : ApplyEntitiesPreview}
    (hok : applyEntitySet w guards stepId c g set = .ok (h, preview)) :
    ∃ validated, gather (fun e => set.entityType ++ ":" ++ e.entityId)
      (fun e => validateEntity w g set.entityType e.entityId e.properties {}) set.entities =
        .ok (validated, []) ∧ guards.entity g validated = .ok () ∧
      validated.foldlM (applyEntityMember w c) (g, {}) = .ok (h, preview.counts) := by
  unfold applyEntitySet at hok
  obtain ⟨⟨⟩, -, hok⟩ := bind_eq_ok.mp hok
  obtain ⟨⟨validated, errors⟩, hgather, hok⟩ := bind_eq_ok.mp hok
  obtain ⟨⟨⟩, hvalid, hok⟩ := bind_eq_ok.mp hok
  obtain ⟨⟨⟩, hguards, hok⟩ := bind_eq_ok.mp hok
  obtain ⟨⟨h', counts⟩, hfold, hok⟩ := bind_eq_ok.mp hok
  unfold requireValidSet at hvalid
  split_ifs at hvalid with hnone
  rw [hnone] at hgather
  obtain ⟨rfl, rfl⟩ := Prod.mk.inj (pure_eq_ok.mp hok)
  exact ⟨validated, hgather, hguards, hfold⟩

/-- The write of one relationship member; only a create correlates a receipt. -/
def workflowRelationshipWrite (sourceRef : String) (c : Call) (receiptId : Option String)
    (mintedClaimId : String) : RelationshipWrite :=
  { source := "workflow_apply", sourceRef := sourceRef, receiptId := receiptId,
    actorContext := c.actorContext, now := c.now, mintedClaimId := mintedClaimId }

/-- Evidence is compared only when the member supplies some. -/
def evidenceChanged (incoming existing : Option RelationshipEvidence) : Bool :=
  incoming.isSome && existing != incoming

/-- The decision for one relationship of a set. -/
def applyRelationshipMember (w : WriteContext) (sourceRef : String) (c : Call)
    (s : EntityGraph × Counts) (m : ValidatedRelationship × String) :
    Except CoreError (EntityGraph × Counts) :=
  let (g, counts) := s
  let (v, minted) := m
  let r := v.relationship
  match g.getRelationship r.fromType r.fromId r.toType r.toId r.relationshipType with
  | none => do
      let (h, _) ← applyRelationship w g v (workflowRelationshipWrite sourceRef c c.receiptId minted)
      return (h, { counts with create := counts.create + 1 })
  | some existing =>
      if propertiesDiffer existing.properties r.properties ∨
          evidenceChanged r.metadata.evidence existing.metadata.evidence = true then do
        let drift := groupContentDrift r existing
        let (h, _) ← applyRelationship w g v (workflowRelationshipWrite sourceRef c none minted)
        return (stampGroupApprovalDrift h r drift c.receiptId c.actorContext c.now,
          { counts with update := counts.update + 1 })
      else .ok (g, { counts with noop := counts.noop + 1 })

/-- `apply_relationship_set`; `mint` gives the id of the member at a position. -/
def applyRelationshipSet (w : WriteContext) (guards : WorkflowGuards)
    (workflowName stepId : String) (c : Call) (mint : Nat → String) (g : EntityGraph)
    (set : RelationshipSet) : Except CoreError (EntityGraph × ApplyRelationshipsPreview) := do
  checkUpstreamTypeOwnership w [] [set.relationshipType]
  let label (r : RelationshipInstance) := r.fromType ++ ":" ++ r.fromId ++ "-[" ++
    set.relationshipType ++ "]->" ++ r.toType ++ ":" ++ r.toId
  let (validated, errors) ← gather label
    (fun r => do
      let v ← validateRelationship w g r.fromType r.fromId set.relationshipType r.toType r.toId
        r.properties none
      return { v with relationship := { v.relationship with metadata := r.metadata } })
    set.relationships
  requireValidSet stepId "relationship" errors
  guards.relationship g validated
  let sourceRef := "workflow:" ++ workflowName ++ ":" ++ stepId
  let (h, counts) ← (validated.zipIdx.map (fun p => (p.1, mint p.2))).foldlM
    (applyRelationshipMember w sourceRef c) (g, {})
  return (h, { relationshipType := set.relationshipType, counts := counts,
               duplicates := set.duplicates })

end Cruxible.WorkflowApply
