import Cruxible.GroupStore
import Cruxible.InFlight
import Cruxible.Storage

/-!
# Requests on candidate groups

Proposing, resolving, and the direct writes that annotate pending groups, each as
what it reads before its transaction and what its transaction does. A proposal
reads the pending group of its signature and decides to do nothing, to withdraw
the group, to rewrite it or to create one. A resolution loads the group and its
members and checks the expected version against that copy. A direct write reads
nothing outside its transaction.

The workflow policies, the signal checks and the priority of a proposal are
arbitrary: nothing below depends on what they decide. An automatic resolution is
a resolution request of its own, made after the proposal that it follows.
-/
namespace Cruxible.GroupRequests
open JsonValue PythonDict KeyedTable AssertionState AppendOnly Fallible Cruxible.Graph
  PropertyValidation
open GraphOperations GroupDrift DirectWrites GovernedWrites GroupStore Storage InFlight

/-- The decisions that a proposal takes from the configuration. -/
structure ProposalPolicies where
  relationshipTuple : Bool := true
  applyWorkflowPolicies : EntityGraph → List CandidateMember →
    Except CoreError (List CandidateMember × Bool) := fun _ members => .ok (members, false)
  validateProposalSignals : List CandidateMember → Except CoreError Unit := fun _ => .ok ()
  reviewPriorityForMembers : EntityGraph → List CandidateMember → Option GroupResolution → Bool →
    ReviewPriority := fun _ _ _ _ => .review

/-- A proposal whose inputs passed `validate_group_proposal_inputs`, with the
signature of its thesis facts and the id that it would mint. -/
structure Proposal where
  relationshipType : String
  signature : String
  members : List CandidateMember
  metadata : ProposalMetadata := {}
  retainMissing : Bool := false
  expectedPendingVersion : Option Nat := none
  policies : ProposalPolicies := {}
  mintedGroupId : String
  now : Timestamp := 0
  distinct : (members.map CandidateMember.identityTuple).Nodup

def orderedUnique (values : List String) : List String :=
  values.foldl (fun seen v => if v ∈ seen then seen else seen ++ [v]) []

def sourceQueryReceiptIdsFromMembers (members : List CandidateMember) : List String :=
  orderedUnique (members.flatMap fun m => m.sourceQueryEvidence.map (·.queryReceiptId))

/-- `_metadata_with_source_query_receipts` with the receipts of the members. -/
def metadataWithSourceQueryReceipts (metadata : ProposalMetadata)
    (members : List CandidateMember) : ProposalMetadata :=
  let receiptIds := orderedUnique (sourceQueryReceiptIdsFromMembers members ++
    metadata.sourceQueryReceiptIds)
  { metadata with sourceQueryReceiptIds := receiptIds }

/-- `merge_pending_members`: by tuple, the later member in the earlier's place. -/
def mergePendingMembers (existing current : List CandidateMember) : List CandidateMember :=
  (Dict.ofList ((existing ++ current).map fun m => (m.identityTuple, m))).entries.map Prod.snd

def hasLiveRelationship (g : EntityGraph) (r : RelationshipInstance) (now : Timestamp) : Bool :=
  g.edges.any fun e =>
    EntityGraph.edgeMatches (makeNodeId r.fromType r.fromId) (makeNodeId r.toType r.toId)
      r.relationshipType none e && relationshipIsLive e.metadata.assertion now

/-- `filter_relationship_conflicts`: retained and suppressed members. -/
def filterRelationshipConflicts (t : Tables) (relationshipType : String)
    (members : List CandidateMember) (excludeGroupId : Option String) (now : Timestamp) :
    List CandidateMember × List CandidateMember :=
  members.partition fun m =>
    !hasLiveRelationship t.graph m.asRelationship now &&
      (t.findPendingGroupsForTuples relationshipType [m.identityTuple] excludeGroupId).isEmpty

/-- `_validate_expected_pending_version`. -/
def validateExpectedPendingVersion (pending : Option CandidateGroup) (expected : Option Nat) :
    Except CoreError Unit :=
  match expected with
  | none => .ok ()
  | some v =>
      refuseIf (pending.map (·.pendingVersion) ≠ some v)
        (.config ("Pending group changed since it was read; expected pending_version " ++
          toString v ++ ", found " ++ (match pending with
            | some g => toString g.pendingVersion
            | none => "no pending group")))

/-- The copy of a pending group that a rewrite saves: `_group_update_fields` over
the copy, with the next version. The proposer of the group stays. -/
def rewrittenGroup (pending : CandidateGroup) (metadata : ProposalMetadata)
    (members : List CandidateMember) (priority : ReviewPriority) : CandidateGroup :=
  { pending with
    status := .pendingReview
    metadata := { metadataWithSourceQueryReceipts metadata members with
      proposedActorContext := pending.metadata.proposedActorContext }
    memberCount := members.length
    pendingVersion := pending.pendingVersion + 1
    reviewPriority := priority
    resolutionId := none }

/-- `_new_candidate_group`. -/
def newCandidateGroup (p : Proposal) (members : List CandidateMember) (priority : ReviewPriority) :
    CandidateGroup :=
  { groupId := p.mintedGroupId, relationshipType := p.relationshipType, signature := p.signature,
    metadata := metadataWithSourceQueryReceipts p.metadata members,
    memberCount := members.length, reviewPriority := priority, createdAt := p.now }

/-- What `_create_group_or_rewrite_concurrent` takes into its transaction. -/
structure Creation where
  proposal : Proposal
  group : CandidateGroup
  pendingMembers : List CandidateMember
  deltaMembers : List CandidateMember
  prior : Option GroupResolution
  forceReview : Bool
  graph : EntityGraph

/-- A proposal after its reads. -/
inductive ProposalPlan where
  | nothing
  | withdraw (pending : CandidateGroup)
  | rewrite (row : CandidateGroup) (members : List CandidateMember)
  | create (c : Creation)

/-- The members that stay candidates, and those that are live or pending. -/
def Proposal.filtered (p : Proposal) (t : Tables) (pending : Option CandidateGroup)
    (members : List CandidateMember) : List CandidateMember × List CandidateMember :=
  if p.policies.relationshipTuple then
    filterRelationshipConflicts t p.relationshipType members (pending.map (·.groupId)) p.now
  else (members, [])

/-- The members that a proposal adds, and those that it reports as suppressed. -/
def Proposal.delta (p : Proposal) (t : Tables) (pending : Option CandidateGroup)
    (members : List CandidateMember) : List CandidateMember × List CandidateMember :=
  let approved := t.listApprovedRelationshipTuples p.relationshipType p.signature
  let (retained, suppressed) := p.filtered t pending members
  let (known, delta) := retained.partition fun m => m.identityTuple ∈ approved
  (delta, if p.policies.relationshipTuple then suppressed ++ known else suppressed)

/-- The group that a proposal without a pending group creates. -/
def Proposal.creation (p : Proposal) (t : Tables) (delta : List CandidateMember)
    (prior : Option GroupResolution) (forceReview : Bool) : Creation where
  proposal := p
  pendingMembers := delta
  deltaMembers := delta
  prior := prior
  forceReview := forceReview
  graph := t.graph
  group := newCandidateGroup p delta
    (p.policies.reviewPriorityForMembers t.graph delta prior forceReview)

/-- `service_propose_group` up to its transaction. -/
def Proposal.plan (p : Proposal) (t : Tables) : Except CoreError ProposalPlan := do
  let (members, forceReview) ← p.policies.applyWorkflowPolicies t.graph p.members
  let pending := t.findPendingGroup p.relationshipType p.signature
  validateExpectedPendingVersion pending p.expectedPendingVersion
  p.policies.validateProposalSignals (p.filtered t pending members).1
  let prior := t.findConfirmedApproval p.relationshipType p.signature
  let (delta, suppressed) := p.delta t pending members
  match pending with
  | none =>
      if delta = [] then return .nothing
      else return .create (p.creation t delta prior forceReview)
  | some g =>
      if delta = [] then
        if suppressed ≠ [] ∨ p.retainMissing then return .nothing else return .withdraw g
      else
        let members :=
          if p.retainMissing then mergePendingMembers (t.getMembers g.groupId) delta else delta
        return .rewrite (rewrittenGroup g p.metadata members
          (p.policies.reviewPriorityForMembers t.graph members prior forceReview)) members

/-- `_withdraw_pending_group`: the version is the copy's, plus one. -/
def commitWithdraw (pending : CandidateGroup) (t : Tables) : Tables :=
  t.updateGroup pending.groupId .withdrawn (pending.pendingVersion + 1)

/-- The transaction of a rewrite: save the row, then replace the members. -/
def commitRewrite (row : CandidateGroup) (members : List CandidateMember) (t : Tables) :
    Except CoreError Tables := do
  let u ← t.saveGroup row
  u.replaceMembers row.groupId members

namespace Creation

/-- The insert that is tried first. -/
def insert (c : Creation) (t : Tables) : Tables × Bool :=
  match t.saveGroup c.group with
  | .error _ => (t, false)
  | .ok u => u.saveMembers c.group.groupId c.pendingMembers

/-- The pending group that a refused insert falls back to, read in the
transaction. -/
def concurrent (c : Creation) (t : Tables) : Option CandidateGroup :=
  (c.insert t).1.findPendingGroup c.proposal.relationshipType c.proposal.signature

def rewriteConcurrent (c : Creation) (concurrent : CandidateGroup) (u : Tables) :
    Except CoreError Tables :=
  let members := if c.proposal.retainMissing then
      mergePendingMembers (u.getMembers concurrent.groupId) c.deltaMembers
    else c.pendingMembers
  commitRewrite (rewrittenGroup concurrent c.group.metadata members
    (c.proposal.policies.reviewPriorityForMembers c.graph members c.prior c.forceReview)) members u

/-- `_create_group_or_rewrite_concurrent`. -/
def commit (c : Creation) (t : Tables) : Except CoreError Tables :=
  if (c.insert t).2 then .ok (c.insert t).1
  else match c.concurrent t with
    | none => .error (.storageIntegrity "candidate_groups")
    | some g => c.rewriteConcurrent g (c.insert t).1

end Creation

structure ResolveRequest where
  groupId : String
  action : ResolutionAction
  rationale : String := ""
  expectedPendingVersion : Nat
  stampExisting : Bool := false
  resolutionSource : ResolutionSource := .review
  permitted : Bool := true
  w : WriteContext
  guards : Guards
  call : Call := {}
  mintedResolutionId : String
  mintClaimId : CandidateMember → String := fun _ => ""

/-- `_ResolveTarget`. -/
structure ResolveTarget where
  group : CandidateGroup
  members : List CandidateMember
  isRetry : Bool

/-- `_load_group_for_resolve`. -/
def ResolveRequest.load (r : ResolveRequest) (t : Tables) : Except CoreError ResolveTarget :=
  match t.getGroup r.groupId with
  | none => .error (.groupNotFound r.groupId)
  | some g => do
      refuseIf (g.status = .resolved) (.config "Group already resolved")
      refuseIf (g.status = .applying ∧ r.action ≠ .approve)
        (.config "Group is in applying state from a prior approve — cannot reject")
      refuseIf (¬(g.status = .pendingReview ∨ g.status = .applying))
        (.config ("Group is " ++ g.status.text ++
          " and cannot be resolved; only a pending_review group is reviewable"))
      return { group := g, members := t.getMembers r.groupId, isRetry := g.status = .applying }

/-- The identity of a reference that `merge_evidence_refs` compares. -/
def evidenceRefKey (ref : Value) : List Value :=
  [ref.field "source", ref.field "source_record_id", ref.field "artifact_id", ref.field "table",
    ref.field "row_index", (ref.field "metadata").field "criteria",
    (ref.field "metadata").field "match_criteria_id"].map Value.canonical

def mergeEvidenceRefs (refs : List Value) : List Value :=
  refs.foldl (fun merged ref =>
    if evidenceRefKey ref ∈ merged.map evidenceRefKey then merged else merged ++ [ref]) []

/-- `_relationship_evidence_for_member`. -/
def relationshipEvidenceForMember (g : CandidateGroup) (m : CandidateMember) :
    RelationshipEvidence :=
  { evidenceRefs := mergeEvidenceRefs (m.evidenceRefs ++ m.signals.flatMap (·.evidenceRefs)),
    rationale := m.evidenceRationale,
    sourceGroupId := some g.groupId,
    sourceReceiptIds := orderedUnique (((g.metadata.sourceWorkflowReceiptId.filter (· ≠ "")).toList) ++
      g.metadata.sourceQueryReceiptIds),
    sourceTraceIds := orderedUnique g.metadata.sourceTraceIds,
    sourceStepIds := orderedUnique g.metadata.sourceStepIds }

def ResolveRequest.approvalMembers (r : ResolveRequest) (target : ResolveTarget) :
    List ApprovalMember :=
  target.members.map fun m =>
    { relationship := m.asRelationship,
      evidence := relationshipEvidenceForMember target.group m,
      mintedClaimId := r.mintClaimId m }

/-- The row that `save_resolution` writes for this request. -/
def ResolveRequest.resolution (r : ResolveRequest) (g : CandidateGroup) (confirmed : Bool)
    (prior : Option GroupResolution) : GroupResolution :=
  { resolutionId := r.mintedResolutionId, relationshipType := g.relationshipType,
    groupSignature := g.signature, action := r.action, rationale := r.rationale,
    thesisText := g.metadata.thesisText, thesisFacts := g.metadata.thesisFacts,
    analysisState := g.metadata.analysisState,
    trustStatus := (prior.map (·.trustStatus)).getD .watch,
    trustReason := (prior.map (·.trustReason)).getD "",
    trustActorContext := prior.bind (·.trustActorContext),
    confirmed := confirmed, resolutionSource := r.resolutionSource, resolvedAt := r.call.now,
    resolvedActorContext := r.call.actorContext, receiptId := r.call.receiptId }

/-- `_reject_group`. -/
def ResolveRequest.reject (r : ResolveRequest) (target : ResolveTarget) (t : Tables) :
    Except CoreError Tables := do
  let u ← t.saveResolution (r.resolution target.group true none)
  return u.updateGroupStatus target.group.groupId .resolved (some r.mintedResolutionId)

/-- `_start_approval_resolution`: the tables and the id that the edges carry. A
retry keeps the resolution of the interrupted attempt. -/
def ResolveRequest.startApproval (r : ResolveRequest) (target : ResolveTarget)
    (a : ApprovalValidation) (t : Tables) : Except CoreError (Tables × Option String) :=
  if target.isRetry then
    .ok (t.stampResolutionReceiptId target.group.resolutionId r.call.receiptId,
      target.group.resolutionId)
  else do
    refuseIf (a.validInputs = [] ∧ a.skippedExisting = [])
      (if a.validationErrors ≠ [] then
        .dataValidation "Cannot approve group: candidate validation failed" a.validationErrors
      else .config "Cannot approve: no creatable edges")
    let prior := t.findConfirmedApproval target.group.relationshipType target.group.signature
    let u ← t.saveResolution (r.resolution target.group false prior)
    return (u.updateGroupStatus target.group.groupId .applying (some r.mintedResolutionId),
      some r.mintedResolutionId)

/-- `_confirm_approval_resolution`. -/
def confirmApproval (groupId : String) (resolutionId : Option String) (t : Tables) : Tables :=
  (t.confirmResolution resolutionId).updateGroupStatus groupId .resolved none

/-- `_approve_group`, over the graph loaded inside the transaction. -/
def ResolveRequest.approve (r : ResolveRequest) (target : ResolveTarget) (t : Tables) :
    Except CoreError Tables := do
  checkUpstreamTypeOwnership r.w [] [target.group.relationshipType]
  refuseIf (¬(target.members.all fun m => storable m.properties) = true)
    (.value "Out of range float values are not JSON compliant")
  let a ← validateApprovalMembers r.w t.graph (r.approvalMembers target)
  requireNoErrors "Mutation guard" (r.guards.relationship t.graph (a.validInputs.map Prod.fst))
  let (u, resolutionId) ← r.startApproval target a t
  let h ← applyResolvedRelationships r.w target.group.groupId resolutionId r.call t.graph
    a.validInputs
  refuseIf (¬(a.validInputs.all fun v => storable v.1.relationship.properties &&
    metadataStorable v.1.relationship.metadata) = true) outOfRange
  let h := if r.stampExisting then
      a.skippedExisting.foldl (stampExistingEdge target.group.groupId resolutionId r.call) h
    else h
  return confirmApproval target.group.groupId resolutionId { u with graph := h }

/-- The transaction of `resolve_group_transition`: the version that it checks is
the one of the copy. -/
def ResolveRequest.commit (r : ResolveRequest) (target : ResolveTarget) (t : Tables) :
    Except CoreError Tables := do
  refuseIf (r.permitted = false) (.permissionDenied "cruxible_resolve_group" "GRAPH_WRITE")
  refuseIf (target.group.pendingVersion ≠ r.expectedPendingVersion)
    (.config ("Group changed during review; expected pending_version " ++
      toString r.expectedPendingVersion ++ ", found " ++ toString target.group.pendingVersion))
  match r.action with
  | .reject => r.reject target t
  | .approve => r.approve target t

/-- A direct write of relationships: what it does to the graph, and the analysis
state that `_merge_direct_write_conflict_state` gives a group in conflict. -/
structure DirectWrite where
  relationships : List RelationshipInstance
  write : EntityGraph → Except CoreError EntityGraph
  mergeState : CandidateGroup → List CandidateMember → Properties

namespace DirectWrite

/-- The groups that `_detect_direct_write_group_interactions` finds in conflict. -/
def conflicts (d : DirectWrite) (t : Tables) : List String :=
  orderedUnique (d.relationships.flatMap fun r =>
    (t.findPendingGroupsForTuples r.relationshipType [r.identityTuple] none).map (·.groupId))

/-- One turn of `_annotate_direct_write_conflict_groups`. -/
def annotate (d : DirectWrite) (t : Tables) (groupId : String) : Tables :=
  match t.getGroup groupId with
  | none => t
  | some g =>
      if g.isOpen then t.updateGroupAnalysisState groupId (d.mergeState g (t.getMembers groupId))
      else t

def commit (d : DirectWrite) (t : Tables) : Except CoreError Tables := do
  let h ← d.write t.graph
  return { (d.conflicts t).foldl d.annotate t with graph := h }

end DirectWrite

inductive Request where
  | propose (p : Proposal)
  | resolve (r : ResolveRequest)
  | directWrite (d : DirectWrite)

inductive Plan where
  | propose (plan : ProposalPlan)
  | resolve (r : ResolveRequest) (target : ResolveTarget)
  | directWrite (d : DirectWrite)

def Request.read (r : Request) (t : Tables) : Except CoreError Plan :=
  match r with
  | .propose p => do return .propose (← p.plan t)
  | .resolve r => do return .resolve r (← r.load t)
  | .directWrite d => .ok (.directWrite d)

def Plan.commit (p : Plan) (t : Tables) : Except CoreError Tables :=
  match p with
  | .propose .nothing => .ok t
  | .propose (.withdraw g) => .ok (commitWithdraw g t)
  | .propose (.rewrite row members) => commitRewrite row members t
  | .propose (.create c) => c.commit t
  | .resolve r target => r.commit target t
  | .directWrite d => d.commit t

/-- The groups whose row or members a plan writes. -/
def Plan.writes (p : Plan) (t : Tables) : List String :=
  match p with
  | .propose .nothing => []
  | .propose (.withdraw g) => [g.groupId]
  | .propose (.rewrite row _) => [row.groupId]
  | .propose (.create c) => c.group.groupId :: ((c.concurrent t).map (·.groupId)).toList
  | .resolve _ target => [target.group.groupId]
  | .directWrite d => d.conflicts t

def groupSystem : System Tables Request Plan String CoreError where
  read := Request.read
  commit := Plan.commit
  writes := Plan.writes

/-- A group as its row and its members. -/
def groupView (groupId : String) (t : Tables) : Option CandidateGroup × List CandidateMember :=
  (t.getGroup groupId, t.getMembers groupId)

section Specification
variable {t t' : Tables}

/-- A withdrawal or a rewrite carries a copy of a pending group. -/
def ProposalPlan.copied : ProposalPlan → Option String
  | .nothing => none
  | .withdraw pending => some pending.groupId
  | .rewrite row _ => some row.groupId
  | .create _ => none

variable {groupId g : String} {r : ResolveRequest} {target : ResolveTarget} {p : Proposal}
  {q : Request} {c : Creation} {a : ApprovalValidation} {d : DirectWrite}

theorem Proposal.plan_copied {plan : ProposalPlan} (h : p.plan t = .ok plan)
    (hcopied : plan.copied = some groupId) :
    ∃ row, t.getGroup groupId = some row ∧ row.status = .pendingReview := by
  unfold Proposal.plan at h
  obtain ⟨⟨members, forceReview⟩, -, h⟩ := bind_eq_ok.mp h
  obtain ⟨⟨⟩, -, h⟩ := bind_eq_ok.mp h
  obtain ⟨⟨⟩, -, h⟩ := bind_eq_ok.mp h
  simp only at h
  split at h
  · split at h <;>
      · obtain rfl := pure_eq_ok.mp h
        cases hcopied
  · rename_i pending hpending
    have hrow := findPendingGroup_some hpending
    split at h
    · split at h
      · obtain rfl := pure_eq_ok.mp h
        cases hcopied
      · obtain rfl := pure_eq_ok.mp h
        obtain rfl := Option.some.inj hcopied
        exact ⟨pending, hrow.1, hrow.2.1⟩
    · obtain rfl := pure_eq_ok.mp h
      obtain rfl := Option.some.inj hcopied
      exact ⟨pending, hrow.1, hrow.2.1⟩

/-- What a plan that stores members is made of. -/
def ProposalPlan.StoresFrom (p : Proposal) (t : Tables) : ProposalPlan → Prop
  | .nothing => True
  | .withdraw _ => True
  | .rewrite row members => ∃ pending kept priority,
      t.findPendingGroup p.relationshipType p.signature = some pending ∧
      row = rewrittenGroup pending p.metadata members priority ∧
      (members = (p.delta t (some pending) kept).1 ∨
        members = mergePendingMembers (t.getMembers pending.groupId)
          (p.delta t (some pending) kept).1)
  | .create c => ∃ kept prior forceReview,
      t.findPendingGroup p.relationshipType p.signature = none ∧
      c = p.creation t (p.delta t none kept).1 prior forceReview

theorem Proposal.plan_stores {plan : ProposalPlan} (h : p.plan t = .ok plan) :
    plan.StoresFrom p t := by
  unfold Proposal.plan at h
  have ⟨⟨kept, forceReview⟩, _, h⟩ := bind_eq_ok.mp h
  have ⟨_, _, h⟩ := bind_eq_ok.mp h
  have ⟨_, _, h⟩ := bind_eq_ok.mp h
  simp only at h
  split at h
  · rename_i hnone
    rw [hnone] at h
    split_ifs at h
    · rw [← pure_eq_ok.mp h]
      trivial
    · rw [← pure_eq_ok.mp h]
      exact ⟨kept, _, forceReview, hnone, rfl⟩
  · rename_i pending hpending
    rw [hpending] at h
    split_ifs at h
    · rw [← pure_eq_ok.mp h]
      trivial
    · rw [← pure_eq_ok.mp h]
      trivial
    · rw [← pure_eq_ok.mp h]
      exact ⟨pending, kept, _, hpending, rfl, .inr rfl⟩
    · rw [← pure_eq_ok.mp h]
      exact ⟨pending, kept, _, hpending, rfl, .inl rfl⟩

theorem ResolveRequest.load_ok (h : r.load t = .ok target) :
    t.getGroup r.groupId = some target.group ∧ target.members = t.getMembers r.groupId ∧
      (target.group.status = .pendingReview ∨ target.group.status = .applying) := by
  unfold ResolveRequest.load at h
  split at h
  · cases h
  · rename_i g hg
    obtain ⟨⟨⟩, -, h⟩ := bind_eq_ok.mp h
    obtain ⟨⟨⟩, -, h⟩ := bind_eq_ok.mp h
    obtain ⟨⟨⟩, hopen, h⟩ := bind_eq_ok.mp h
    have hstatus := not_not.mp (refuseIf_eq_ok.mp hopen)
    obtain rfl := pure_eq_ok.mp h
    exact ⟨hg, rfl, hstatus⟩

theorem Request.read_resolve (h : q.read t = .ok (.resolve r target)) : r.load t = .ok target := by
  unfold Request.read at h
  split at h
  · obtain ⟨plan, -, h⟩ := bind_eq_ok.mp h
    cases pure_eq_ok.mp h
  · obtain ⟨target', hload, h⟩ := bind_eq_ok.mp h
    obtain ⟨rfl, rfl⟩ := Plan.resolve.inj (pure_eq_ok.mp h)
    exact hload
  · cases Except.ok.inj h

theorem Request.read_propose {plan : ProposalPlan} (h : q.read t = .ok (.propose plan)) :
    ∃ p : Proposal, p.plan t = .ok plan := by
  unfold Request.read at h
  split at h
  · rename_i p
    obtain ⟨plan', hplan, h⟩ := bind_eq_ok.mp h
    obtain rfl := Plan.propose.inj (pure_eq_ok.mp h)
    exact ⟨p, hplan⟩
  · obtain ⟨target, -, h⟩ := bind_eq_ok.mp h
    cases pure_eq_ok.mp h
  · cases Except.ok.inj h

theorem commitRewrite_ok {row : CandidateGroup} {members : List CandidateMember}
    (h : commitRewrite row members t = .ok t') :
    (∀ g, t'.getGroup g = if row.groupId = g then some row else t.getGroup g) ∧
      (∀ g, g ≠ row.groupId → t'.getMembers g = t.getMembers g) ∧
      (∀ r, t'.getResolution r = t.getResolution r) := by
  unfold commitRewrite at h
  obtain ⟨u, hsave, h⟩ := bind_eq_ok.mp h
  obtain ⟨-, rfl⟩ := saveGroup_ok hsave
  obtain ⟨stored, rfl, hother, -⟩ := replaceMembers_ok h
  exact ⟨fun g => Table.get?_put t.groups row g, hother, fun r => rfl⟩

theorem Creation.insert_frame (c : Creation) (t : Tables) :
    (∀ g, g ≠ c.group.groupId → groupView g (c.insert t).1 = groupView g t) ∧
      ∀ r, (c.insert t).1.getResolution r = t.getResolution r := by
  unfold Creation.insert
  split
  · exact ⟨fun _ _ => rfl, fun _ => rfl⟩
  · rename_i u hsave
    obtain ⟨-, rfl⟩ := saveGroup_ok hsave
    obtain ⟨stored, heq, hother, -⟩ := saveMembers_eq c.group.groupId c.pendingMembers
      { t with groups := t.groups.put c.group }
    rw [heq]
    refine ⟨fun g hg => ?_, fun r => rfl⟩
    apply Prod.ext
    · exact Table.get?_put_of_ne t.groups (Ne.symm hg)
    · exact congrArg (fun o => o.getD []) (hother g hg)

theorem Creation.commit_cases (h : c.commit t = .ok t') :
    t' = (c.insert t).1 ∨
    ∃ g row members, c.concurrent t = some g ∧ row.groupId = g.groupId ∧
      commitRewrite row members (c.insert t).1 = .ok t' := by
  unfold Creation.commit at h
  split at h
  · exact .inl (Except.ok.inj h).symm
  · split at h
    · cases h
    · rename_i g hg
      exact .inr ⟨g, rewrittenGroup g _ _ _, _, hg, rfl, h⟩

theorem getResolution_updateResolution_of_ne {resolutionId : Option String}
    {f : GroupResolution → GroupResolution} {r : String} (hr : some r ≠ resolutionId) :
    (t.updateResolution resolutionId f).getResolution r = t.getResolution r := by
  obtain ⟨resolutions, heq, hget⟩ := updateResolution_eq t resolutionId f
  rw [heq]
  exact (hget r).trans (if_neg hr)

theorem groupView_updateResolution (t : Tables) (resolutionId : Option String)
    (f : GroupResolution → GroupResolution) (g : String) :
    groupView g (t.updateResolution resolutionId f) = groupView g t := by
  obtain ⟨resolutions, heq, -⟩ := updateResolution_eq t resolutionId f
  rw [heq]
  rfl

theorem groupView_updateRow_of_ne {f : CandidateGroup → CandidateGroup} (hg : g ≠ groupId) :
    groupView g (t.updateRow groupId f) = groupView g t := by
  unfold groupView
  rw [getGroup_updateRow, if_neg hg, getMembers_updateRow]

/-- What a successful rejection leaves. -/
theorem ResolveRequest.reject_ok (h : r.reject target t = .ok t') :
    t.getResolution r.mintedResolutionId = none ∧
      t' = ({ t with resolutions := t.resolutions.put (r.resolution target.group true none) } :
        Tables).updateGroupStatus target.group.groupId .resolved (some r.mintedResolutionId) := by
  unfold ResolveRequest.reject at h
  obtain ⟨u, hsave, h⟩ := bind_eq_ok.mp h
  obtain ⟨hnew, rfl⟩ := saveResolution_ok hsave
  exact ⟨hnew, (pure_eq_ok.mp h).symm⟩

theorem ResolveRequest.startApproval_ok {u : Tables} {id : Option String}
    (h : r.startApproval target a t = .ok (u, id)) :
    (target.isRetry = true ∧ id = target.group.resolutionId ∧
      u = t.stampResolutionReceiptId target.group.resolutionId r.call.receiptId) ∨
    ∃ prior, target.isRetry = false ∧ id = some r.mintedResolutionId ∧
      t.getResolution r.mintedResolutionId = none ∧
      u = ({ t with resolutions := t.resolutions.put (r.resolution target.group false prior) } :
        Tables).updateGroupStatus target.group.groupId .applying (some r.mintedResolutionId) := by
  unfold ResolveRequest.startApproval at h
  split at h
  · rename_i hretry
    obtain ⟨rfl, rfl⟩ := Prod.mk.inj (Except.ok.inj h)
    exact .inl ⟨hretry, rfl, rfl⟩
  · rename_i hretry
    obtain ⟨⟨⟩, -, h⟩ := bind_eq_ok.mp h
    obtain ⟨v, hsave, h⟩ := bind_eq_ok.mp h
    obtain ⟨hnew, rfl⟩ := saveResolution_ok hsave
    obtain ⟨rfl, rfl⟩ := Prod.mk.inj (pure_eq_ok.mp h)
    exact .inr ⟨_, by simpa using hretry, rfl, hnew, rfl⟩

theorem ResolveRequest.approve_ok (h : r.approve target t = .ok t') :
    ∃ a u id graph, r.startApproval target a t = .ok (u, id) ∧
      approveGroupEdges r.w r.guards t.graph target.group.relationshipType target.group.groupId id
        (r.approvalMembers target) r.stampExisting r.call = .ok graph ∧
      t' = confirmApproval target.group.groupId id { u with graph := graph } := by
  unfold ResolveRequest.approve at h
  obtain ⟨⟨⟩, howned, h⟩ := bind_eq_ok.mp h
  obtain ⟨⟨⟩, -, h⟩ := bind_eq_ok.mp h
  obtain ⟨a, hvalid, h⟩ := bind_eq_ok.mp h
  obtain ⟨⟨⟩, hguards, h⟩ := bind_eq_ok.mp h
  obtain ⟨⟨u, id⟩, hstart, h⟩ := bind_eq_ok.mp h
  obtain ⟨k, happly, h⟩ := bind_eq_ok.mp h
  obtain ⟨⟨⟩, -, h⟩ := bind_eq_ok.mp h
  refine ⟨a, u, id, _, hstart, ?_, (pure_eq_ok.mp h).symm⟩
  unfold approveGroupEdges
  rw [howned, hvalid]
  simp only [bind, Except.bind] at *
  rw [hguards, happly]
  cases r.stampExisting <;> rfl

theorem groupView_confirmApproval_of_ne {id : Option String} (hg : g ≠ groupId) :
    groupView g (confirmApproval groupId id t) = groupView g t :=
  (groupView_updateRow_of_ne hg).trans (groupView_updateResolution t id _ g)

theorem ResolveRequest.groupView_startApproval_of_ne {u : Tables} {id : Option String}
    (h : r.startApproval target a t = .ok (u, id)) (hg : g ≠ target.group.groupId) :
    groupView g u = groupView g t := by
  rcases startApproval_ok h with ⟨-, -, rfl⟩ | ⟨prior, -, -, -, rfl⟩
  · exact groupView_updateResolution t _ _ g
  · exact groupView_updateRow_of_ne hg

theorem ResolveRequest.commit_ok (h : r.commit target t = .ok t') :
    target.group.pendingVersion = r.expectedPendingVersion ∧
      ((r.action = .reject ∧ r.reject target t = .ok t') ∨
        (r.action = .approve ∧ r.approve target t = .ok t')) := by
  unfold ResolveRequest.commit at h
  obtain ⟨⟨⟩, -, h⟩ := bind_eq_ok.mp h
  obtain ⟨⟨⟩, hversion, h⟩ := bind_eq_ok.mp h
  refine ⟨not_not.mp (refuseIf_eq_ok.mp hversion), ?_⟩
  cases haction : r.action with
  | reject =>
    rw [haction] at h
    exact .inl ⟨rfl, h⟩
  | approve =>
    rw [haction] at h
    exact .inr ⟨rfl, h⟩

theorem ResolveRequest.groupView_commit_of_ne (h : r.commit target t = .ok t')
    (hg : g ≠ target.group.groupId) : groupView g t' = groupView g t := by
  obtain ⟨-, ⟨-, hreject⟩ | ⟨-, happrove⟩⟩ := commit_ok h
  · obtain ⟨-, rfl⟩ := reject_ok hreject
    exact groupView_updateRow_of_ne hg
  · obtain ⟨a, u, id, graph, hstart, -, rfl⟩ := approve_ok happrove
    have hgraph : groupView g { u with graph := graph } = groupView g u := rfl
    rw [groupView_confirmApproval_of_ne hg, hgraph]
    exact groupView_startApproval_of_ne hstart hg

theorem mem_orderedUnique {values : List String} {v : String} (h : v ∈ orderedUnique values) :
    v ∈ values := by
  unfold orderedUnique at h
  suffices hgen : ∀ (rest seen : List String),
      v ∈ rest.foldl (fun seen v => if v ∈ seen then seen else seen ++ [v]) seen →
        v ∈ seen ∨ v ∈ rest from (hgen values [] h).resolve_left (by simp)
  intro rest
  induction rest with
  | nil =>
    intro seen h
    exact .inl h
  | cons q rest ih =>
    intro seen h
    rcases ih _ h with hseen | hrest
    · simp only at hseen
      split_ifs at hseen
      · exact .inl hseen
      · rcases List.mem_append.mp hseen with hold | hnew
        · exact .inl hold
        · exact .inr (List.mem_cons.mpr (.inl (List.mem_singleton.mp hnew)))
    · exact .inr (List.mem_cons_of_mem _ hrest)

theorem DirectWrite.conflicts_open (h : g ∈ d.conflicts t) :
    ∃ row, t.getGroup g = some row ∧ row.isOpen = true := by
  obtain ⟨r, -, hr⟩ := List.mem_flatMap.mp (mem_orderedUnique h)
  obtain ⟨row, hrow, rfl⟩ := List.mem_map.mp hr
  obtain ⟨hmem, htest⟩ := List.mem_filter.mp hrow
  simp only [Bool.and_eq_true] at htest
  exact ⟨row, Table.get?_of_mem_rows hmem, htest.1.1.1.2⟩

theorem DirectWrite.annotate_frame (d : DirectWrite) (t : Tables) (groupId : String) :
    (∀ g, g ≠ groupId → groupView g (d.annotate t groupId) = groupView g t) ∧
      ∀ r, (d.annotate t groupId).getResolution r = t.getResolution r := by
  unfold DirectWrite.annotate
  split
  · exact ⟨fun _ _ => rfl, fun _ => rfl⟩
  · split
    · exact ⟨fun g hg => groupView_updateRow_of_ne hg, getResolution_updateRow t groupId _⟩
    · exact ⟨fun _ _ => rfl, fun _ => rfl⟩

theorem DirectWrite.annotations_frame (d : DirectWrite) (ids : List String) (t : Tables) :
    (∀ g, g ∉ ids → groupView g (ids.foldl d.annotate t) = groupView g t) ∧
      ∀ r, (ids.foldl d.annotate t).getResolution r = t.getResolution r := by
  induction ids generalizing t with
  | nil => exact ⟨fun _ _ => rfl, fun _ => rfl⟩
  | cons id ids ih =>
    have hhead := d.annotate_frame t id
    have hrest := ih (d.annotate t id)
    constructor
    · intro g hg
      have hne : g ≠ id := fun heq => hg (heq ▸ List.mem_cons_self)
      exact (hrest.1 g fun hmem => hg (List.mem_cons_of_mem _ hmem)).trans (hhead.1 g hne)
    · intro r
      exact (hrest.2 r).trans (hhead.2 r)

theorem DirectWrite.commit_ok (h : d.commit t = .ok t') :
    (∀ g, groupView g t' = groupView g ((d.conflicts t).foldl d.annotate t)) ∧
      ∀ r, t'.getResolution r = t.getResolution r := by
  unfold DirectWrite.commit at h
  obtain ⟨graph, -, h⟩ := bind_eq_ok.mp h
  obtain rfl := pure_eq_ok.mp h
  exact ⟨fun _ => rfl, (d.annotations_frame (d.conflicts t) t).2⟩

theorem Creation.groupView_commit_of_not_mem (h : c.commit t = .ok t')
    (hg : g ∉ (Plan.propose (.create c)).writes t) : groupView g t' = groupView g t := by
  have hminted : g ≠ c.group.groupId := fun heq => hg (heq ▸ List.mem_cons_self)
  have hinsert := (c.insert_frame t).1 g hminted
  rcases commit_cases h with rfl | ⟨concurrent, row, members, hconcurrent, hid, hrewrite⟩
  · exact hinsert
  · have hother : g ≠ row.groupId := by
      intro heq
      apply hg
      simp [Plan.writes, hconcurrent, heq, hid]
    obtain ⟨hrows, hmembers, -⟩ := commitRewrite_ok hrewrite
    refine Eq.trans ?_ hinsert
    apply Prod.ext
    · exact (hrows g).trans (if_neg (Ne.symm hother))
    · exact hmembers g hother

theorem groupSystem_framed : Framed groupSystem groupView := by
  intro p t t' h g hg
  have hcommit : p.commit t = .ok t' := h
  have hwrites : g ∉ p.writes t := hg
  unfold Plan.commit at hcommit
  unfold Plan.writes at hwrites
  split at hcommit
  · rw [Except.ok.inj hcommit]
  · rename_i pending
    obtain rfl := Except.ok.inj hcommit
    exact groupView_updateRow_of_ne fun heq => hwrites (heq ▸ List.mem_cons_self)
  · rename_i row members
    have hne : g ≠ row.groupId := fun heq => hwrites (heq ▸ List.mem_cons_self)
    obtain ⟨hrows, hmembers, -⟩ := commitRewrite_ok hcommit
    exact Prod.ext ((hrows g).trans (if_neg (Ne.symm hne))) (hmembers g hne)
  · exact Creation.groupView_commit_of_not_mem hcommit hg
  · exact ResolveRequest.groupView_commit_of_ne hcommit
      fun heq => hwrites (heq ▸ List.mem_cons_self)
  · rename_i d
    exact ((DirectWrite.commit_ok hcommit).1 g).trans
      ((d.annotations_frame (d.conflicts t) t).1 g hwrites)

end Specification

end Cruxible.GroupRequests
