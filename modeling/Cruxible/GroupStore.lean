import Cruxible.CanonicalJson
import Cruxible.GovernedWrites
import Cruxible.KeyedTable

/-!
# The tables of candidate groups

Groups, their members and the resolutions, as the statements of the group store
read and write them. A group row is upserted as a whole; at most one proposal
may be pending for a relationship type and signature, and a write that would
make a second one is refused. Members belong to a group id, one for each tuple.

Statements never fail half-way: a refused insert leaves the tables as they were.
-/
namespace Cruxible.GroupStore
open JsonValue PythonDict KeyedTable AssertionState Cruxible.Graph PropertyValidation GovernedWrites

inductive GroupStatus where
  | pendingReview
  | applying
  | resolved
  | withdrawn
  | autoResolved
  deriving DecidableEq, Repr

def GroupStatus.text : GroupStatus → String
  | .pendingReview => "pending_review"
  | .applying => "applying"
  | .resolved => "resolved"
  | .withdrawn => "withdrawn"
  | .autoResolved => "auto_resolved"

inductive GroupKind where
  | propose
  | revoke
  deriving DecidableEq, Repr

inductive ReviewPriority where
  | critical
  | review
  | normal
  deriving DecidableEq, Repr

inductive ResolutionAction where
  | approve
  | reject
  deriving DecidableEq, Repr

inductive TrustStatus where
  | trusted
  | watch
  | invalidated
  deriving DecidableEq, Repr

inductive ResolutionSource where
  | review
  | autoResolved
  deriving DecidableEq, Repr

/-- A signal's stance has the three values of an attestation's. -/
structure CandidateSignal where
  signalSource : String
  signal : AttestationStance
  evidence : String := ""
  evidenceRefs : List Value := []
  basis : Option Value := none
  deriving DecidableEq

structure QuerySourceEvidence where
  queryReceiptId : String
  payload : Value := .null
  deriving DecidableEq

structure CandidateMember where
  relationshipType : String
  fromType : String
  fromId : String
  toType : String
  toId : String
  properties : Properties := ∅
  signals : List CandidateSignal := []
  sourceQueryEvidence : List QuerySourceEvidence := []
  evidenceRefs : List Value := []
  evidenceRationale : Option String := none
  deriving DecidableEq

/-- `as_relationship`: the candidate edge without governance fields. -/
def CandidateMember.asRelationship (m : CandidateMember) : RelationshipInstance :=
  { relationshipType := m.relationshipType, fromType := m.fromType, fromId := m.fromId,
    toType := m.toType, toId := m.toId, properties := m.properties }

abbrev Tuple := String × String × String × String × String

def CandidateMember.identityTuple (m : CandidateMember) : Tuple := m.asRelationship.identityTuple

/-- `_ProposalMetadata`. -/
structure ProposalMetadata where
  thesisText : String := ""
  thesisFacts : Properties := ∅
  analysisState : Properties := ∅
  signalSourcesUsed : List String := []
  suggestedPriority : Option String := none
  sourceWorkflowName : Option String := none
  sourceWorkflowReceiptId : Option String := none
  sourceQueryReceiptIds : List String := []
  sourceTraceIds : List String := []
  sourceStepIds : List String := []
  proposedActorContext : Option GovernedActorContext := none
  deriving DecidableEq

/-- A row of `candidate_groups`. What a proposal supplies stands in `metadata`. -/
structure CandidateGroup where
  groupId : String
  relationshipType : String
  signature : String
  status : GroupStatus := .pendingReview
  groupKind : GroupKind := .propose
  metadata : ProposalMetadata := {}
  memberCount : Nat := 0
  pendingVersion : Nat := 1
  reviewPriority : ReviewPriority := .normal
  resolutionId : Option String := none
  createdAt : Timestamp := 0
  deriving DecidableEq

/-- A row of `group_resolutions`. -/
structure GroupResolution where
  resolutionId : String
  relationshipType : String
  groupSignature : String
  action : ResolutionAction
  rationale : String := ""
  thesisText : String := ""
  thesisFacts : Properties := ∅
  analysisState : Properties := ∅
  trustStatus : TrustStatus := .watch
  trustReason : String := ""
  trustActorContext : Option GovernedActorContext := none
  confirmed : Bool := false
  resolutionSource : ResolutionSource := .review
  resolvedAt : Timestamp := 0
  resolvedActorContext : Option GovernedActorContext := none
  receiptId : Option String := none
  deriving DecidableEq

/-- The group tables, beside the graph that the same transaction writes. -/
structure Tables where
  groups : Table CandidateGroup.groupId := ∅
  members : Dict String (List CandidateMember) := ∅
  resolutions : Table GroupResolution.resolutionId := ∅
  graph : EntityGraph := {}

/-- The predicate of the two partial indexes on pending proposals. -/
def CandidateGroup.isPendingProposal (g : CandidateGroup) : Bool :=
  g.status = .pendingReview ∧ g.groupKind = .propose

/-- A group that still claims its tuples. -/
def CandidateGroup.isOpen (g : CandidateGroup) : Bool :=
  g.status = .pendingReview ∨ g.status = .applying

namespace Tables

def getGroup (t : Tables) (groupId : String) : Option CandidateGroup := t.groups.get? groupId

/-- Whether another row already holds the pending place of `g`. -/
def pendingConflict (t : Tables) (g : CandidateGroup) : Bool :=
  g.isPendingProposal && t.groups.rows.any fun other =>
    other.isPendingProposal && other.groupId ≠ g.groupId &&
      other.relationshipType = g.relationshipType && other.signature = g.signature

/-- `save_group`: the upsert of a whole row, refused by the unique index. -/
def saveGroup (t : Tables) (g : CandidateGroup) : Except CoreError Tables :=
  if t.pendingConflict g then
    .error (.storageIntegrity "idx_candidate_groups_pending_unique")
  else .ok { t with groups := t.groups.put g }

/-- An `UPDATE … WHERE group_id = ?`, which names no row when there is none. -/
def updateRow (t : Tables) (groupId : String) (f : CandidateGroup → CandidateGroup) : Tables :=
  match t.getGroup groupId with
  | none => t
  | some g => { t with groups := t.groups.put { f g with groupId := g.groupId } }

/-- `update_group_status`: an absent resolution id keeps the stored one. -/
def updateGroupStatus (t : Tables) (groupId : String) (status : GroupStatus)
    (resolutionId : Option String) : Tables :=
  t.updateRow groupId fun g =>
    { g with status := status, resolutionId := resolutionId.or g.resolutionId }

/-- `update_group` with the two fields that a withdrawal sets. -/
def updateGroup (t : Tables) (groupId : String) (status : GroupStatus) (pendingVersion : Nat) :
    Tables :=
  t.updateRow groupId fun g => { g with status := status, pendingVersion := pendingVersion }

/-- `update_group_analysis_state`: the version is bumped with it. -/
def updateGroupAnalysisState (t : Tables) (groupId : String) (analysisState : Properties) :
    Tables :=
  t.updateRow groupId fun g =>
    { g with metadata := { g.metadata with analysisState := analysisState },
             pendingVersion := g.pendingVersion + 1 }

/-- `find_pending_group`, for proposals. -/
def findPendingGroup (t : Tables) (relationshipType signature : String) : Option CandidateGroup :=
  latestBy CandidateGroup.createdAt (t.groups.rows.filter fun g =>
    g.isPendingProposal && g.relationshipType = relationshipType && g.signature = signature)

def getMembers (t : Tables) (groupId : String) : List CandidateMember :=
  (t.members.get? groupId).getD []

/-- `save_members`: inserted one by one, so an insert that the primary key
refuses leaves the earlier ones in place. The flag tells whether all went in. -/
def saveMembers (t : Tables) (groupId : String) : List CandidateMember → Tables × Bool
  | [] => (t, true)
  | m :: ms =>
      if m.identityTuple ∈ (t.getMembers groupId).map CandidateMember.identityTuple then (t, false)
      else saveMembers { t with members := t.members.set groupId (t.getMembers groupId ++ [m]) }
        groupId ms

/-- `replace_members`, inside a transaction that a refusal rolls back. -/
def replaceMembers (t : Tables) (groupId : String) (members : List CandidateMember) :
    Except CoreError Tables :=
  match saveMembers { t with members := t.members.set groupId [] } groupId members with
  | (t, true) => .ok t
  | (_, false) => .error (.storageIntegrity "candidate_members")

/-- The open proposals of the type that hold one of the tuples, as
`find_pending_groups_for_tuples` collects them. -/
def findPendingGroupsForTuples (t : Tables) (relationshipType : String) (tuples : List Tuple)
    (excludeGroupId : Option String) : List CandidateGroup :=
  t.groups.rows.filter fun g =>
    g.relationshipType = relationshipType && g.isOpen && g.groupKind = .propose &&
      some g.groupId ≠ excludeGroupId &&
      (t.getMembers g.groupId).any fun m => m.identityTuple ∈ tuples

def getResolution (t : Tables) (resolutionId : String) : Option GroupResolution :=
  t.resolutions.get? resolutionId

def saveResolution (t : Tables) (r : GroupResolution) : Except CoreError Tables :=
  match t.getResolution r.resolutionId with
  | some _ => .error (.storageIntegrity "group_resolutions")
  | none => .ok { t with resolutions := t.resolutions.put r }

/-- An `UPDATE … WHERE resolution_id = ?`. -/
def updateResolution (t : Tables) (resolutionId : Option String)
    (f : GroupResolution → GroupResolution) : Tables :=
  match resolutionId.bind t.getResolution with
  | none => t
  | some r => { t with resolutions := t.resolutions.put { f r with resolutionId := r.resolutionId } }

/-- `confirm_resolution`: trust is not touched. -/
def confirmResolution (t : Tables) (resolutionId : Option String) : Tables :=
  t.updateResolution resolutionId fun r => { r with confirmed := true }

/-- `stamp_resolution_receipt_id`: a receipt that is already named stays. -/
def stampResolutionReceiptId (t : Tables) (resolutionId : Option String)
    (receiptId : Option String) : Tables :=
  t.updateResolution resolutionId fun r => { r with receiptId := r.receiptId.or receiptId }

/-- `find_resolution` for the latest confirmed approval of a signature. -/
def findConfirmedApproval (t : Tables) (relationshipType signature : String) :
    Option GroupResolution :=
  latestBy GroupResolution.resolvedAt (t.resolutions.rows.filter fun r =>
    r.relationshipType = relationshipType && r.groupSignature = signature &&
      r.action = .approve && r.confirmed)

/-- Whether the stored resolution of that id is confirmed. -/
def isConfirmed (t : Tables) (resolutionId : String) : Bool :=
  match t.getResolution resolutionId with
  | some r => r.confirmed
  | none => false

/-- `list_approved_relationship_tuples`, for proposals. -/
def listApprovedRelationshipTuples (t : Tables) (relationshipType signature : String) :
    List Tuple :=
  (t.groups.rows.filter fun g =>
    g.relationshipType = relationshipType && g.signature = signature && g.groupKind = .propose &&
      g.status = .resolved && (match g.resolutionId.bind t.getResolution with
        | some r => r.action = .approve && r.confirmed
        | none => false)).flatMap
    fun g => (t.getMembers g.groupId).map CandidateMember.identityTuple

end Tables

section Specification
variable {t t' : Tables}

theorem updateRow_eq (t : Tables) (groupId : String) (f : CandidateGroup → CandidateGroup) :
    ∃ groups, t.updateRow groupId f = { t with groups := groups } ∧
      ∀ g, groups.get? g = if g = groupId then
        (t.getGroup groupId).map (fun row => { f row with groupId := row.groupId })
        else t.getGroup g := by
  unfold Tables.updateRow
  cases hrow : t.getGroup groupId with
  | none =>
    refine ⟨t.groups, rfl, fun g => ?_⟩
    split_ifs with hg
    · rw [hg]
      exact hrow
    · rfl
  | some row =>
    refine ⟨_, rfl, fun g => ?_⟩
    have hkey : row.groupId = groupId := Table.key_of_get? hrow
    rw [Table.get?_put]
    simp only [hkey, eq_comm (a := groupId), Option.map_some]
    rfl

theorem getGroup_updateRow (t : Tables) (groupId : String) (f : CandidateGroup → CandidateGroup)
    (g : String) :
    (t.updateRow groupId f).getGroup g = if g = groupId then
      (t.getGroup groupId).map (fun row => { f row with groupId := row.groupId })
      else t.getGroup g := by
  obtain ⟨groups, heq, hget⟩ := updateRow_eq t groupId f
  rw [heq]
  exact hget g

@[simp] theorem getMembers_updateRow (t : Tables) (groupId : String)
    (f : CandidateGroup → CandidateGroup) (g : String) :
    (t.updateRow groupId f).getMembers g = t.getMembers g := by
  obtain ⟨groups, heq, -⟩ := updateRow_eq t groupId f
  rw [heq]
  rfl

@[simp] theorem getResolution_updateRow (t : Tables) (groupId : String)
    (f : CandidateGroup → CandidateGroup) (r : String) :
    (t.updateRow groupId f).getResolution r = t.getResolution r := by
  obtain ⟨groups, heq, -⟩ := updateRow_eq t groupId f
  rw [heq]
  rfl

@[simp] theorem graph_updateRow (t : Tables) (groupId : String)
    (f : CandidateGroup → CandidateGroup) : (t.updateRow groupId f).graph = t.graph := by
  obtain ⟨groups, heq, -⟩ := updateRow_eq t groupId f
  rw [heq]

variable {g : CandidateGroup}

theorem saveGroup_ok (h : t.saveGroup g = .ok t') :
    t.pendingConflict g = false ∧ t' = { t with groups := t.groups.put g } := by
  unfold Tables.saveGroup at h
  split_ifs at h with hconflict
  exact ⟨by simpa using hconflict, (Except.ok.inj h).symm⟩

theorem saveMembers_eq (groupId : String) (members : List CandidateMember) (t : Tables) :
    ∃ stored, (t.saveMembers groupId members).1 = { t with members := stored } ∧
      (∀ g, g ≠ groupId → stored.get? g = t.members.get? g) ∧
      ((t.saveMembers groupId members).2 = true →
        (stored.get? groupId).getD [] = t.getMembers groupId ++ members) := by
  induction members generalizing t with
  | nil => exact ⟨t.members, rfl, fun _ _ => rfl, fun _ => (List.append_nil _).symm⟩
  | cons m ms ih =>
    unfold Tables.saveMembers
    split_ifs with hdup
    · exact ⟨t.members, rfl, fun _ _ => rfl, fun hfalse => by cases hfalse⟩
    · obtain ⟨stored, heq, hother, hall⟩ :=
        ih { t with members := t.members.set groupId (t.getMembers groupId ++ [m]) }
      refine ⟨stored, heq, fun g hg => ?_, fun htrue => ?_⟩
      · rw [hother g hg]
        exact Dict.get?_set_of_ne _ _ (Ne.symm hg)
      · rw [hall htrue]
        simp [Tables.getMembers]

theorem replaceMembers_ok {groupId : String} {members : List CandidateMember}
    (h : t.replaceMembers groupId members = .ok t') :
    ∃ stored, t' = { t with members := stored } ∧
      (∀ g, g ≠ groupId → t'.getMembers g = t.getMembers g) ∧ t'.getMembers groupId = members := by
  unfold Tables.replaceMembers at h
  obtain ⟨stored, heq, hother, hall⟩ :=
    saveMembers_eq groupId members { t with members := t.members.set groupId [] }
  split at h
  · rename_i u hu
    obtain rfl := Except.ok.inj h
    rw [hu] at heq hall
    simp only at heq
    subst heq
    refine ⟨stored, rfl, fun g hg => ?_, ?_⟩
    · unfold Tables.getMembers
      rw [hother g hg, Dict.get?_set_of_ne _ _ (Ne.symm hg)]
    · have hstored := hall rfl
      simpa [Tables.getMembers] using hstored
  · cases h

theorem saveResolution_ok {r : GroupResolution} (h : t.saveResolution r = .ok t') :
    t.getResolution r.resolutionId = none ∧ t' = { t with resolutions := t.resolutions.put r } := by
  unfold Tables.saveResolution at h
  split at h
  · cases h
  · rename_i hnone
    exact ⟨hnone, (Except.ok.inj h).symm⟩

theorem updateResolution_eq (t : Tables) (resolutionId : Option String)
    (f : GroupResolution → GroupResolution) :
    ∃ resolutions, t.updateResolution resolutionId f = { t with resolutions := resolutions } ∧
      ∀ r, resolutions.get? r = if some r = resolutionId then
        (t.getResolution r).map (fun row => { f row with resolutionId := row.resolutionId })
        else t.getResolution r := by
  unfold Tables.updateResolution
  cases hrow : resolutionId.bind t.getResolution with
  | none =>
    refine ⟨t.resolutions, rfl, fun r => ?_⟩
    split_ifs with hr
    · subst hr
      have hnone : t.getResolution r = none := hrow
      rw [hnone]
      exact hnone
    · rfl
  | some row =>
    obtain ⟨id, rfl, hget⟩ := Option.bind_eq_some_iff.mp hrow
    refine ⟨_, rfl, fun r => ?_⟩
    have hkey : row.resolutionId = id := Table.key_of_get? hget
    rw [Table.get?_put]
    simp only [hkey, Option.some.injEq]
    by_cases hr : id = r
    · subst hr
      simp [hget, hkey]
    · rw [if_neg hr, if_neg (Ne.symm hr)]
      rfl

theorem findPendingGroup_some {relationshipType signature : String}
    (h : t.findPendingGroup relationshipType signature = some g) :
    t.getGroup g.groupId = some g ∧ g.status = .pendingReview ∧ g.groupKind = .propose ∧
      g.relationshipType = relationshipType ∧ g.signature = signature := by
  have hmem := mem_of_latestBy h
  obtain ⟨hrow, htest⟩ := List.mem_filter.mp hmem
  simp only [CandidateGroup.isPendingProposal, Bool.and_eq_true, decide_eq_true_eq] at htest
  exact ⟨Table.get?_of_mem_rows hrow, htest.1.1.1, htest.1.1.2, htest.1.2, htest.2⟩

end Specification

end Cruxible.GroupStore
