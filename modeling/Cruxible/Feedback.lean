import Cruxible.DirectWrites

/-!
# Feedback on relationships

A verdict on one claim. The target is resolved once against the loaded graph,
with the claim id taking precedence over the edge key, and the verdict is then
applied through the tuple and edge key of the target. Accepting and rejecting
move the review slice; correcting also merges properties. The profile of the
relationship type constrains the reason code and the scope hints.
-/
namespace Cruxible.Feedback
open JsonValue PythonDict AssertionState AppendOnly Fallible Cruxible.Graph PropertyValidation
open GraphOperations GroupDrift DirectWrites

inductive FeedbackInputAction where
  | accept
  | reject
  | correct
  | approve
  | flag
  deriving DecidableEq, Repr

inductive FeedbackAction where
  | accept
  | reject
  | correct
  deriving DecidableEq, Repr

def FeedbackAction.text : FeedbackAction → String
  | .accept => "accept"
  | .reject => "reject"
  | .correct => "correct"

/-- `derived_actor_kind`, in the vocabulary of the review slice. -/
def derivedActorKind : Option GovernedActorContext → RelationshipReviewSource
  | none => .unknown
  | some a =>
      match a.actorType with
      | .humanUser => .human
      | .serviceAccount => .agent
      | .system => .system

def actorKindText : RelationshipReviewSource → String
  | .system => "system"
  | .human => "human"
  | .agent => "agent"
  | .group => "group"
  | .unknown => "unknown"

/-- The part of a feedback profile that constrains a request: the scope keys
that each reason code requires, and the declared scope keys. -/
structure FeedbackProfileSchema where
  reasonCodes : Dict String (List String) := ∅
  scopeKeys : List String := []

structure FeedbackRequest where
  action : FeedbackInputAction
  target : RelationshipInstance
  reasonCode : Option String := none
  scopeHints : Properties := ∅
  corrections : Option Properties := none
  groupOverride : Bool := false

/-- The normalized record, as far as its application reads it. -/
structure FeedbackRecord where
  action : FeedbackAction
  target : RelationshipInstance
  corrections : Properties := ∅
  actorContext : Option GovernedActorContext := none

def deprecatedFlagActionMessage : String :=
  "The 'flag' feedback action was removed from the live write vocabulary and " ++
    "survives only as a deprecated refused alias because it un-approved an edge " ++
    "to 'pending' while storing no annotation, destroying the reviewer's actual " ++
    "signal. Use 'cruxible attest record --stance contradict' (MCP: cruxible_attest) to " ++
    "store the observation, evidence refs, and actor without changing review " ++
    "status. To adjudicate, use accept, reject, or correct."

def emptyCorrectionMessage : String :=
  "Feedback action 'correct' requires a non-empty 'corrections' object naming " ++
    "the properties to change. An empty correction still promoted the edge to " ++
    "'approved' while recording nothing that was corrected. Use action 'accept' " ++
    "to accept the claim as it stands, or 'cruxible attest record --stance contradict' " ++
    "to record a doubt without adjudicating."

/-- `_validate_feedback_request_values` followed by `_normalize_feedback_action`. -/
def normalizeFeedbackAction (q : FeedbackRequest) : Except CoreError FeedbackAction :=
  match q.action with
  | .flag => .error (.config deprecatedFlagActionMessage)
  | .accept | .approve => .ok .accept
  | .reject => .ok .reject
  | .correct =>
      if (q.corrections.getD ∅).entries = [] then .error (.config emptyCorrectionMessage)
      else .ok .correct

/-- `resolve_claim_target`: a blank claim id is an absent one, and disagreeing
disambiguators refuse. -/
def resolveClaimTarget (g : EntityGraph) (t : RelationshipInstance) :
    Except CoreError (Option RelationshipInstance) :=
  let label := t.fromType ++ ":" ++ t.fromId ++ " -[" ++ t.relationshipType ++ "]-> " ++
    t.toType ++ ":" ++ t.toId
  let tupleMatch := g.getRelationship t.fromType t.fromId t.toType t.toId t.relationshipType
    t.edgeKey
  match (t.claimId.map strip).filter (· ≠ "") with
  | none => .ok tupleMatch
  | some claimId =>
      match g.findRelationshipByClaimId claimId, tupleMatch with
      | none, some live => .error (.config ("claim_id '" ++ claimId ++
          "' is not a claim in this instance, but " ++ label ++
          " currently resolves to claim_id '" ++ live.claimId.getD "" ++ "'"))
      | none, none => .ok none
      | some byId, _ =>
          if byId.identityTuple ≠ t.identityTuple then
            .error (.config ("claim_id '" ++ claimId ++ "' is not the requested claim " ++ label))
          else if t.edgeKey.isSome ∧ byId.edgeKey ≠ t.edgeKey then
            .error (.config ("target disambiguators disagree: claim_id '" ++ claimId ++ "'"))
          else .ok (some byId)

/-- `_validate_feedback_inputs`. -/
def validateFeedbackInputs (profile : FeedbackProfileSchema) (relationshipType : String)
    (reasonCode : Option String) (scopeHints : Properties) (kind : RelationshipReviewSource) :
    Except CoreError Unit := do
  if kind ≠ .human ∧ reasonCode.getD "" = "" then
    throw (.config ("Feedback for relationship '" ++ relationshipType ++
      "' requires reason_code for a '" ++ actorKindText kind ++ "' actor"))
  match reasonCode with
  | none => pure ()
  | some code =>
      match profile.reasonCodes.get? code with
      | none => throw (.config ("Feedback for relationship '" ++ relationshipType ++
          "' uses unknown reason_code '" ++ code ++ "'"))
      | some required =>
          let missing := required.filter (fun k => !scopeHints.contains k)
          if missing ≠ [] then
            throw (.config ("Feedback reason_code '" ++ code ++ "' requires scope_hints for: " ++
              ", ".intercalate (sorted missing)))
  let unexpected := sorted (scopeHints.keys.filter (fun k => k ∉ profile.scopeKeys))
  if unexpected ≠ [] then
    throw (.config ("Feedback for relationship '" ++ relationshipType ++
      "' uses undeclared scope_hints: " ++ ", ".intercalate unexpected))

/-- The corrections of a record, validated as a patch. -/
def normalizeCorrections (w : WriteContext) (action : FeedbackAction) (relationshipType : String)
    (corrections : Properties) : Except CoreError Properties :=
  if action = .correct ∧ corrections.entries ≠ [] then
    match w.config.getRelationship relationshipType with
    | none => .error (.dataValidation
        ("relationship '" ++ relationshipType ++ "' not found in config") [])
    | some schema => do
        let v ← validatePropertyPayload w.rt w.config schema.properties corrections false none none
        if v.errors = [] then return v.properties
        else throw (.dataValidation "feedback corrections failed property validation" v.errors)
  else .ok corrections

/-- The override asks for a resolved edge. The target already carries the
resolved claim id when the ambiguity count would be taken, so only the first
check can refuse. -/
def checkGroupOverride (groupOverride : Bool) (resolved : Option RelationshipInstance) :
    Except CoreError Unit :=
  if groupOverride = true ∧ resolved = none then
    .error (.config "group_override requires the edge to exist in the graph")
  else .ok ()

/-- `_normalize_feedback_record`. -/
def normalizeFeedbackRecord (w : WriteContext) (profiles : Dict String FeedbackProfileSchema)
    (g : EntityGraph) (q : FeedbackRequest) (actorContext : Option GovernedActorContext) :
    Except CoreError FeedbackRecord := do
  let action ← normalizeFeedbackAction q
  let resolved ← resolveClaimTarget g q.target
  let target := match resolved with
    | some r => { q.target with claimId := r.claimId }
    | none => q.target
  let corrections ← normalizeCorrections w action target.relationshipType (q.corrections.getD ∅)
  checkGroupOverride q.groupOverride resolved
  match profiles.get? target.relationshipType with
  | some profile =>
      validateFeedbackInputs profile target.relationshipType q.reasonCode q.scopeHints
        (derivedActorKind actorContext)
  | none => pure ()
  return { action := action, target := target, corrections := corrections,
           actorContext := actorContext }

/-- `_enforce_feedback_governance`: the tier of the caller, then the kill
switch. Every action of the live vocabulary asks for the same tier. -/
def enforceFeedbackGovernance (w : WriteContext) (graphWrite : Bool)
    (records : List FeedbackRecord) : Except CoreError Unit :=
  if records ≠ [] ∧ graphWrite = false then
    .error (.permissionDenied "cruxible_feedback_adjudicate" "GRAPH_WRITE")
  else
    match records.find? (fun r => r.action ≠ .reject && envRefusesDirectWrites w) with
    | some r => .error (.directWriteRefused "feedback" r.target.relationshipType r.action.text "")
    | none => .ok ()

def FeedbackAction.reviewStatus : FeedbackAction → RelationshipReviewStatus
  | .accept | .correct => .approved
  | .reject => .rejected

/-- The metadata that a verdict leaves on the edge it found: the review slice
and the provenance stamp. -/
def feedbackMetadata (f : FeedbackRecord) (now : Timestamp) (m : RelationshipMetadata) :
    RelationshipMetadata :=
  let actor := "feedback:" ++ f.action.text
  { m with
    provenance := some (backfillProvenanceOnTouch m.provenance actor f.actorContext now),
    assertion := { m.assertion with
      review := { m.assertion.review with
        status := f.action.reviewStatus, source := derivedActorKind f.actorContext,
        updatedAt := some now, updatedBy := some actor, actorContext := f.actorContext } } }

/-- `apply_feedback`: an ambiguous tuple refuses, a missing edge changes
nothing. -/
def applyFeedback (g : EntityGraph) (f : FeedbackRecord) (now : Timestamp) :
    Except CoreError EntityGraph :=
  let t := f.target
  if t.edgeKey = none ∧
      1 < g.relationshipCountBetween t.fromType t.fromId t.toType t.toId t.relationshipType then
    .error (.relationshipAmbiguity t.fromType t.fromId t.toType t.toId t.relationshipType)
  else
    let metadata := match g.getRelationship t.fromType t.fromId t.toType t.toId t.relationshipType
        t.edgeKey with
      | some existing => feedbackMetadata f now existing.metadata
      | none => feedbackMetadata f now {}
    let updates := match f.action with
      | .correct => some f.corrections
      | .accept | .reject => none
    .ok (g.updateRelationshipState t.fromType t.fromId t.toType t.toId t.relationshipType
      updates (some metadata) t.edgeKey)

/-- `_apply_feedback_record`. -/
def applyFeedbackRecord (g : EntityGraph) (f : FeedbackRecord) (groupOverride : Bool)
    (now : Timestamp) : Except CoreError EntityGraph := do
  let h ← applyFeedback g f now
  let t := f.target
  if groupOverride then
    match h.getRelationship t.fromType t.fromId t.toType t.toId t.relationshipType t.edgeKey with
    | none => return h
    | some r =>
        return h.updateRelationshipState t.fromType t.fromId t.toType t.toId t.relationshipType none
          (some { r.metadata with
            assertion := { r.metadata.assertion with groupOverride := true } }) t.edgeKey
  else return h

/-- `service_feedback_batch`, up to the persisted graph; `service_feedback` is
the case of one request. -/
def serviceFeedback (w : WriteContext) (profiles : Dict String FeedbackProfileSchema)
    (graphWrite : Bool) (g : EntityGraph) (requests : List FeedbackRequest) (c : Call) :
    Except CoreError EntityGraph := do
  checkUpstreamTypeOwnership w [] (requests.map (·.target.relationshipType))
  let records ← requests.mapM (fun q => normalizeFeedbackRecord w profiles g q c.actorContext)
  enforceFeedbackGovernance w graphWrite records
  (records.zip requests).foldlM (fun g p => applyFeedbackRecord g p.1 p.2.groupOverride c.now) g

/-- The rewrite of the edge that a verdict reaches. -/
def feedbackEdge (f : FeedbackRecord) (now : Timestamp) (e : EdgeData) : EdgeData :=
  { e with
    properties := e.properties.update (match f.action with
      | .correct => f.corrections
      | .accept | .reject => ∅),
    metadata := feedbackMetadata f now e.metadata }

def overrideEdge (e : EdgeData) : EdgeData :=
  { e with metadata := { e.metadata with
      assertion := { e.metadata.assertion with groupOverride := true } } }

variable {f : FeedbackRecord} {g h : EntityGraph} {now : Timestamp}

theorem applyFeedback_ok (hok : applyFeedback g f now = .ok h) :
    h = g.modifyEdge f.target.fromType f.target.fromId f.target.toType f.target.toId
      f.target.relationshipType f.target.edgeKey (feedbackEdge f now) := by
  unfold applyFeedback at hok
  simp only at hok
  split_ifs at hok
  rw [Except.ok.injEq] at hok
  rw [← hok]
  apply EntityGraph.modifyEdge_congr
  intro e he
  cases hact : f.action <;> simp [EntityGraph.getRelationship, he, feedbackEdge, hact]

variable {groupOverride : Bool}

theorem applyFeedbackRecord_ok (hok : applyFeedbackRecord g f groupOverride now = .ok h) :
    ∃ k, k = g.modifyEdge f.target.fromType f.target.fromId f.target.toType f.target.toId
        f.target.relationshipType f.target.edgeKey (feedbackEdge f now) ∧
      h = if groupOverride then k.modifyEdge f.target.fromType f.target.fromId f.target.toType
        f.target.toId f.target.relationshipType f.target.edgeKey overrideEdge else k := by
  unfold applyFeedbackRecord at hok
  obtain ⟨k, hk, hok⟩ := bind_eq_ok.mp hok
  refine ⟨k, applyFeedback_ok hk, ?_⟩
  split_ifs at hok ⊢ with hov
  · simp only at hok
    split at hok
    · rename_i hnone
      obtain rfl := pure_eq_ok.mp hok
      rw [EntityGraph.getRelationship, Option.map_eq_none_iff] at hnone
      exact (EntityGraph.modifyEdge_of_not_found hnone).symm
    · rename_i r hr
      rw [pure_eq_ok] at hok
      rw [← hok]
      obtain ⟨e, he, rfl⟩ := Option.map_eq_some_iff.mp hr
      apply EntityGraph.modifyEdge_congr
      intro e' he'
      obtain rfl : e = e' := by
        rw [he] at he'
        exact Option.some.inj he'
      simp [overrideEdge, Dict.update, Dict.empty, EmptyCollection.emptyCollection]
  · exact (pure_eq_ok.mp hok).symm

theorem applyFeedbackRecord_find (hok : applyFeedbackRecord g f groupOverride now = .ok h) :
    h.findRelationshipEdge f.target.fromType f.target.fromId f.target.toType f.target.toId
        f.target.relationshipType f.target.edgeKey =
      (g.findRelationshipEdge f.target.fromType f.target.fromId f.target.toType f.target.toId
        f.target.relationshipType f.target.edgeKey).map
          (fun e => if groupOverride then overrideEdge (feedbackEdge f now e)
            else feedbackEdge f now e) := by
  obtain ⟨k, rfl, rfl⟩ := applyFeedbackRecord_ok hok
  have hfirst := EntityGraph.findRelationshipEdge_modifyEdge (f := feedbackEdge f now) g
    f.target.fromType f.target.fromId f.target.toType f.target.toId f.target.relationshipType
    f.target.edgeKey fun _ => ⟨rfl, rfl, rfl, rfl⟩
  cases groupOverride with
  | false => exact hfirst
  | true =>
    rw [if_pos rfl, EntityGraph.findRelationshipEdge_modifyEdge, hfirst, Option.map_map]
    · rfl
    · exact fun _ => ⟨rfl, rfl, rfl, rfl⟩

end Cruxible.Feedback
