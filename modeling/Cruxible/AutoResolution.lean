import Cruxible.FreeWrites
import Cruxible.GroupStore
import Cruxible.WorkflowRuns

/-!
# Auto-resolution of proposed groups

A proposed group is approved at once if prior trust and its signals permit it and
nothing forces a review: no policy of the workflow that a member matches, and no
active override on the tuples of the members. Signals of advisory sources are
skipped, and an override is looked for on the first stored edge of a tuple.
-/
namespace Cruxible.AutoResolution
open JsonValue PythonDict AssertionState Cruxible.Graph PropertyValidation GraphOperations
  GovernedWrites
open GroupStore
open WorkflowRuns (matchesExactFilter)

inductive SignalRole where
  | blocking
  | required
  | advisory
  deriving DecidableEq

structure SignalPolicySchema where
  role : SignalRole := .required
  alwaysReviewOnUnsure : Bool := false
  requireEvidenceOnSupport : Bool := false

inductive AutoResolveWhen where
  | allSupport
  | noContradict

inductive RequiredTrust where
  | trustedOnly
  | trustedOrWatch

structure ProposalPolicySchema where
  signals : Dict String SignalPolicySchema := ∅
  autoResolveWhen : AutoResolveWhen := .allSupport
  autoResolveRequiresPriorTrust : RequiredTrust := .trustedOnly

def isUnevidencedSupportSignal (s : CandidateSignal) : Bool :=
  s.signal = .support && blank s.evidence && s.evidenceRefs = []

/-- The configuration of a signal's source, unless it is advisory. -/
def signalConfig (policy : ProposalPolicySchema) (s : CandidateSignal) :
    Option SignalPolicySchema :=
  (policy.signals.get? s.signalSource).filter fun c => c.role ≠ .advisory

def permits (policy : ProposalPolicySchema) (s : CandidateSignal) : Bool :=
  (signalConfig policy s).all fun c =>
    !(s.signal = .unsure && c.alwaysReviewOnUnsure) &&
    !(c.requireEvidenceOnSupport && isUnevidencedSupportSignal s) &&
    match policy.autoResolveWhen with
    | .allSupport => s.signal = .support
    | .noContradict => !(s.signal = .contradict && c.role = .blocking)

/-- `check_auto_resolve_signals`. -/
def checkAutoResolveSignals (members : List CandidateMember) (policy : ProposalPolicySchema) :
    Bool :=
  members.all fun m => m.signals.all (permits policy)

def isCritical (policy : ProposalPolicySchema) (s : CandidateSignal) : Bool :=
  (signalConfig policy s).any fun c => s.signal = .contradict && c.role = .blocking

def needsReview (policy : ProposalPolicySchema) (s : CandidateSignal) : Bool :=
  (signalConfig policy s).any fun c =>
    if s.signal = .contradict ∧ c.role = .blocking then false
    else if s.signal = .unsure then
      c.alwaysReviewOnUnsure || c.role = .blocking || c.role = .required
    else c.requireEvidenceOnSupport && isUnevidencedSupportSignal s

def deriveReviewPriority (members : List CandidateMember) (policy : Option ProposalPolicySchema)
    (prior : Option GroupResolution) : ReviewPriority :=
  match policy with
  | none => if prior.isNone then .review else .normal
  | some policy =>
      if prior.any (·.trustStatus = .invalidated) ||
          members.any (·.signals.any (isCritical policy)) then .critical
      else if prior.isNone || prior.any (·.trustStatus = .watch) ||
          members.any (·.signals.any (needsReview policy)) then .review
      else .normal

def overridden (m : RelationshipMetadata) : Bool :=
  m.assertion.groupOverride || m.assertion.review.status = .pending ||
    m.assertion.review.status = .rejected

def membersHaveActiveOverride (g : EntityGraph) (members : List CandidateMember) : Bool :=
  members.any fun m =>
    (g.getRelationship m.fromType m.fromId m.toType m.toId m.relationshipType).any fun r =>
      overridden r.metadata

def shouldAutoResolve (members : List CandidateMember) (policy : Option ProposalPolicySchema)
    (prior : Option GroupResolution) (forceReview hasOverride : Bool) : Bool :=
  if forceReview || hasOverride then false
  else
    match prior, policy with
    | some prior, some policy =>
        (match policy.autoResolveRequiresPriorTrust with
          | .trustedOnly => prior.trustStatus = .trusted
          | .trustedOrWatch => prior.trustStatus = .trusted || prior.trustStatus = .watch) &&
        checkAutoResolveSignals members policy
    | _, _ => false

/-- `parse_datetime`, where it succeeds, and the time of the call. -/
structure Clock where
  parse : String → Option Timestamp
  now : Timestamp

def isExpired (clock : Clock) (value : Option String) : Bool :=
  (value.bind clock.parse).any (· < clock.now)

inductive AppliesTo where
  | query
  | workflow
  deriving DecidableEq

inductive PolicyEffect where
  | suppress
  | requireReview
  deriving DecidableEq

structure DecisionPolicySchema where
  name : String
  appliesTo : AppliesTo := .workflow
  workflowName : Option String
  relationshipType : String
  effect : PolicyEffect
  fromMatch : Properties := ∅
  toMatch : Properties := ∅
  edgeMatch : Properties := ∅
  contextMatch : Properties := ∅
  expiresAt : Option String := none

/-- What a call reads beside the graph: the configuration, its decision policies, the
clock, and the workflow with its thesis facts. -/
structure ProposalContext where
  write : WriteContext
  decisionPolicies : List DecisionPolicySchema
  clock : Clock
  relationshipType : String
  workflowName : Option String
  thesisFacts : Properties

variable (c : ProposalContext) (g : EntityGraph)

/-- The policies of the workflow that have not expired. -/
def policiesInForce : List DecisionPolicySchema :=
  match c.workflowName with
  | none => []
  | some name => c.decisionPolicies.filter fun p =>
      p.appliesTo = .workflow && p.workflowName = some name &&
        p.relationshipType = c.relationshipType && !isExpired c.clock p.expiresAt

def contextValues (c : ProposalContext) : Properties :=
  ((Dict.ofList [("workflow_name", (c.workflowName.map Value.str).getD .null),
    ("relationship_type", .str c.relationshipType)]).update c.thesisFacts)

def matchesPolicy (m : CandidateMember) (p : DecisionPolicySchema) : Bool :=
  match g.getEntity m.fromType m.fromId, g.getEntity m.toType m.toId with
  | some a, some b =>
      matchesExactFilter
          (entityPropertiesWithIdentity c.write a.entityType a.entityId a.properties).entries
          p.fromMatch.entries &&
        matchesExactFilter
          (entityPropertiesWithIdentity c.write b.entityType b.entityId b.properties).entries
          p.toMatch.entries &&
        matchesExactFilter m.properties.entries p.edgeMatch.entries &&
        matchesExactFilter (contextValues c).entries p.contextMatch.entries
  | _, _ => false

structure Screening where
  kept : List CandidateMember := []
  forceReview : Bool := false
  summary : Dict String Nat

/-- One member of the loop. -/
def screen (s : Screening) (m : CandidateMember) : Screening :=
  let matched := (policiesInForce c).filter (matchesPolicy c g m)
  let summary := matched.foldl (fun t p => t.set p.name ((t.get? p.name).getD 0 + 1)) s.summary
  if matched.any (·.effect = .suppress) then { s with summary := summary }
  else
    { kept := s.kept ++ [m], summary := summary
      forceReview := s.forceReview || matched.any (·.effect = .requireReview) }

def applyWorkflowPolicies (members : List CandidateMember) (summary : Dict String Nat) :
    Screening :=
  if (policiesInForce c).isEmpty then { kept := members, summary := summary }
  else members.foldl (screen c g) { summary := summary }

/-- The stored edges of a member's tuple. -/
def tupleEdges (m : CandidateMember) : List EdgeData :=
  g.edges.filter (EntityGraph.edgeMatches (makeNodeId m.fromType m.fromId)
    (makeNodeId m.toType m.toId) m.relationshipType none)

/-- Where at most one edge of a tuple is stored, no reviewer stands against it; no kept
member matches a policy that requires a review; and no signal that counts speaks against. -/
structure Deferred (kept members : List CandidateMember) (policy : Option ProposalPolicySchema)
    (prior : Option GroupResolution) : Prop where
  overrides : ∀ m ∈ members, (tupleEdges g m).length ≤ 1 →
    ∀ e ∈ tupleEdges g m, overridden e.metadata = false
  policies : ∀ m ∈ kept, ∀ p ∈ policiesInForce c, p.effect = .requireReview →
    matchesPolicy c g m p = false
  signals : ∀ m ∈ members, ∀ s ∈ m.signals, ∀ q,
    policy.bind (·.signals.get? s.signalSource) = some q → q.role ≠ .advisory →
    ¬(s.signal = .contradict ∧ q.role = .blocking) ∧
      ¬(s.signal = .unsure ∧ q.alwaysReviewOnUnsure = true) ∧
      ¬(isUnevidencedSupportSignal s = true ∧ q.requireEvidenceOnSupport = true)
  priority : deriveReviewPriority members policy prior ≠ .critical

variable {c g} {members kept : List CandidateMember} {policy : Option ProposalPolicySchema}
  {prior : Option GroupResolution}

/-- A screening that forces no review kept no member that a policy wants reviewed. -/
def Unforced (c : ProposalContext) (g : EntityGraph) (s : Screening) : Prop :=
  s.forceReview = false → ∀ m ∈ s.kept, ∀ p ∈ policiesInForce c, p.effect = .requireReview →
    matchesPolicy c g m p = false

theorem unforced_screen {s : Screening} (h : Unforced c g s) (m : CandidateMember) :
    Unforced c g (screen c g s m) := by
  unfold screen
  simp only
  split_ifs with hsuppress
  · exact h
  · intro hforce m' hm' p hp heffect
    have ⟨hbefore, hnow⟩ := Bool.or_eq_false_iff.mp hforce
    rcases List.mem_append.mp hm' with hm' | hm'
    · exact h hbefore m' hm' p hp heffect
    · rw [List.mem_singleton.mp hm']
      by_contra hmatch
      have hmem : p ∈ (policiesInForce c).filter (matchesPolicy c g m) :=
        List.mem_filter.mpr ⟨hp, by simpa using hmatch⟩
      have hany := List.any_eq_false.mp hnow p hmem
      simp [heffect] at hany

theorem unforced_applyWorkflowPolicies (summary : Dict String Nat) :
    Unforced c g (applyWorkflowPolicies c g members summary) := by
  unfold applyWorkflowPolicies
  split_ifs with hnone
  · intro _ m _ p hp
    rw [List.isEmpty_iff.mp hnone] at hp
    cases hp
  · apply List.foldlRecOn members (screen c g) (motive := Unforced c g)
    · intro _ m hm
      cases hm
    · intro s hs m _
      exact unforced_screen hs m

theorem permits_cases {policy : ProposalPolicySchema} {s : CandidateSignal}
    {q : SignalPolicySchema} (h : permits policy s = true)
    (hq : policy.signals.get? s.signalSource = some q) (hrole : q.role ≠ .advisory) :
    ¬(s.signal = .contradict ∧ q.role = .blocking) ∧
      ¬(s.signal = .unsure ∧ q.alwaysReviewOnUnsure = true) ∧
      ¬(isUnevidencedSupportSignal s = true ∧ q.requireEvidenceOnSupport = true) := by
  have hconfig : signalConfig policy s = some q := by simp [signalConfig, hq, hrole]
  rw [permits, hconfig, Option.all_some, Bool.and_eq_true, Bool.and_eq_true] at h
  have ⟨⟨hunsure, hevidence⟩, hwhen⟩ := h
  refine ⟨?_, ?_, ?_⟩
  · rintro ⟨hcontradict, hblocking⟩
    cases hpolicy : policy.autoResolveWhen <;> simp [hpolicy, hcontradict, hblocking] at hwhen
  · rintro ⟨hunsure', halways⟩
    simp [hunsure', halways] at hunsure
  · rintro ⟨hunevidenced, hrequired⟩
    simp [hunevidenced, hrequired] at hevidence

theorem isCritical_of_permits {policy : ProposalPolicySchema} {s : CandidateSignal}
    (h : permits policy s = true) : isCritical policy s = false := by
  unfold isCritical
  cases hconfig : signalConfig policy s with
  | none => rfl
  | some q =>
    rw [permits, hconfig, Option.all_some, Bool.and_eq_true] at h
    cases hpolicy : policy.autoResolveWhen <;> grind

theorem overridden_of_found {m : CandidateMember} {e : EdgeData}
    (h : membersHaveActiveOverride g members = false) (hm : m ∈ members)
    (he : e ∈ tupleEdges g m) (hone : (tupleEdges g m).length ≤ 1) :
    overridden e.metadata = false := by
  have hfound : g.findRelationshipEdge m.fromType m.fromId m.toType m.toId
      m.relationshipType none = some e := by
    rw [EntityGraph.findRelationshipEdge, ← List.head?_filter]
    cases hedges : tupleEdges g m with
    | nil =>
      rw [hedges] at he
      cases he
    | cons first rest =>
      rw [hedges] at he hone
      have hrest : rest = [] := List.length_eq_zero_iff.mp (by simpa using hone)
      rw [hrest, List.mem_singleton] at he
      rw [tupleEdges] at hedges
      rw [hedges, he]
      rfl
  have hnone := List.any_eq_false.mp h m hm
  simpa [EntityGraph.getRelationship, hfound] using hnone

/-- A group that is resolved at once has deferred to the reviewers. -/
theorem auto_resolution_defers {summary : Dict String Nat}
    (h : shouldAutoResolve members policy prior
      (applyWorkflowPolicies c g kept summary).forceReview
      (membersHaveActiveOverride g members) = true) :
    Deferred c g (applyWorkflowPolicies c g kept summary).kept members policy prior := by
  unfold shouldAutoResolve at h
  split_ifs at h with hforced
  rw [Bool.not_eq_true, Bool.or_eq_false_iff] at hforced
  have ⟨hforce, hoverride⟩ := hforced
  split at h
  · rename_i prior policy
    have ⟨htrust, hsignals⟩ := Bool.and_eq_true_iff.mp h
    have hpermits : ∀ m ∈ members, ∀ s ∈ m.signals, permits policy s = true := by
      intro m hm s hs
      exact List.all_eq_true.mp (List.all_eq_true.mp hsignals m hm) s hs
    constructor
    case overrides => exact fun m hm hone e he => overridden_of_found hoverride hm he hone
    case policies => exact unforced_applyWorkflowPolicies summary hforce
    case signals => exact fun m hm s hs q hq => permits_cases (hpermits m hm s hs) hq
    case priority =>
      have hvalid : (prior.trustStatus = .invalidated) = False := by
        cases hprior : prior.trustStatus <;>
          cases hwanted : policy.autoResolveRequiresPriorTrust <;> simp_all
      have hcritical : members.any (·.signals.any (isCritical policy)) = false := by
        rw [List.any_eq_false]
        intro m hm
        rw [Bool.not_eq_true, List.any_eq_false]
        intro s hs
        rw [isCritical_of_permits (hpermits m hm s hs)]
        exact Bool.false_ne_true
      unfold deriveReviewPriority
      simp only [Option.any_some, hvalid, hcritical, decide_false, Bool.or_false,
        Bool.false_eq_true, if_false]
      split_ifs <;> simp
  · cases h

/-- One edge of the tuple stands unreviewed before one that waits for its review. -/
def pairedEdges : EntityGraph where
  edges := [storedEdge 0 .unreviewed, storedEdge 1 .pending]
where
  storedEdge (key : Nat) (status : RelationshipReviewStatus) : EdgeData :=
    { fromNode := makeNodeId "Service" "a", toNode := makeNodeId "Service" "b", key := key
      relationshipType := "depends_on", claimId := "CLM-" ++ toString key, properties := ∅
      metadata := { assertion := { review := { status := status } } } }

def scannedMember : CandidateMember where
  relationshipType := "depends_on"
  fromType := "Service"
  fromId := "a"
  toType := "Service"
  toId := "b"
  signals := [{ signalSource := "scan", signal := .support },
    { signalSource := "judgment", signal := .unsure }]

def scanPolicy : ProposalPolicySchema where
  signals := Dict.ofList
    [("scan", {}), ("judgment", { role := .advisory, alwaysReviewOnUnsure := true })]

def trustedBefore : GroupResolution where
  resolutionId := "RES-1"
  relationshipType := "depends_on"
  groupSignature := "scan"
  action := .approve
  trustStatus := .trusted

def proposalByHand : ProposalContext where
  write := { rt := FreeWrites.plainRuntime, config := {} }
  decisionPolicies := []
  clock := { parse := fun _ => none, now := 0 }
  relationshipType := "depends_on"
  workflowName := none
  thesisFacts := ∅

theorem scan_is_resolved : shouldAutoResolve [scannedMember] (some scanPolicy) (some trustedBefore)
    (applyWorkflowPolicies proposalByHand pairedEdges [scannedMember] ∅).forceReview
    (membersHaveActiveOverride pairedEdges [scannedMember]) = true := by
  decide +kernel

/-- The second edge of the tuple waits for its review, and an advisory source that asks
for a review when it is unsure is unsure. -/
theorem auto_resolution_skips_a_reviewer :
    shouldAutoResolve [scannedMember] (some scanPolicy) (some trustedBefore)
      (applyWorkflowPolicies proposalByHand pairedEdges [scannedMember] ∅).forceReview
      (membersHaveActiveOverride pairedEdges [scannedMember]) = true ∧
    (∃ e ∈ tupleEdges pairedEdges scannedMember, overridden e.metadata = true) ∧
    ∃ s ∈ scannedMember.signals, ∃ q, scanPolicy.signals.get? s.signalSource = some q ∧
      s.signal = .unsure ∧ q.alwaysReviewOnUnsure = true :=
  ⟨scan_is_resolved, ⟨pairedEdges.storedEdge 1 .pending, by decide, rfl⟩,
    scannedMember.signals[1], by decide, _, rfl, rfl, rfl⟩

/-- The services of the scan, and one edge between them that is approved. -/
def approvedEdge : EntityGraph where
  nodes := Dict.ofList [
    (makeNodeId "Service" "a",
      { entityType := "Service", entityId := "a",
        properties := Dict.ofList [("tier", .str "iron")] }),
    (makeNodeId "Service" "b", { entityType := "Service", entityId := "b" })]
  edges := [pairedEdges.storedEdge 0 .approved]

/-- A workflow that has gold services reviewed. -/
def goldReviewed : ProposalContext :=
  { proposalByHand with
    workflowName := some "nightly"
    decisionPolicies := [
      { name := "gold", workflowName := some "nightly", relationshipType := "depends_on",
        effect := .requireReview, fromMatch := Dict.ofList [("tier", .str "gold")] }] }

theorem auto_resolution_defers_scan :
    (policiesInForce goldReviewed).length = 1 ∧ (tupleEdges approvedEdge scannedMember).length = 1 ∧
    Deferred goldReviewed approvedEdge
      (applyWorkflowPolicies goldReviewed approvedEdge [scannedMember] ∅).kept [scannedMember]
      (some scanPolicy) (some trustedBefore) :=
  ⟨by decide +kernel, by decide +kernel, auto_resolution_defers (by decide +kernel)⟩

/-- The policies in force that a member matches. -/
def matching (c : ProposalContext) (g : EntityGraph) (m : CandidateMember) :
    List DecisionPolicySchema :=
  (policiesInForce c).filter (matchesPolicy c g m)

def meets (c : ProposalContext) (g : EntityGraph) (effect : PolicyEffect) (m : CandidateMember) :
    Bool :=
  (matching c g m).any (·.effect = effect)

def counted (summary : Dict String Nat) (name : String) : Nat := (summary.get? name).getD 0

/-- The screening of some members, after one that came to `s`. -/
structure Screened (c : ProposalContext) (g : EntityGraph) (members : List CandidateMember)
    (s t : Screening) : Prop where
  kept : t.kept = s.kept ++ members.filter fun m => !meets c g .suppress m
  forceReview : t.forceReview = (s.forceReview ||
    members.any fun m => !meets c g .suppress m && meets c g .requireReview m)
  summary : ∀ name, counted t.summary name = counted s.summary name +
    (members.flatMap (matching c g)).countP (·.name = name)

theorem counted_foldl (policies : List DecisionPolicySchema) (summary : Dict String Nat)
    (name : String) :
    counted (policies.foldl (fun t p => t.set p.name ((t.get? p.name).getD 0 + 1)) summary) name =
      counted summary name + policies.countP (·.name = name) := by
  induction policies generalizing summary with
  | nil => rfl
  | cons p policies ih =>
    rw [List.foldl_cons, ih, List.countP_cons, counted, Dict.get?_set]
    by_cases hname : p.name = name
    · simp [counted, hname]
      omega
    · simp [counted, hname]

theorem screened_screen (s : Screening) (m : CandidateMember) :
    Screened c g [m] s (screen c g s m) := by
  have hcounted := counted_foldl (matching c g m) s.summary
  set summary := (matching c g m).foldl
    (fun t p => t.set p.name ((t.get? p.name).getD 0 + 1)) s.summary
  have hscreen : screen c g s m =
      if meets c g .suppress m then { s with summary := summary }
      else
        { kept := s.kept ++ [m], summary := summary
          forceReview := s.forceReview || meets c g .requireReview m } := rfl
  rw [hscreen]
  split_ifs with hsuppress
  · exact ⟨by simp [hsuppress], by simp [hsuppress], by simpa using hcounted⟩
  · exact ⟨by simp [hsuppress], by simp [hsuppress], by simpa using hcounted⟩

theorem screened_foldl (s : Screening) (members : List CandidateMember) :
    Screened c g members s (members.foldl (screen c g) s) := by
  induction members generalizing s with
  | nil => exact ⟨by simp, by simp, by simp⟩
  | cons m members ih =>
    obtain ⟨hkept, hforce, hsummary⟩ := screened_screen (c := c) (g := g) s m
    obtain ⟨hkept', hforce', hsummary'⟩ := ih (screen c g s m)
    rw [List.foldl_cons]
    constructor
    case kept =>
      rw [hkept', hkept, List.append_assoc, ← List.filter_append]
      rfl
    case forceReview =>
      rw [hforce', hforce, Bool.or_assoc, ← List.any_append]
      rfl
    case summary =>
      intro name
      rw [hsummary', hsummary, Nat.add_assoc, ← List.countP_append, ← List.flatMap_append]
      rfl

/-- A screening keeps the members that no policy in force suppresses, forces a review if one of
them has to be reviewed, and counts every match, those of suppressed members included. -/
theorem screening_is_exact (c : ProposalContext) (g : EntityGraph)
    (members : List CandidateMember) (summary : Dict String Nat) :
    Screened c g members { summary := summary } (applyWorkflowPolicies c g members summary) := by
  unfold applyWorkflowPolicies
  split_ifs with hnone
  · have hmatching : ∀ m, matching c g m = [] := by
      intro m
      rw [matching, List.isEmpty_iff.mp hnone, List.filter_nil]
    constructor
    case summary => simp [List.flatMap_eq_nil_iff.mpr fun m _ => hmatching m]
    all_goals simp [meets, hmatching]
  · exact screened_foldl _ members

def advises (policy : ProposalPolicySchema) (s : CandidateSignal) : Bool :=
  (policy.signals.get? s.signalSource).any (·.role = .advisory)

def withoutAdvice (policy : ProposalPolicySchema) (m : CandidateMember) : CandidateMember :=
  { m with signals := m.signals.filter fun s => !advises policy s }

theorem signalConfig_of_advises {policy : ProposalPolicySchema} {s : CandidateSignal}
    (h : advises policy s = true) : signalConfig policy s = none := by
  obtain ⟨q, hq, hrole⟩ := (Option.any_eq_true ..).mp h
  simpa [signalConfig, hq] using hrole

/-- The signals of advisory sources change neither whether a group is resolved at once nor its
priority. -/
theorem advice_never_matters (members : List CandidateMember) (policy : ProposalPolicySchema)
    (prior : Option GroupResolution) (forceReview hasOverride : Bool) :
    shouldAutoResolve (members.map (withoutAdvice policy)) (some policy) prior forceReview
        hasOverride = shouldAutoResolve members (some policy) prior forceReview hasOverride ∧
      deriveReviewPriority (members.map (withoutAdvice policy)) (some policy) prior =
        deriveReviewPriority members (some policy) prior := by
  have hany : ∀ test : CandidateSignal → Bool, (∀ s, signalConfig policy s = none → test s = false) →
      (members.map (withoutAdvice policy)).any (·.signals.any test) =
        members.any (·.signals.any test) := by
    intro test htest
    rw [List.any_map]
    congr 1
    funext m
    simp only [Function.comp_apply, withoutAdvice, List.any_filter]
    congr 1
    funext s
    cases h : advises policy s with
    | false => rfl
    | true => simp [htest s (signalConfig_of_advises h)]
  have hpermits := hany (fun s => !permits policy s) fun s h => by simp [permits, h]
  have hchecks : ∀ ms, checkAutoResolveSignals ms policy =
      !ms.any (·.signals.any fun s => !permits policy s) := by
    intro ms
    simp [checkAutoResolveSignals, List.all_eq_not_any_not]
  constructor
  · unfold shouldAutoResolve
    cases prior with
    | none => rfl
    | some prior => simp only [hchecks, hpermits]
  · unfold deriveReviewPriority
    simp only [hany (isCritical policy) fun s h => by simp [isCritical, h],
      hany (needsReview policy) fun s h => by simp [needsReview, h]]

end Cruxible.AutoResolution
