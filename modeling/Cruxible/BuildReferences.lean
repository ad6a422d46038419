import Cruxible.MergedConfigs
import Mathlib.Data.List.Dedup

/-!
# References to workflows and providers

The semantic validation of a configuration looks up a workflow by name for
outcome profiles, decision policies and workflow tests, and a provider by name
for the steps of a workflow. These lookups are modelled as the validator makes
them. Every other check reads at most one workflow, provider or test at a time,
beside the sections that hold none of them, and is a parameter.

Taking workflows away from a valid configuration leaves it valid exactly when no
test and no receipt profile that remains names one of them.
-/
namespace Cruxible.BuildReferences

open JsonValue PythonDict Fallible ConfigLayers MergedConfigs
open PropertyValidation hiding CoreConfig

/-- The configuration without its workflows, providers and tests. -/
def clearBuilds (c : CoreConfig) : CoreConfig :=
  { c with
    maps := Function.update (Function.update c.maps .workflows ∅) .providers ∅
    lists := Function.update c.lists .tests [] }

/-- Checks that refer to no workflow, provider or test but the one they look at.
Each returns the messages it collects. -/
structure SectionChecks where
  rest : CoreConfig → List String
  workflow : CoreConfig → String → Value → List String
  provider : CoreConfig → String → Value → List String
  test : Value → List String

def SectionChecks.errors (s : SectionChecks) (c : CoreConfig) : List String :=
  s.rest (clearBuilds c) ++
    ((c.maps .workflows).entries.flatMap fun w => s.workflow (clearBuilds c) w.1 w.2) ++
    ((c.maps .providers).entries.flatMap fun p => s.provider (clearBuilds c) p.1 p.2) ++
    (c.lists .tests).flatMap s.test

def textField (v : Value) (k : String) : Option String :=
  match v.field k with
  | .str s => some s
  | _ => none

def stepsOf (workflow : Value) : List Value :=
  match workflow.field "steps" with
  | .array steps => steps
  | _ => []

/-- `_workflow_returns_relationship_proposal`. -/
def workflowReturnsRelationshipProposal (workflow : Value) : Bool :=
  (stepsOf workflow).any fun step =>
    step.field "as" == workflow.field "returns" && step.field "propose_relationship_group" != .null

/-- What `_validate_outcome_profiles` says of a profile's workflow. -/
def outcomeWorkflowErrors (workflows : Dict String Value) (key : String) (profile : Value) :
    List String :=
  if profile.field "anchor_type" = .str "resolution" then
    match textField profile "relationship_type", textField profile "workflow_name" with
    | some _, some name =>
        match workflows.get? name with
        | none => [s!"Outcome profile '{key}': workflow_name '{name}' not found in workflows"]
        | some workflow =>
            if isCanonicalWorkflow workflow then
              [s!"Outcome profile '{key}': workflow_name '{name}' must be non-canonical"]
            else if workflowReturnsRelationshipProposal workflow then []
            else
              [s!"Outcome profile '{key}': workflow_name '{name}' must return a " ++
                "proposal-bearing alias produced by propose_relationship_group"]
    | _, _ => []
  else
    match textField profile "surface_type", textField profile "surface_name" with
    | some surfaceType, some name =>
        if surfaceType = "workflow" ∧ workflows.contains name = false then
          [s!"Outcome profile '{key}': surface_name '{name}' not found in workflows"]
        else []
    | _, _ => []

/-- What `_validate_decision_policies` says of a policy's workflow. -/
def policyWorkflowErrors (workflows : Dict String Value) (policy : Value) (name : String) :
    List String :=
  match textField policy "workflow_name" with
  | none => []
  | some workflowName =>
      match workflows.get? workflowName with
      | none =>
          [s!"Decision policy '{name}': workflow_name '{workflowName}' not found in workflows"]
      | some workflow =>
          if workflow.field "type" ≠ .str "proposal" then
            [s!"Decision policy '{name}': workflow_name '{workflowName}' must be type: proposal"]
          else if workflowReturnsRelationshipProposal workflow then []
          else
            [s!"Decision policy '{name}': workflow_name '{workflowName}' must return a " ++
              "proposal-bearing alias produced by propose_relationship_group"]

/-- The loop of `_validate_decision_policies`, which passes over a repeated name
and over an unknown relationship. -/
def decisionPolicyErrors (relationshipNames : List String) (workflows : Dict String Value) :
    List String → List Value → List String
  | _, [] => []
  | seenNames, policy :: policies =>
      let name := (textField policy "name").getD ""
      if name ∈ seenNames then decisionPolicyErrors relationshipNames workflows seenNames policies
      else
        (if (textField policy "relationship_type").getD "" ∉ relationshipNames then []
          else if policy.field "applies_to" = .str "query" then []
          else policyWorkflowErrors workflows policy name) ++
        decisionPolicyErrors relationshipNames workflows (name :: seenNames) policies

/-- The steps that the loop of `_validate_workflows` looks at: a repeated step id
is passed over. -/
def distinctSteps : List String → List Value → List Value
  | _, [] => []
  | stepIds, step :: steps =>
      let id := (textField step "id").getD ""
      if id ∈ stepIds then distinctSteps stepIds steps
      else step :: distinctSteps (id :: stepIds) steps

/-- The step's id and the provider it calls; the query branch comes first. -/
def stepProvider (step : Value) : Option (String × String) :=
  if step.field "query" ≠ .null then none
  else (textField step "provider").map fun p => ((textField step "id").getD "", p)

def providerReferences (workflow : Value) : List (String × String) :=
  (distinctSteps [] (stepsOf workflow)).filterMap stepProvider

/-- The checks of a canonical workflow's provider. -/
def canonicalProviderErrors (workflowName providerName : String) (provider : Value) : List String :=
  (if provider.field "runtime" ≠ .str "python" then
    [s!"Workflow '{workflowName}': canonical provider '{providerName}' must use runtime 'python'"]
    else []) ++
  (if provider.field "deterministic" ≠ .bool true then
    [s!"Workflow '{workflowName}': canonical provider '{providerName}' must be deterministic"]
    else []) ++
  (if provider.field "side_effects" = .bool true then
    [s!"Workflow '{workflowName}': canonical provider '{providerName}' must not declare " ++
      "side_effects"] else [])

/-- What `_validate_workflows` says of the providers that a workflow calls. A
provider called twice is checked once. -/
def workflowProviderErrors (providers : Dict String Value) (workflowName : String)
    (workflow : Value) : List String :=
  ((providerReferences workflow).filter fun r => providers.contains r.2 = false).map (fun r =>
    s!"Workflow '{workflowName}' step '{r.1}': provider '{r.2}' not found in providers") ++
  if isCanonicalWorkflow workflow then
    ((providerReferences workflow).map Prod.snd).dedup.flatMap fun p =>
      match providers.get? p with
      | none => []
      | some provider => canonicalProviderErrors workflowName p provider
  else []

/-- The workflow that a test runs; the schema requires a string. -/
def testWorkflow (test : Value) : Option String := textField test "workflow"

/-- `_validate_tests`. -/
def testErrors (workflows : Dict String Value) : List String → List Value → List String
  | _, [] => []
  | seen, test :: tests =>
      let name := (textField test "name").getD ""
      (if name ∈ seen then [s!"Duplicate test name: '{name}'"] else []) ++
      (match testWorkflow test with
        | some workflow =>
            if workflows.contains workflow = false then
              [s!"Test '{name}': workflow '{workflow}' not found in workflows"] else []
        | none => []) ++
      testErrors workflows (name :: seen) tests

/-- The messages that `validate_config` collects. -/
def configErrors (semantic : SectionChecks) (c : CoreConfig) : List String :=
  semantic.errors c ++
    ((c.maps .outcomeProfiles).entries.flatMap fun p =>
      outcomeWorkflowErrors (c.maps .workflows) p.1 p.2) ++
    decisionPolicyErrors (c.relationships.map nameOf) (c.maps .workflows) []
      (c.lists .decisionPolicies) ++
    ((c.maps .workflows).entries.flatMap fun w =>
      workflowProviderErrors (c.maps .providers) w.1 w.2) ++
    testErrors (c.maps .workflows) [] (c.lists .tests)

/-- `CoreConfig.model_validate` and `validate_config` on these checks. -/
def checkedComposer (schema semantic : SectionChecks) (rebaseArtifactUri : String → String → String)
    (expandNamedQuery : String → Value → List Value → Dict String Value → Except CoreError Value) :
    ComposerEnv where
  rebaseArtifactUri := rebaseArtifactUri
  expandNamedQuery := expandNamedQuery
  modelValidators c :=
    refuseIf (schema.errors c ≠ []) (.config "Config validation failed")
  validateConfig c :=
    refuseIf (configErrors semantic c ≠ [])
      (.config s!"Config has {(configErrors semantic c).length} cross-reference error(s)")

/-- The workflow that a receipt profile is about. -/
def receiptWorkflow (profile : Value) : Option String :=
  if profile.field "anchor_type" = .str "resolution" then none
  else if textField profile "surface_type" = some "workflow" then textField profile "surface_name"
  else none

/-- `r` is `c` without some canonical workflows, without some tests, and without
some providers that the remaining workflows do not call. -/
structure Reduced (removed : List String) (c r : CoreConfig) : Prop where
  rest : clearBuilds r = clearBuilds c
  workflows : (r.maps .workflows).entries =
    (c.maps .workflows).entries.filter fun w => decide (w.1 ∉ removed)
  canonical : ∀ w ∈ (c.maps .workflows).entries, w.1 ∈ removed → isCanonicalWorkflow w.2 = true
  tests : (r.lists .tests).Sublist (c.lists .tests)
  providers : (r.maps .providers).entries.Sublist (c.maps .providers).entries
  called : ∀ w ∈ (r.maps .workflows).entries, ∀ ref ∈ providerReferences w.2,
    (r.maps .providers).get? ref.2 = (c.maps .providers).get? ref.2

section Reduction

variable {removed : List String} {c r : CoreConfig} (h : Reduced removed c r)

section
include h

theorem Reduced.get?_workflow (k : String) :
    (r.maps .workflows).get? k = if k ∈ removed then none else (c.maps .workflows).get? k := by
  split_ifs with hk
  case pos =>
    rw [Dict.get?_eq_none, Dict.keys, h.workflows]
    intro hmem
    obtain ⟨w, hw, hname⟩ := List.mem_map.mp hmem
    have hkept := of_decide_eq_true (List.mem_filter.mp hw).2
    rw [hname] at hkept
    exact hkept hk
  case neg =>
    cases hc : (c.maps .workflows).get? k with
    | none =>
      rw [Dict.get?_eq_none, Dict.keys, h.workflows]
      intro hmem
      exact Dict.get?_eq_none.mp hc ((List.filter_sublist.map Prod.fst).subset hmem)
    | some w =>
      apply Dict.get?_of_mem
      rw [h.workflows]
      exact List.mem_filter.mpr ⟨Dict.mem_of_get? hc, by simpa using hk⟩

theorem Reduced.relationships : r.relationships = c.relationships :=
  congrArg (fun d => d.relationships) h.rest

theorem Reduced.outcomeProfiles : r.maps .outcomeProfiles = c.maps .outcomeProfiles :=
  congrArg (fun d => d.maps .outcomeProfiles) h.rest

theorem Reduced.decisionPolicies : r.lists .decisionPolicies = c.lists .decisionPolicies :=
  congrArg (fun d => d.lists .decisionPolicies) h.rest

/-- A check that looks at one workflow, provider or test finds nothing new. -/
theorem Reduced.section_errors {s : SectionChecks} (hc : s.errors c = []) : s.errors r = [] := by
  simp only [SectionChecks.errors, List.append_eq_nil_iff, List.flatMap_eq_nil_iff] at hc ⊢
  have ⟨⟨⟨hrest, hworkflows⟩, hproviders⟩, htests⟩ := hc
  rw [h.rest]
  refine ⟨⟨⟨hrest, ?_⟩, ?_⟩, ?_⟩
  · intro w hw
    rw [h.workflows] at hw
    exact hworkflows w (List.mem_filter.mp hw).1
  · intro p hp
    exact hproviders p (h.providers.subset hp)
  · intro t ht
    exact htests t (h.tests.subset ht)

theorem Reduced.kept_of_not_canonical {k : String} {w : Value}
    (hk : (c.maps .workflows).get? k = some w) (hw : isCanonicalWorkflow w = false) :
    (r.maps .workflows).get? k = some w := by
  rw [h.get?_workflow, if_neg, hk]
  intro hmem
  have hcanonical := h.canonical (k, w) (Dict.mem_of_get? hk) hmem
  rw [hw] at hcanonical
  cases hcanonical

theorem Reduced.outcome_errors_iff {key : String} {profile : Value}
    (hc : outcomeWorkflowErrors (c.maps .workflows) key profile = []) :
    outcomeWorkflowErrors (r.maps .workflows) key profile = [] ↔
      ∀ n, receiptWorkflow profile = some n → n ∉ removed := by
  unfold outcomeWorkflowErrors at hc ⊢
  unfold receiptWorkflow
  by_cases hres : profile.field "anchor_type" = .str "resolution"
  case pos =>
    rw [if_pos hres] at hc ⊢
    simp only [hres, if_true, reduceCtorEq, false_implies, implies_true, iff_true]
    cases hrel : textField profile "relationship_type" with
    | none => rfl
    | some relationshipType =>
      cases hname : textField profile "workflow_name" with
      | none => rfl
      | some name =>
        simp only [hrel, hname] at hc ⊢
        cases hw : (c.maps .workflows).get? name with
        | none => simp [hw] at hc
        | some w =>
          simp only [hw] at hc
          cases hcan : isCanonicalWorkflow w with
          | true => simp [hcan] at hc
          | false =>
            rw [h.kept_of_not_canonical hw hcan]
            exact hc
  case neg =>
    rw [if_neg hres] at hc ⊢
    simp only [hres, if_false]
    cases htype : textField profile "surface_type" with
    | none => simp
    | some surfaceType =>
      cases hname : textField profile "surface_name" with
      | none => simp
      | some name =>
        simp only [htype, hname] at hc ⊢
        by_cases hsurface : surfaceType = "workflow"
        case neg => simp [hsurface]
        case pos =>
          have hknown : (c.maps .workflows).contains name = true := by
            by_contra hne
            simp [hsurface, hne] at hc
          rw [Dict.contains, Option.isSome_iff_exists] at hknown
          obtain ⟨w, hw⟩ := hknown
          by_cases hmem : name ∈ removed
          · simp [hsurface, Dict.contains, h.get?_workflow, hmem]
          · simp [hsurface, Dict.contains, h.get?_workflow, hmem, hw]

theorem Reduced.policy_errors {policy : Value} {name : String}
    (hc : policyWorkflowErrors (c.maps .workflows) policy name = []) :
    policyWorkflowErrors (r.maps .workflows) policy name = [] := by
  unfold policyWorkflowErrors at hc ⊢
  cases hname : textField policy "workflow_name" with
  | none => rfl
  | some workflowName =>
    simp only [hname] at hc ⊢
    cases hw : (c.maps .workflows).get? workflowName with
    | none => simp [hw] at hc
    | some w =>
      simp only [hw] at hc
      by_cases htype : w.field "type" = .str "proposal"
      case neg => simp [htype] at hc
      case pos =>
        have hplain : isCanonicalWorkflow w = false := by
          rw [isCanonicalWorkflow, htype]
          decide
        rw [h.kept_of_not_canonical hw hplain]
        exact hc

theorem Reduced.decisionPolicy_errors {names : List String} {policies : List Value}
    {seenNames : List String}
    (hc : decisionPolicyErrors names (c.maps .workflows) seenNames policies = []) :
    decisionPolicyErrors names (r.maps .workflows) seenNames policies = [] := by
  induction policies generalizing seenNames with
  | nil => rfl
  | cons policy policies ih =>
    unfold decisionPolicyErrors at hc ⊢
    by_cases hseen : (textField policy "name").getD "" ∈ seenNames
    case pos =>
      rw [if_pos hseen] at hc ⊢
      exact ih hc
    case neg =>
      rw [if_neg hseen, List.append_eq_nil_iff] at hc ⊢
      refine ⟨?_, ih hc.2⟩
      have hthis := hc.1
      by_cases hrel : (textField policy "relationship_type").getD "" ∉ names
      · rw [if_pos hrel]
      · rw [if_neg hrel] at hthis ⊢
        by_cases hquery : policy.field "applies_to" = .str "query"
        · rw [if_pos hquery]
        · rw [if_neg hquery] at hthis ⊢
          exact h.policy_errors hthis

theorem Reduced.workflowProvider_errors {w : String × Value} (hw : w ∈ (r.maps .workflows).entries)
    (hc : workflowProviderErrors (c.maps .providers) w.1 w.2 = []) :
    workflowProviderErrors (r.maps .providers) w.1 w.2 = [] := by
  have hsame : ∀ ref ∈ providerReferences w.2,
      (r.maps .providers).get? ref.2 = (c.maps .providers).get? ref.2 := h.called w hw
  rw [← hc]
  unfold workflowProviderErrors
  congr 1
  · congr 1
    apply List.filter_congr
    intro ref href
    rw [Dict.contains, Dict.contains, hsame ref href]
  · split_ifs
    · apply List.flatMap_congr
      intro p hp
      obtain ⟨ref, href, hname⟩ := List.mem_map.mp (List.mem_dedup.mp hp)
      rw [← hname, hsame ref href]
    · rfl

end

theorem ite_singleton_eq_nil {p : Prop} [Decidable p] {message : String} :
    (if p then [message] else []) = [] ↔ ¬p := by
  simp

theorem testErrors_eq_nil {workflows : Dict String Value} {seen : List String} {tests : List Value} :
    testErrors workflows seen tests = [] ↔
      (tests.map fun t => (textField t "name").getD "").Nodup ∧
        (∀ t ∈ tests, (textField t "name").getD "" ∉ seen) ∧
        ∀ t ∈ tests, ∀ n ∈ testWorkflow t, n ∈ workflows.keys := by
  induction tests generalizing seen with
  | nil => simp [testErrors]
  | cons t tests ih =>
    have hknown : ∀ name : String, (match testWorkflow t with
        | some workflow =>
          if workflows.contains workflow = false then
            [s!"Test '{name}': workflow '{workflow}' not found in workflows"] else []
        | none => []) = [] ↔ ∀ n ∈ testWorkflow t, n ∈ workflows.keys := by
      intro name
      cases testWorkflow t with
      | none => simp
      | some n => simp [← Dict.contains_eq_true]
    have hnames : (∀ u ∈ tests, (textField u "name").getD "" ∉
        (textField t "name").getD "" :: seen) ↔
        (textField t "name").getD "" ∉ tests.map (fun u => (textField u "name").getD "") ∧
          ∀ u ∈ tests, (textField u "name").getD "" ∉ seen := by
      simp only [List.mem_cons, not_or, List.mem_map, not_exists, not_and, forall_and]
    unfold testErrors
    simp only [List.append_eq_nil_iff, ite_singleton_eq_nil, ih]
    rw [hknown, hnames, List.map_cons, List.nodup_cons, List.forall_mem_cons,
      List.forall_mem_cons]
    constructor
    case mp =>
      intro ⟨⟨hseen, hfirst⟩, hnodup, ⟨hfresh, hothers⟩, hworkflows⟩
      exact ⟨⟨hfresh, hnodup⟩, ⟨hseen, hothers⟩, hfirst, hworkflows⟩
    case mpr =>
      intro ⟨⟨hfresh, hnodup⟩, ⟨hseen, hothers⟩, hfirst, hworkflows⟩
      exact ⟨⟨hseen, hfirst⟩, hnodup, ⟨hfresh, hothers⟩, hworkflows⟩

section
include h

theorem Reduced.test_errors_iff (hc : testErrors (c.maps .workflows) [] (c.lists .tests) = []) :
    testErrors (r.maps .workflows) [] (r.lists .tests) = [] ↔
      ∀ t ∈ r.lists .tests, ∀ n ∈ testWorkflow t, n ∉ removed := by
  have ⟨hnodup, _, hknown⟩ := testErrors_eq_nil.mp hc
  have hmem : ∀ t ∈ r.lists .tests, ∀ n ∈ testWorkflow t,
      (n ∈ (r.maps .workflows).keys ↔ n ∉ removed) := by
    intro t ht n hn
    have hin := Dict.mem_keys.mp (hknown t (h.tests.subset ht) n hn)
    rw [Dict.mem_keys, h.get?_workflow]
    split_ifs with hremoved
    · simp [hremoved]
    · simp [hremoved, hin]
  rw [testErrors_eq_nil]
  constructor
  case mp =>
    intro ⟨_, _, hall⟩ t ht n hn
    exact (hmem t ht n hn).mp (hall t ht n hn)
  case mpr =>
    intro hall
    exact ⟨hnodup.sublist (h.tests.map _), fun _ _ => List.not_mem_nil,
      fun t ht n hn => (hmem t ht n hn).mpr (hall t ht n hn)⟩

theorem Reduced.config_errors_iff {semantic : SectionChecks} (hc : configErrors semantic c = []) :
    configErrors semantic r = [] ↔
      (∀ t ∈ r.lists .tests, ∀ n ∈ testWorkflow t, n ∉ removed) ∧
        ∀ p ∈ (c.maps .outcomeProfiles).entries, ∀ n, receiptWorkflow p.2 = some n →
          n ∉ removed := by
  simp only [configErrors, List.append_eq_nil_iff, List.flatMap_eq_nil_iff] at hc ⊢
  have ⟨⟨⟨⟨hsections, houtcomes⟩, hpolicies⟩, hcalls⟩, htests⟩ := hc
  have hworkflows : ∀ w ∈ (r.maps .workflows).entries,
      workflowProviderErrors (r.maps .providers) w.1 w.2 = [] := by
    intro w hw
    have hold : w ∈ (c.maps .workflows).entries := by
      rw [h.workflows] at hw
      exact (List.mem_filter.mp hw).1
    exact h.workflowProvider_errors hw (hcalls w hold)
  rw [h.relationships, h.outcomeProfiles, h.decisionPolicies, h.test_errors_iff htests]
  constructor
  case mp =>
    intro ⟨⟨⟨⟨_, hprofiles⟩, _⟩, _⟩, hkept⟩
    exact ⟨hkept, fun p hp => (h.outcome_errors_iff (houtcomes p hp)).mp (hprofiles p hp)⟩
  case mpr =>
    intro ⟨hkept, hprofiles⟩
    exact ⟨⟨⟨⟨h.section_errors hsections, fun p hp =>
      (h.outcome_errors_iff (houtcomes p hp)).mpr (hprofiles p hp)⟩,
      h.decisionPolicy_errors hpolicies⟩, hworkflows⟩, hkept⟩

end

end Reduction

end Cruxible.BuildReferences
