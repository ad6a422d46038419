import Cruxible.FreeWrites
import Cruxible.WorkflowRuns

/-!
# The apply digest of a canonical workflow

A lock pins the configuration, and with it the plan of every workflow. An
execution runs the plan on its input, on the answers of queries and providers,
and on a clone of the loaded graph; its apply steps write the sets that earlier
steps left. For each apply step it keeps a preview that counts creates, updates
and no-ops.

The digest that ties an apply request to the preview its caller looked at is the
hash of the workflow, its input, the lock, the head snapshot and these previews.
The answers and the graph behind the counts do not enter it. Two executions with
one digest write the same when what the digest leaves open is the same for both,
or when they count no create and no update.
-/
namespace Cruxible.ApplyDigest
open JsonValue PythonDict AssertionState Fallible Cruxible.Graph PropertyValidation GraphOperations
open DirectWrites WorkflowApply

/-- The output of `register_source_artifacts`, whose lists and mappings the
handler sorts. -/
structure ArtifactRegistration where
  registered : Nat := 0
  noops : Nat := 0
  artifactIds : List String := []
  revisions : List (String × String) := []
  revisionHandles : List (String × String) := []
  citationHandles : List (String × List (String × String)) := []
  deriving DecidableEq

/-- What a step leaves in `apply_previews`. `apply_all` keeps one result for each
alias; its totals are sums over these results. -/
inductive StepPreview where
  | entities (preview : ApplyEntitiesPreview)
  | relationships (preview : ApplyRelationshipsPreview)
  | all (entitiesFrom relationshipsFrom : List String)
      (entityResults : List (String × ApplyEntitiesPreview))
      (relationshipResults : List (String × ApplyRelationshipsPreview))
  | artifacts (output : ArtifactRegistration)
  deriving DecidableEq

/-- A step output: a plain value, or a set or a preview that its step dumped. -/
inductive StepOutput where
  | value (v : Value)
  | entities (set : EntitySet)
  | relationships (set : RelationshipSet)
  | preview (p : StepPreview)

abbrev Outputs := Dict String StepOutput

/-- A step either computes from the input and the outputs it refers to (an
assertion computes no output), or asks a query or a provider, or registers or
applies. -/
inductive StepBody where
  | computed (references : List String)
      (compute : Value → (String → Option StepOutput) → Except CoreError (Option StepOutput))
  | consulted
  | registerSourceArtifacts
  | applyEntities (entitiesFrom : String)
  | applyRelationships (relationshipsFrom : String)
  | applyAll (entitiesFrom relationshipsFrom : List String)

structure PlanStep where
  stepId : String
  asName : Option String := none
  body : StepBody

def PlanStep.outputKey (x : PlanStep) : String := WorkflowRuns.outputKey x.stepId x.asName

/-- What a lock pins: `compile_workflow` refuses the lock of another configuration.
The steps of a validated workflow have distinct ids; `model_validate` reads a set
from the output of any step. -/
structure Locked where
  rt : TextRuntime
  config : CoreConfig
  plan : String → List PlanStep
  entitySet : StepOutput → Except CoreError EntitySet
  relationshipSet : StepOutput → Except CoreError RelationshipSet
  distinct : ∀ workflow, ((plan workflow).map PlanStep.stepId).Nodup

/-- An execution: the request, the loaded state, and for each step the answer that
it gets from outside or the ids that its writes are given. -/
structure Execution where
  workflow : String
  input : Value := .object []
  lockDigest : String := ""
  headSnapshotId : Option String := none
  graph : EntityGraph := {}
  reads : String → Except CoreError StepOutput
  registers : String → Except CoreError ArtifactRegistration := fun _ => .ok {}
  guards : WorkflowGuards
  upstream : Option UpstreamMetadata := none
  refuseDirectWritesEnv : Option String := none
  call : Call := {}
  mint : String → String → Nat → String := fun _ _ _ => ""

/-- The working graph, the outputs and the previews so far. -/
structure Progress where
  graph : EntityGraph
  outputs : Outputs := ∅
  previews : Dict String StepPreview := ∅

def Progress.setOutput (s : Progress) (x : PlanStep) (output : StepOutput) : Progress :=
  { s with outputs := s.outputs.set x.outputKey output }

def Progress.setPreview (s : Progress) (x : PlanStep) (p : StepPreview) : Progress :=
  { s.setOutput x (.preview p) with previews := s.previews.set x.stepId p }

def seen (references : List String) (outputs : Outputs) (key : String) : Option StepOutput :=
  if key ∈ references then outputs.get? key else none

def fetch (outputs : Outputs) (name : String) : Except CoreError StepOutput :=
  match outputs.get? name with
  | some output => .ok output
  | none => .error (.keyError name)

namespace Execution

def writeContext (e : Execution) (l : Locked) : WriteContext where
  rt := l.rt
  config := l.config
  refuseDirectWritesEnv := e.refuseDirectWritesEnv
  upstream := e.upstream

def applyEntities (e : Execution) (l : Locked) (x : PlanStep) (outputs : Outputs) (g : EntityGraph)
    (name : String) : Except CoreError (EntityGraph × ApplyEntitiesPreview) := do
  let raw ← fetch outputs name
  let set ← l.entitySet raw
  applyEntitySet (e.writeContext l) e.guards x.stepId e.call g set

def applyRelationships (e : Execution) (l : Locked) (x : PlanStep) (outputs : Outputs)
    (g : EntityGraph) (name : String) :
    Except CoreError (EntityGraph × ApplyRelationshipsPreview) := do
  let raw ← fetch outputs name
  let set ← l.relationshipSet raw
  applyRelationshipSet (e.writeContext l) e.guards e.workflow x.stepId e.call
    (e.mint x.stepId name) g set

/-- One alias after the other, each on the graph that the previous one left. -/
def applyAliases {β : Type} (apply : EntityGraph → String → Except CoreError (EntityGraph × β)) :
    EntityGraph → List String → Except CoreError (EntityGraph × List (String × β))
  | g, [] => .ok (g, [])
  | g, name :: rest => do
      let (h, preview) ← apply g name
      let (k, previews) ← applyAliases apply h rest
      return (k, (name, preview) :: previews)

/-- One step of `execute_workflow`. -/
def step (e : Execution) (l : Locked) (s : Progress) (x : PlanStep) : Except CoreError Progress :=
  match x.body with
  | .computed references compute => do
      let output ← compute e.input (seen references s.outputs)
      return output.elim s (s.setOutput x)
  | .consulted => do
      let output ← e.reads x.stepId
      return s.setOutput x output
  | .registerSourceArtifacts => do
      let output ← e.registers x.stepId
      return s.setPreview x (.artifacts output)
  | .applyEntities entitiesFrom => do
      let (h, preview) ← e.applyEntities l x s.outputs s.graph entitiesFrom
      return { s.setPreview x (.entities preview) with graph := h }
  | .applyRelationships relationshipsFrom => do
      let (h, preview) ← e.applyRelationships l x s.outputs s.graph relationshipsFrom
      return { s.setPreview x (.relationships preview) with graph := h }
  | .applyAll entitiesFrom relationshipsFrom => do
      let (h, entityResults) ← applyAliases (e.applyEntities l x s.outputs) s.graph entitiesFrom
      let (k, relationshipResults) ←
        applyAliases (e.applyRelationships l x s.outputs) h relationshipsFrom
      let preview := StepPreview.all entitiesFrom relationshipsFrom
        (Dict.ofList entityResults).entries (Dict.ofList relationshipResults).entries
      return { s.setPreview x preview with graph := k }

/-- The plan that the lock with the digest of the execution pins. -/
def plan (e : Execution) (locks : String → Locked) : List PlanStep :=
  (locks e.lockDigest).plan e.workflow

/-- The steps of `execute_workflow` on a clone of the loaded graph. -/
def execute (e : Execution) (locks : String → Locked) : Except CoreError Progress :=
  (e.plan locks).foldlM (e.step (locks e.lockDigest)) { graph := e.graph }

end Execution

def DuplicateTracking.canonical (d : DuplicateTracking) : DuplicateTracking :=
  { d with duplicateExamples := d.duplicateExamples.map Value.canonical }

def ApplyEntitiesPreview.canonical (p : ApplyEntitiesPreview) : ApplyEntitiesPreview :=
  { p with duplicates := DuplicateTracking.canonical p.duplicates }

def ApplyRelationshipsPreview.canonical (p : ApplyRelationshipsPreview) :
    ApplyRelationshipsPreview :=
  { p with duplicates := DuplicateTracking.canonical p.duplicates }

def sortByKey {α : Type} (entries : List (String × α)) : List (String × α) :=
  entries.insertionSort fun a b => a.1 ≤ b.1

/-- What the sorted serialization keeps of a preview. -/
def StepPreview.canonical : StepPreview → StepPreview
  | .entities p => .entities (ApplyEntitiesPreview.canonical p)
  | .relationships p => .relationships (ApplyRelationshipsPreview.canonical p)
  | .all ef rf es rs => .all ef rf
      (sortByKey (es.map fun q => (q.1, ApplyEntitiesPreview.canonical q.2)))
      (sortByKey (rs.map fun q => (q.1, ApplyRelationshipsPreview.canonical q.2)))
  | .artifacts output => .artifacts output

/-- The text that `compute_apply_digest` hashes, as the data that it spells. -/
structure DigestPayload where
  workflow : String
  input : Value
  lockDigest : String
  headSnapshotId : Option String
  applyPreviews : List (String × StepPreview)
  deriving DecidableEq

def digestPayload (e : Execution) (s : Progress) : DigestPayload where
  workflow := e.workflow
  input := e.input.canonical
  lockDigest := e.lockDigest
  headSnapshotId := e.headSnapshotId
  applyPreviews := sortByKey (s.previews.entries.map fun p => (p.1, p.2.canonical))

/-- `compute_apply_digest`: no apply step, no digest. -/
def computeApplyDigest {δ : Type} (digest : DigestPayload → δ) (e : Execution) (s : Progress) :
    Option δ :=
  if s.previews.entries = [] then none else some (digest (digestPayload e s))

/-- The records of the final graph that the loaded graph does not hold. -/
structure WriteSet where
  entities : List EntityInstance
  relationships : List EdgeData
  deriving DecidableEq

def writeSet (base final : EntityGraph) : WriteSet where
  entities := (final.nodes.entries.filter fun p => base.nodes.get? p.1 ≠ some p.2).map Prod.snd
  relationships := final.edges.filter (· ∉ base.edges)

def Counts.ChangesNothing (c : Counts) : Prop := c.create = 0 ∧ c.update = 0

/-- A preview that counts only no-ops, and whose results are one for each alias. -/
def StepPreview.ChangesNothing : StepPreview → Prop
  | .entities p => Counts.ChangesNothing p.counts
  | .relationships p => Counts.ChangesNothing p.counts
  | .all ef rf es rs => ef.Nodup ∧ rf.Nodup ∧
      (∀ q ∈ es, Counts.ChangesNothing q.2.counts) ∧ ∀ q ∈ rs, Counts.ChangesNothing q.2.counts
  | .artifacts _ => True

/-- Every apply step of an execution counted only no-ops. -/
def ChangesNothing (s : Progress) : Prop :=
  ∀ p ∈ s.previews.entries, StepPreview.ChangesNothing p.2

theorem mem_sortByKey {α : Type} {entries : List (String × α)} {p : String × α} :
    p ∈ sortByKey entries ↔ p ∈ entries :=
  List.mem_insertionSort _

theorem changesNothing_canonical (p : StepPreview) :
    p.canonical.ChangesNothing ↔ p.ChangesNothing := by
  cases p with
  | entities p => exact Iff.rfl
  | relationships p => exact Iff.rfl
  | artifacts output => exact Iff.rfl
  | all ef rf es rs =>
    simp only [StepPreview.canonical, StepPreview.ChangesNothing, mem_sortByKey,
      List.forall_mem_map]
    exact Iff.rfl

theorem changesNothing_payload (e : Execution) (s : Progress) :
    ChangesNothing s ↔
      ∀ p ∈ (digestPayload e s).applyPreviews, StepPreview.ChangesNothing p.2 := by
  simp only [digestPayload, mem_sortByKey, List.forall_mem_map, changesNothing_canonical]
  exact Iff.rfl

theorem computeApplyDigest_eq_iff {δ : Type} {digest : DigestPayload → δ}
    (hinj : Function.Injective digest) {e₁ e₂ : Execution} {s₁ s₂ : Progress}
    (h₁ : s₁.previews.entries ≠ []) :
    computeApplyDigest digest e₁ s₁ = computeApplyDigest digest e₂ s₂ ↔
      s₂.previews.entries ≠ [] ∧ digestPayload e₁ s₁ = digestPayload e₂ s₂ := by
  unfold computeApplyDigest
  rw [if_neg h₁]
  by_cases h₂ : s₂.previews.entries = []
  · simp [h₂]
  · rw [if_neg h₂, Option.some.injEq, hinj.eq_iff]
    simp [h₂]

variable {l : Locked} {e e₁ e₂ : Execution} {s : Progress} {x : PlanStep} {xs : List PlanStep}
  {outputs : Outputs} {name : String} {t : EntityGraph × Counts} {w : WriteContext} {g h : EntityGraph}

/-- One decision: a no-op leaves the graph, anything else is counted. -/
def Decides (s t : EntityGraph × Counts) : Prop :=
  (t.1 = s.1 ∧ t.2.create = s.2.create ∧ t.2.update = s.2.update) ∨
    t.2.create + t.2.update = s.2.create + s.2.update + 1

theorem decisions_counts {ι : Type} {f : EntityGraph × Counts → ι → Except CoreError _}
    (hf : ∀ {s x t}, f s x = .ok t → Decides s t) {xs : List ι} {s : EntityGraph × Counts}
    (h : xs.foldlM f s = .ok t) :
    s.2.create + s.2.update ≤ t.2.create + t.2.update ∧
      (t.2.create + t.2.update = s.2.create + s.2.update → t.1 = s.1) := by
  induction xs generalizing s with
  | nil =>
    obtain rfl := foldlM_nil_eq_ok.mp h
    exact ⟨le_refl _, fun _ => rfl⟩
  | cons x xs ih =>
    obtain ⟨u, hu, h⟩ := foldlM_cons_eq_ok.mp h
    obtain ⟨hgrow, hsame⟩ := ih h
    rcases hf hu with ⟨hgraph, hcreate, hupdate⟩ | hcounted
    · constructor
      · omega
      · intro heq
        rw [hsame (by omega), hgraph]
    · constructor
      · omega
      · intro heq
        omega

theorem Counts.ChangesNothing.total {c : Counts} (h : Counts.ChangesNothing c) :
    c.create + c.update = 0 := by
  have hcreate := h.1
  have hupdate := h.2
  omega

theorem applyEntityMember_decides {c : Call} {s : EntityGraph × Counts} {v : ValidatedEntity}
    (h : applyEntityMember w c s v = .ok t) : Decides s t := by
  unfold applyEntityMember at h
  simp only at h
  split at h
  · split at h
    · obtain ⟨⟨k, d⟩, -, h⟩ := bind_eq_ok.mp h
      obtain rfl := pure_eq_ok.mp h
      right
      simp only
      omega
    · obtain rfl := Except.ok.inj h
      exact .inl ⟨rfl, rfl, rfl⟩
  · obtain ⟨⟨k, d⟩, -, h⟩ := bind_eq_ok.mp h
    obtain rfl := pure_eq_ok.mp h
    right
    simp only
    omega

theorem applyRelationshipMember_decides {sourceRef : String} {c : Call} {s : EntityGraph × Counts}
    {v : ValidatedRelationship × String} (h : applyRelationshipMember w sourceRef c s v = .ok t) :
    Decides s t := by
  unfold applyRelationshipMember at h
  simp only at h
  split at h
  · obtain ⟨⟨k, d⟩, -, h⟩ := bind_eq_ok.mp h
    obtain rfl := pure_eq_ok.mp h
    right
    simp only
    omega
  · split at h
    · obtain ⟨⟨k, d⟩, -, h⟩ := bind_eq_ok.mp h
      obtain rfl := pure_eq_ok.mp h
      right
      simp only
      omega
    · obtain rfl := Except.ok.inj h
      exact .inl ⟨rfl, rfl, rfl⟩

theorem fetch_eq_ok {raw : StepOutput} :
    fetch outputs name = .ok raw ↔ outputs.get? name = some raw := by
  unfold fetch
  cases outputs.get? name <;> simp

theorem applyEntities_ok {p : EntityGraph × ApplyEntitiesPreview}
    (hok : e.applyEntities l x outputs g name = .ok p) :
    ∃ raw set, outputs.get? name = some raw ∧ l.entitySet raw = .ok set ∧
      applyEntitySet (e.writeContext l) e.guards x.stepId e.call g set = .ok p := by
  obtain ⟨raw, hraw, hok⟩ := bind_eq_ok.mp hok
  obtain ⟨set, hset, hok⟩ := bind_eq_ok.mp hok
  exact ⟨raw, set, fetch_eq_ok.mp hraw, hset, hok⟩

theorem applyRelationships_ok {p : EntityGraph × ApplyRelationshipsPreview}
    (hok : e.applyRelationships l x outputs g name = .ok p) :
    ∃ raw set, outputs.get? name = some raw ∧ l.relationshipSet raw = .ok set ∧
      applyRelationshipSet (e.writeContext l) e.guards e.workflow x.stepId e.call
        (e.mint x.stepId name) g set = .ok p := by
  obtain ⟨raw, hraw, hok⟩ := bind_eq_ok.mp hok
  obtain ⟨set, hset, hok⟩ := bind_eq_ok.mp hok
  exact ⟨raw, set, fetch_eq_ok.mp hraw, hset, hok⟩

theorem applyEntities_same {p : ApplyEntitiesPreview}
    (hok : e.applyEntities l x outputs g name = .ok (h, p)) (hp : Counts.ChangesNothing p.counts) :
    h = g := by
  obtain ⟨raw, set, -, -, hok⟩ := applyEntities_ok hok
  obtain ⟨validated, -, -, hfold⟩ := applyEntitySet_accepted hok
  exact (decisions_counts applyEntityMember_decides hfold).2 hp.total

theorem applyRelationships_same {p : ApplyRelationshipsPreview}
    (hok : e.applyRelationships l x outputs g name = .ok (h, p))
    (hp : Counts.ChangesNothing p.counts) : h = g := by
  obtain ⟨raw, set, -, -, hok⟩ := applyRelationships_ok hok
  unfold applyRelationshipSet at hok
  obtain ⟨⟨⟩, -, hok⟩ := bind_eq_ok.mp hok
  obtain ⟨⟨validated, errors⟩, -, hok⟩ := bind_eq_ok.mp hok
  obtain ⟨⟨⟩, -, hok⟩ := bind_eq_ok.mp hok
  obtain ⟨⟨⟩, -, hok⟩ := bind_eq_ok.mp hok
  obtain ⟨⟨k, counts⟩, hfold, hok⟩ := bind_eq_ok.mp hok
  obtain ⟨rfl, rfl⟩ := Prod.mk.inj (pure_eq_ok.mp hok)
  exact (decisions_counts applyRelationshipMember_decides hfold).2 hp.total

section Aliases
variable {β : Type} {apply : EntityGraph → String → Except CoreError (EntityGraph × β)}
  {results : List (String × β)}

theorem applyAliases_ok {Noop : β → Prop}
    (happly : ∀ {g name h p}, apply g name = .ok (h, p) → Noop p → h = g) {names : List String}
    {g h : EntityGraph} (hok : Execution.applyAliases apply g names = .ok (h, results)) :
    results.map Prod.fst = names ∧ ((∀ q ∈ results, Noop q.2) → h = g) := by
  induction names generalizing g results with
  | nil =>
    obtain ⟨rfl, rfl⟩ := Prod.mk.inj (Except.ok.inj hok)
    exact ⟨rfl, fun _ => rfl⟩
  | cons name names ih =>
    obtain ⟨⟨k, p⟩, hk, hok⟩ := bind_eq_ok.mp hok
    obtain ⟨⟨l, ps⟩, hl, hok⟩ := bind_eq_ok.mp hok
    obtain ⟨rfl, rfl⟩ := Prod.mk.inj (pure_eq_ok.mp hok)
    obtain ⟨hnames, hsame⟩ := ih hl
    constructor
    · rw [List.map_cons, hnames]
    · intro hnoop
      have hrest := hsame fun q hq => hnoop q (List.mem_cons_of_mem _ hq)
      exact hrest.trans (happly hk (hnoop (name, p) List.mem_cons_self))

theorem applyAliases_agree
    {apply' : EntityGraph → String → Except CoreError (EntityGraph × β)} {names : List String}
    (happly : ∀ name ∈ names, ∀ g, Agree (apply g name) (apply' g name)) (g : EntityGraph) :
    Agree (Execution.applyAliases apply g names) (Execution.applyAliases apply' g names) := by
  induction names generalizing g with
  | nil => exact .refl _
  | cons name names ih =>
    have hrest := ih fun name hname => happly name (List.mem_cons_of_mem _ hname)
    exact (happly name List.mem_cons_self g).bind fun p => (hrest p.1).bind fun _ => .refl _

theorem mem_results (hdistinct : (results.map Prod.fst).Nodup) {q : String × β} (hq : q ∈ results) :
    q ∈ (Dict.ofList results).entries := by
  rw [Dict.entries_ofList hdistinct]
  exact hq

end Aliases

theorem step_spec {t : Progress} (h : e.step l s x = .ok t) :
    (x.body ≠ .registerSourceArtifacts ∧ t.previews = s.previews ∧ t.graph = s.graph) ∨
    ∃ p, t.previews = s.previews.set x.stepId p ∧ (p.ChangesNothing → t.graph = s.graph) ∧
      (x.body = .registerSourceArtifacts →
        ∃ output, e.registers x.stepId = .ok output ∧ p = .artifacts output) := by
  unfold Execution.step at h
  split at h
  case h_1 references compute hbody =>
    obtain ⟨output, -, h⟩ := bind_eq_ok.mp h
    obtain rfl := pure_eq_ok.mp h
    cases output with
    | none | some output => exact .inl ⟨by simp [hbody], rfl, rfl⟩
  case h_2 hbody =>
    obtain ⟨output, -, h⟩ := bind_eq_ok.mp h
    obtain rfl := pure_eq_ok.mp h
    exact .inl ⟨by simp [hbody], rfl, rfl⟩
  case h_3 hbody =>
    obtain ⟨output, houtput, h⟩ := bind_eq_ok.mp h
    obtain rfl := pure_eq_ok.mp h
    exact .inr ⟨_, rfl, fun _ => rfl, fun _ => ⟨output, houtput, rfl⟩⟩
  case h_4 entitiesFrom hbody =>
    obtain ⟨⟨k, p⟩, hk, h⟩ := bind_eq_ok.mp h
    obtain rfl := pure_eq_ok.mp h
    exact .inr ⟨_, rfl, applyEntities_same hk, by simp [hbody]⟩
  case h_5 relationshipsFrom hbody =>
    obtain ⟨⟨k, p⟩, hk, h⟩ := bind_eq_ok.mp h
    obtain rfl := pure_eq_ok.mp h
    exact .inr ⟨_, rfl, applyRelationships_same hk, by simp [hbody]⟩
  case h_6 entitiesFrom relationshipsFrom hbody =>
    obtain ⟨⟨k, es⟩, hk, h⟩ := bind_eq_ok.mp h
    obtain ⟨⟨m, rs⟩, hm, h⟩ := bind_eq_ok.mp h
    obtain rfl := pure_eq_ok.mp h
    refine .inr ⟨_, rfl, ?_, by simp [hbody]⟩
    rintro ⟨hef, hrf, hes, hrs⟩
    obtain ⟨henames, hesame⟩ := applyAliases_ok applyEntities_same hk
    obtain ⟨hrnames, hrsame⟩ := applyAliases_ok applyRelationships_same hm
    have hentities := hesame fun q hq => hes q (mem_results (henames ▸ hef) hq)
    have hrelationships := hrsame fun q hq => hrs q (mem_results (hrnames ▸ hrf) hq)
    exact hrelationships.trans hentities

theorem steps_keep {t : Progress} (h : xs.foldlM (e.step l) s = .ok t) {id : String}
    (hid : id ∉ xs.map PlanStep.stepId) : t.previews.get? id = s.previews.get? id := by
  induction xs generalizing s with
  | nil =>
    obtain rfl := foldlM_nil_eq_ok.mp h
    rfl
  | cons x xs ih =>
    obtain ⟨u, hu, hrest⟩ := foldlM_cons_eq_ok.mp h
    rw [List.map_cons, List.mem_cons, not_or] at hid
    rw [ih hrest hid.2]
    rcases step_spec hu with ⟨-, hprev, -⟩ | ⟨p, hprev, -⟩
    · rw [hprev]
    · rw [hprev, Dict.get?_set_of_ne _ _ (Ne.symm hid.1)]

/-- What a run with distinct ids leaves: a registration keeps its output in the
previews, and a run that previewed no change leaves the graph. -/
theorem steps_leave {t : Progress} (h : xs.foldlM (e.step l) s = .ok t)
    (hdistinct : (xs.map PlanStep.stepId).Nodup) :
    (ChangesNothing t → t.graph = s.graph) ∧
    ∀ x ∈ xs, x.body = .registerSourceArtifacts →
      ∃ output, e.registers x.stepId = .ok output ∧
        t.previews.get? x.stepId = some (.artifacts output) := by
  induction xs generalizing s with
  | nil =>
    obtain rfl := foldlM_nil_eq_ok.mp h
    exact ⟨fun _ => rfl, fun x hx => absurd hx List.not_mem_nil⟩
  | cons x xs ih =>
    obtain ⟨u, hu, hrest⟩ := foldlM_cons_eq_ok.mp h
    rw [List.map_cons, List.nodup_cons] at hdistinct
    obtain ⟨hsame, hregistered⟩ := ih hrest hdistinct.2
    have hkept := steps_keep hrest hdistinct.1
    rcases step_spec hu with ⟨hbody, -, hgraph⟩ | ⟨p, hprev, hgraph, hbody⟩
    · refine ⟨fun hnoop => (hsame hnoop).trans hgraph, ?_⟩
      rintro y (_ | ⟨_, hy⟩) hreg
      · exact absurd hreg hbody
      · exact hregistered y hy hreg
    · rw [hprev, Dict.get?_set_self] at hkept
      constructor
      · intro hnoop
        exact (hsame hnoop).trans (hgraph (hnoop (x.stepId, p) (Dict.mem_of_get? hkept)))
      · rintro y (_ | ⟨_, hy⟩) hreg
        · obtain ⟨output, houtput, rfl⟩ := hbody hreg
          exact ⟨output, houtput, hkept⟩
        · exact hregistered y hy hreg

/-- An accepted write does not depend on the refusals around it. -/
theorem applyEntity_agree (v : ValidatedEntity) (source : String) (trusted : Bool) :
    Agree (applyEntity (e₁.writeContext l) g v source trusted)
      (applyEntity (e₂.writeContext l) g v source trusted) :=
  (Agree.checks _ _).bind fun _ => (Agree.checks _ _).bind fun _ =>
    (Agree.checks _ _).bind fun _ => .refl _

theorem applyRelationship_agree (v : ValidatedRelationship) (a : RelationshipWrite) :
    Agree (applyRelationship (e₁.writeContext l) g v a)
      (applyRelationship (e₂.writeContext l) g v a) :=
  (Agree.checks _ _).bind fun _ => (Agree.checks _ _).bind fun _ => .refl _

theorem applyEntityMember_agree (hactor : e₁.call.actorContext = e₂.call.actorContext)
    (s : EntityGraph × Counts) (v : ValidatedEntity) :
    Agree (applyEntityMember (e₁.writeContext l) e₁.call s v)
      (applyEntityMember (e₂.writeContext l) e₂.call s v) := by
  unfold applyEntityMember
  rw [hactor]
  simp only
  split
  · split_ifs
    · exact (applyEntity_agree _ _ _).bind fun _ => .refl _
    · exact .refl _
  · exact (applyEntity_agree _ _ _).bind fun _ => .refl _

theorem applyRelationshipMember_agree (sourceRef : String) (c : Call) (s : EntityGraph × Counts)
    (m : ValidatedRelationship × String) :
    Agree (applyRelationshipMember (e₁.writeContext l) sourceRef c s m)
      (applyRelationshipMember (e₂.writeContext l) sourceRef c s m) := by
  unfold applyRelationshipMember
  simp only
  split
  · exact (applyRelationship_agree _ _).bind fun _ => .refl _
  · split_ifs
    · exact (applyRelationship_agree _ _).bind fun _ => .refl _
    · exact .refl _

theorem fetch_eq {o₁ o₂ : Outputs} (hset : o₁.get? name = o₂.get? name) :
    fetch o₁ name = fetch o₂ name := by
  unfold fetch
  rw [hset]

theorem applyEntities_agree {o₁ o₂ : Outputs}
    (hactor : e₁.call.actorContext = e₂.call.actorContext) (hset : o₁.get? name = o₂.get? name) :
    Agree (e₁.applyEntities l x o₁ g name) (e₂.applyEntities l x o₂ g name) := by
  unfold Execution.applyEntities
  rw [fetch_eq hset]
  refine (Agree.refl _).bind fun raw => (Agree.refl _).bind fun set => ?_
  unfold applyEntitySet
  refine (Agree.checks _ _).bind fun _ => (Agree.refl _).bind fun _ => (Agree.checks _ _).bind
    fun _ => (Agree.checks _ _).bind fun _ => ?_
  exact (Agree.foldlM (applyEntityMember_agree hactor) _ _).bind fun _ => .refl _

theorem applyRelationships_agree {o₁ o₂ : Outputs} (hworkflow : e₁.workflow = e₂.workflow)
    (hstamps : e₁.call = e₂.call ∧ e₁.mint = e₂.mint) (hset : o₁.get? name = o₂.get? name) :
    Agree (e₁.applyRelationships l x o₁ g name) (e₂.applyRelationships l x o₂ g name) := by
  unfold Execution.applyRelationships
  rw [fetch_eq hset, hworkflow, hstamps.1, hstamps.2]
  refine (Agree.refl _).bind fun raw => (Agree.refl _).bind fun set => ?_
  unfold applyRelationshipSet
  refine (Agree.checks _ _).bind fun _ => (Agree.refl _).bind fun _ => (Agree.checks _ _).bind
    fun _ => (Agree.checks _ _).bind fun _ => ?_
  exact (Agree.foldlM (applyRelationshipMember_agree _ _) _ _).bind fun _ => .refl _

/-- The outputs that the apply steps of a plan rest on. -/
def needs : List PlanStep → List String
  | [] => []
  | x :: rest =>
      match x.body with
      | .computed references _ =>
          if x.outputKey ∈ needs rest then references ++ needs rest else needs rest
      | .consulted => needs rest
      | .registerSourceArtifacts => needs rest
      | .applyEntities entitiesFrom => entitiesFrom :: needs rest
      | .applyRelationships relationshipsFrom => relationshipsFrom :: needs rest
      | .applyAll entitiesFrom relationshipsFrom =>
          entitiesFrom ++ relationshipsFrom ++ needs rest

/-- The queries and providers among the steps that leave these outputs. -/
def consulted : List PlanStep → List String
  | [] => []
  | x :: rest =>
      match x.body with
      | .consulted =>
          if x.outputKey ∈ needs rest then x.stepId :: consulted rest else consulted rest
      | _ => consulted rest

def StepBody.AppliesRelationships : StepBody → Prop
  | .applyRelationships _ => True
  | .applyAll _ relationshipsFrom => relationshipsFrom ≠ []
  | _ => False

/-- Two executions that any digest ties to one plan and input, and that agree on
what the writes take from outside. -/
structure Matched (plan : List PlanStep) (e₁ e₂ : Execution) : Prop where
  workflow : e₁.workflow = e₂.workflow
  input : e₁.input = e₂.input
  registers : ∀ x ∈ plan, x.body = .registerSourceArtifacts →
    e₁.registers x.stepId = e₂.registers x.stepId
  reads : ∀ id ∈ consulted plan, e₁.reads id = e₂.reads id
  actor : e₁.call.actorContext = e₂.call.actorContext
  stamps : ∀ x ∈ plan, x.body.AppliesRelationships → e₁.call = e₂.call ∧ e₁.mint = e₂.mint

theorem consulted_cons {id : String} (hid : id ∈ consulted xs) : id ∈ consulted (x :: xs) := by
  unfold consulted
  split
  · split_ifs
    · exact List.mem_cons_of_mem _ hid
    · exact hid
  · exact hid

theorem Matched.tail (h : Matched (x :: xs) e₁ e₂) : Matched xs e₁ e₂ where
  workflow := h.workflow
  input := h.input
  registers := fun y hy => h.registers y (List.mem_cons_of_mem _ hy)
  reads := fun id hid => h.reads id (consulted_cons hid)
  actor := h.actor
  stamps := fun y hy => h.stamps y (List.mem_cons_of_mem _ hy)

def AgreeOn (keys : List String) (o₁ o₂ : Outputs) : Prop := ∀ k ∈ keys, o₁.get? k = o₂.get? k

theorem AgreeOn.mono {keys keys' : List String} {o₁ o₂ : Outputs} (h : AgreeOn keys o₁ o₂)
    (hkeys : ∀ k ∈ keys', k ∈ keys) : AgreeOn keys' o₁ o₂ :=
  fun k hk => h k (hkeys k hk)

theorem AgreeOn.seen_eq {keys : List String} {o₁ o₂ : Outputs} (h : AgreeOn keys o₁ o₂) :
    seen keys o₁ = seen keys o₂ := by
  funext k
  unfold seen
  split_ifs with hk
  · exact h k hk
  · rfl

/-- Two runs that have written the same and agree on what is still to be read. -/
structure Together (keys : List String) (s₁ s₂ : Progress) : Prop where
  graph : s₁.graph = s₂.graph
  previews : s₁.previews = s₂.previews
  outputs : AgreeOn keys s₁.outputs s₂.outputs

theorem Together.setOutput {keys : List String} {s₁ s₂ : Progress} (h : Together keys s₁ s₂)
    {x : PlanStep} {a b : Option StepOutput} (hab : x.outputKey ∈ keys → a = b) :
    Together keys (a.elim s₁ (s₁.setOutput x)) (b.elim s₂ (s₂.setOutput x)) where
  graph := by cases a <;> cases b <;> exact h.graph
  previews := by cases a <;> cases b <;> exact h.previews
  outputs := by
    intro k hk
    by_cases heq : x.outputKey = k
    · obtain rfl := hab (heq ▸ hk)
      subst heq
      cases a with
      | none => exact h.outputs _ hk
      | some output => exact (Dict.get?_set_self _ _ _).trans (Dict.get?_set_self _ _ _).symm
    · have hkept (s : Progress) (o : Option StepOutput) :
          (o.elim s (s.setOutput x)).outputs.get? k = s.outputs.get? k := by
        cases o with
        | none => rfl
        | some output => exact Dict.get?_set_of_ne _ _ heq
      rw [hkept, hkept]
      exact h.outputs k hk

theorem Together.setPreview {keys : List String} {s₁ s₂ : Progress} (h : Together keys s₁ s₂)
    (x : PlanStep) (p : StepPreview) (g : EntityGraph) :
    Together keys { s₁.setPreview x p with graph := g } { s₂.setPreview x p with graph := g } where
  graph := rfl
  previews := congrArg (fun d => d.set x.stepId p) h.previews
  outputs := (h.setOutput (a := some (.preview p)) fun _ => rfl).outputs

theorem needs_cons {k : String} (hk : k ∈ needs xs) : k ∈ needs (x :: xs) := by
  unfold needs
  split
  · split_ifs
    · exact List.mem_append_right _ hk
    · exact hk
  all_goals simp [hk]

theorem step_agrees {s₁ s₂ t₁ t₂ : Progress} (hmatched : Matched (x :: xs) e₁ e₂)
    (h : Together (needs (x :: xs)) s₁ s₂) (h₁ : e₁.step l s₁ x = .ok t₁)
    (h₂ : e₂.step l s₂ x = .ok t₂) : Together (needs xs) t₁ t₂ := by
  have hkept : Together (needs xs) s₁ s₂ := ⟨h.graph, h.previews, h.outputs.mono fun _ => needs_cons⟩
  have houtputs := h.outputs
  obtain ⟨g, outputs₁, _⟩ := s₁
  obtain ⟨_, outputs₂, _⟩ := s₂
  obtain rfl : g = _ := h.graph
  obtain ⟨stepId, asName, body⟩ := x
  cases body with
  | computed references compute =>
    obtain ⟨a, ha, h₁⟩ := bind_eq_ok.mp h₁
    obtain ⟨b, hb, h₂⟩ := bind_eq_ok.mp h₂
    obtain rfl := pure_eq_ok.mp h₁
    obtain rfl := pure_eq_ok.mp h₂
    refine hkept.setOutput fun hkey => ?_
    have hseen : AgreeOn references outputs₁ outputs₂ := houtputs.mono fun k hk => by
      simp only [needs, if_pos hkey, List.mem_append]
      exact .inl hk
    rw [hmatched.input, hseen.seen_eq] at ha
    exact Except.ok.inj (ha.symm.trans hb)
  | consulted =>
    obtain ⟨a, ha, h₁⟩ := bind_eq_ok.mp h₁
    obtain ⟨b, hb, h₂⟩ := bind_eq_ok.mp h₂
    obtain rfl := pure_eq_ok.mp h₁
    obtain rfl := pure_eq_ok.mp h₂
    refine hkept.setOutput (a := some a) (b := some b) fun hkey => ?_
    have hread : stepId ∈ consulted (⟨stepId, asName, .consulted⟩ :: xs) := by
      simp [consulted, hkey]
    rw [hmatched.reads _ hread] at ha
    exact congrArg some (Except.ok.inj (ha.symm.trans hb))
  | registerSourceArtifacts =>
    have hregisters : Agree (e₁.registers stepId) (e₂.registers stepId) := by
      rw [hmatched.registers _ List.mem_cons_self rfl]
      exact .refl _
    obtain ⟨a, h₁, h₂⟩ := hregisters.common h₁ h₂
    obtain rfl := pure_eq_ok.mp h₁
    obtain rfl := pure_eq_ok.mp h₂
    have hstep := hkept.setPreview ⟨stepId, asName, .registerSourceArtifacts⟩ (.artifacts a) g
    exact ⟨rfl, hstep.previews, hstep.outputs⟩
  | applyEntities entitiesFrom =>
    obtain ⟨p, h₁, h₂⟩ := (applyEntities_agree hmatched.actor
      (houtputs _ (by simp [needs]))).common h₁ h₂
    obtain rfl := pure_eq_ok.mp h₁
    obtain rfl := pure_eq_ok.mp h₂
    exact hkept.setPreview _ _ _
  | applyRelationships relationshipsFrom =>
    obtain ⟨p, h₁, h₂⟩ := (applyRelationships_agree hmatched.workflow
      (hmatched.stamps _ List.mem_cons_self trivial)
      (houtputs _ (by simp [needs]))).common h₁ h₂
    obtain rfl := pure_eq_ok.mp h₁
    obtain rfl := pure_eq_ok.mp h₂
    exact hkept.setPreview _ _ _
  | applyAll entitiesFrom relationshipsFrom =>
    obtain ⟨p, h₁, h₂⟩ := (applyAliases_agree (fun name hname _ =>
      applyEntities_agree hmatched.actor (houtputs name (by simp [needs, hname]))) _).common
        h₁ h₂
    obtain ⟨q, h₁, h₂⟩ := (applyAliases_agree (fun name hname _ =>
      applyRelationships_agree hmatched.workflow
        (hmatched.stamps _ List.mem_cons_self (List.ne_nil_of_mem hname))
        (houtputs name (by simp [needs, hname]))) _).common h₁ h₂
    obtain rfl := pure_eq_ok.mp h₁
    obtain rfl := pure_eq_ok.mp h₂
    exact hkept.setPreview _ _ _

theorem steps_agree {s₁ s₂ t₁ t₂ : Progress} (hmatched : Matched xs e₁ e₂)
    (h : Together (needs xs) s₁ s₂) (h₁ : xs.foldlM (e₁.step l) s₁ = .ok t₁)
    (h₂ : xs.foldlM (e₂.step l) s₂ = .ok t₂) : Together [] t₁ t₂ := by
  induction xs generalizing s₁ s₂ with
  | nil =>
    obtain rfl := foldlM_nil_eq_ok.mp h₁
    obtain rfl := foldlM_nil_eq_ok.mp h₂
    exact h
  | cons x xs ih =>
    obtain ⟨u₁, hu₁, h₁⟩ := foldlM_cons_eq_ok.mp h₁
    obtain ⟨u₂, hu₂, h₂⟩ := foldlM_cons_eq_ok.mp h₂
    exact ih hmatched.tail (step_agrees hmatched h hu₁ hu₂) h₁ h₂

section Runs
variable {locks : String → Locked} {s₁ s₂ : Progress} {δ : Type} {digest : DigestPayload → δ}

/-- What the digest leaves open is the same: the loaded graph, the order of the
keys of the input, the answers that the applied sets rest on, the actor of the
writes, and for relationships their clock, receipt and minted ids. -/
structure Alike (locks : String → Locked) (e₁ e₂ : Execution) : Prop where
  graph : e₁.graph = e₂.graph
  input : e₁.input.canonical = e₂.input.canonical → e₁.input = e₂.input
  reads : ∀ id ∈ consulted (e₁.plan locks), e₁.reads id = e₂.reads id
  actor : e₁.call.actorContext = e₂.call.actorContext
  stamps : ∀ x ∈ e₁.plan locks, x.body.AppliesRelationships →
    e₁.call = e₂.call ∧ e₁.mint = e₂.mint

theorem matched_runs (hmatched : Matched (e₁.plan locks) e₁ e₂)
    (hlock : e₁.lockDigest = e₂.lockDigest) (hgraph : e₁.graph = e₂.graph)
    (h₁ : e₁.execute locks = .ok s₁) (h₂ : e₂.execute locks = .ok s₂) : Together [] s₁ s₂ := by
  have hplan : e₂.plan locks = e₁.plan locks := by
    unfold Execution.plan
    rw [hlock, hmatched.workflow]
  unfold Execution.execute at h₁ h₂
  rw [hplan, ← hlock, ← hgraph] at h₂
  exact steps_agree hmatched ⟨rfl, rfl, fun _ _ => rfl⟩ h₁ h₂

/-- Runs that the same parts go into have one digest. -/
theorem matched_runs_have_one_digest (hmatched : Matched (e₁.plan locks) e₁ e₂)
    (hlock : e₁.lockDigest = e₂.lockDigest) (hhead : e₁.headSnapshotId = e₂.headSnapshotId)
    (hgraph : e₁.graph = e₂.graph) (h₁ : e₁.execute locks = .ok s₁)
    (h₂ : e₂.execute locks = .ok s₂) :
    computeApplyDigest digest e₁ s₁ = computeApplyDigest digest e₂ s₂ := by
  have htogether := matched_runs hmatched hlock hgraph h₁ h₂
  unfold computeApplyDigest digestPayload
  rw [htogether.previews, hmatched.workflow, hmatched.input, hlock, hhead]

theorem execute_same (h : e.execute locks = .ok s) (hnoop : ChangesNothing s) :
    s.graph = e.graph :=
  (steps_leave h ((locks e.lockDigest).distinct _)).1 hnoop

/-- The payload spells out what a run registered. -/
theorem registers_eq (h₁ : e₁.execute locks = .ok s₁) (h₂ : e₂.execute locks = .ok s₂)
    (hpayload : digestPayload e₁ s₁ = digestPayload e₂ s₂) (hx : x ∈ e₁.plan locks)
    (hbody : x.body = .registerSourceArtifacts) :
    e₁.registers x.stepId = e₂.registers x.stepId := by
  have hplan : e₁.plan locks = e₂.plan locks := by
    have hworkflow : e₁.workflow = e₂.workflow := congrArg DigestPayload.workflow hpayload
    have hlock : e₁.lockDigest = e₂.lockDigest := congrArg DigestPayload.lockDigest hpayload
    unfold Execution.plan
    rw [hworkflow, hlock]
  obtain ⟨a, ha, hget₁⟩ := (steps_leave h₁ ((locks e₁.lockDigest).distinct _)).2 x hx hbody
  obtain ⟨b, hb, hget₂⟩ :=
    (steps_leave h₂ ((locks e₂.lockDigest).distinct _)).2 x (hplan ▸ hx) hbody
  have hmem : (x.stepId, StepPreview.artifacts a) ∈ (digestPayload e₁ s₁).applyPreviews :=
    mem_sortByKey.mpr (List.mem_map.mpr ⟨_, Dict.mem_of_get? hget₁, rfl⟩)
  rw [hpayload] at hmem
  obtain ⟨⟨id, p⟩, hp, heq⟩ := List.mem_map.mp (mem_sortByKey.mp hmem)
  obtain ⟨rfl, hcanonical⟩ := Prod.mk.inj heq
  obtain rfl := Option.some.inj ((Dict.get?_of_mem hp).symm.trans hget₂)
  rw [ha, hb, StepPreview.artifacts.inj hcanonical]

theorem writeSet_self (g : EntityGraph) : writeSet g g = ⟨[], []⟩ := by
  have hnodes : (g.nodes.entries.filter fun p => g.nodes.get? p.1 ≠ some p.2) = [] := by
    apply List.filter_eq_nil_iff.mpr
    rintro ⟨n, d⟩ hmem
    simp [Dict.get?_of_mem hmem]
  have hedges : g.edges.filter (· ∉ g.edges) = [] := by
    apply List.filter_eq_nil_iff.mpr
    intro e he
    simpa using he
  unfold writeSet
  rw [hnodes, hedges]
  rfl

/-- With one digest, a run that previews no create and no update is one of two
such runs: neither writes anything. -/
theorem unchanging_digest_writes_nothing (hinj : Function.Injective digest)
    (h₁ : e₁.execute locks = .ok s₁) (h₂ : e₂.execute locks = .ok s₂)
    (hdigest : computeApplyDigest digest e₁ s₁ = computeApplyDigest digest e₂ s₂)
    (hnoop : ChangesNothing s₁) : s₁.graph = e₁.graph ∧ s₂.graph = e₂.graph := by
  refine ⟨execute_same h₁ hnoop, execute_same h₂ ?_⟩
  by_cases hempty : s₁.previews.entries = []
  · unfold computeApplyDigest at hdigest
    rw [if_pos hempty] at hdigest
    have hempty₂ : s₂.previews.entries = [] := by
      by_contra hne
      rw [if_neg hne] at hdigest
      cases hdigest
    intro p hp
    rw [hempty₂] at hp
    cases hp
  · have hpayload := ((computeApplyDigest_eq_iff hinj hempty).mp hdigest).2
    rw [changesNothing_payload e₂, ← hpayload, ← changesNothing_payload]
    exact hnoop

/-- Two executions with one digest write the same, when what the digest leaves
open is the same for both, or when one of them previews no create and no update. -/
theorem digest_fixes_the_writes (hinj : Function.Injective digest) (locks : String → Locked)
    (e₁ e₂ : Execution) {s₁ s₂ : Progress} (h₁ : e₁.execute locks = .ok s₁)
    (h₂ : e₂.execute locks = .ok s₂)
    (hdigest : computeApplyDigest digest e₁ s₁ = computeApplyDigest digest e₂ s₂)
    (hopen : Alike locks e₁ e₂ ∨ ChangesNothing s₁) :
    writeSet e₁.graph s₁.graph = writeSet e₂.graph s₂.graph := by
  by_cases hnoop : ChangesNothing s₁
  · obtain ⟨hgraph₁, hgraph₂⟩ := unchanging_digest_writes_nothing hinj h₁ h₂ hdigest hnoop
    rw [hgraph₁, hgraph₂, writeSet_self, writeSet_self]
  · have halike := hopen.resolve_right hnoop
    have hpreviews : s₁.previews.entries ≠ [] := by
      intro hempty
      apply hnoop
      intro p hp
      rw [hempty] at hp
      cases hp
    have hpayload := ((computeApplyDigest_eq_iff hinj hpreviews).mp hdigest).2
    have hmatched : Matched (e₁.plan locks) e₁ e₂ :=
      { workflow := congrArg DigestPayload.workflow hpayload
        input := halike.input (congrArg DigestPayload.input hpayload)
        registers := fun x hx => registers_eq h₁ h₂ hpayload hx
        reads := halike.reads
        actor := halike.actor
        stamps := halike.stamps }
    have hlock : e₁.lockDigest = e₂.lockDigest := congrArg DigestPayload.lockDigest hpayload
    rw [(matched_runs hmatched hlock halike.graph h₁ h₂).graph, halike.graph]

end Runs

/-- The services of a mapping from ids to tiers. -/
def services (rows : Value) : EntitySet where
  entityType := "Service"
  entities :=
    match rows with
    | .object entries => entries.map fun b =>
        { entityType := "Service", entityId := b.1, properties := Dict.ofList [("tier", b.2)] }
    | _ => []
  member_type := by
    cases rows with
    | object entries =>
      intro e he
      obtain ⟨b, -, rfl⟩ := List.mem_map.mp he
      rfl
    | _ => simp

def fetchStep : PlanStep := { stepId := "fetch", asName := some "rows", body := .consulted }

def writeStep : PlanStep := { stepId := "write", body := .applyEntities "services" }

/-- A workflow that imports the services that a provider answers with, and one
that writes those of its input whatever the provider answers. -/
def serviceLock : Locked where
  rt := FreeWrites.plainEnvironment.w.rt
  config := FreeWrites.plainEnvironment.w.config
  plan := fun workflow =>
    let make : PlanStep :=
      { stepId := "make", asName := some "services",
        body := if workflow = "import" then
            .computed ["rows"] fun _ outputs =>
              match outputs "rows" with
              | some (.value rows) => .ok (some (.entities (services rows)))
              | _ => .error (.keyError "rows")
          else .computed [] fun input _ => .ok (some (.entities (services input))) }
    [fetchStep, make, writeStep]
  entitySet := fun output =>
    match output with
    | .entities set => .ok set
    | _ => .error (.value "EntitySet")
  relationshipSet := fun output =>
    match output with
    | .relationships set => .ok set
    | _ => .error (.value "RelationshipSet")
  distinct := by simp [fetchStep, writeStep]

def serviceLocks (_ : String) : Locked := serviceLock

def tiers (rows : List (String × String)) : Value := .object (rows.map fun b => (b.1, .str b.2))

def importServices (answer : List (String × String)) (stored : EntityGraph) : Execution where
  workflow := "import"
  reads := fun _ => .ok (.value (tiers answer))
  graph := stored
  guards := FreeWrites.plainEnvironment.workflowGuards

def syncServices (input answer : List (String × String)) (stored : EntityGraph) : Execution where
  workflow := "sync"
  input := tiers input
  reads := fun _ => .ok (.value (tiers answer))
  graph := stored
  guards := FreeWrites.plainEnvironment.workflowGuards

/-- A store that holds one service with that tier. -/
def storedService (id tier : String) : EntityGraph where
  nodes := Dict.ofList [(makeNodeId "Service" id,
    { entityType := "Service", entityId := id,
      properties := Dict.ofList [("tier", .str tier)] })]

def progress (e : Execution) : Progress :=
  match e.execute serviceLocks with
  | .ok s => s
  | .error _ => { graph := e.graph }

theorem execute_progress (h : (e.execute serviceLocks).isOk = true) :
    e.execute serviceLocks = .ok (progress e) := by
  unfold progress
  cases hx : e.execute serviceLocks with
  | error err =>
    rw [hx] at h
    cases h
  | ok s => rfl

/-- The input names the services to be written: the digest fixes them, though the
provider that nothing rests on answers another tier the second time. -/
theorem synced_input_fixes_the_writes :
    computeApplyDigest id (syncServices [("a", "gold")] [("b", "gold")] {})
        (progress (syncServices [("a", "gold")] [("b", "gold")] {})) =
      computeApplyDigest id (syncServices [("a", "gold")] [("b", "iron")] {})
        (progress (syncServices [("a", "gold")] [("b", "iron")] {})) ∧
    writeSet {} (progress (syncServices [("a", "gold")] [("b", "gold")] {})).graph =
      writeSet {} (progress (syncServices [("a", "gold")] [("b", "iron")] {})).graph := by
  have hdigest : computeApplyDigest id (syncServices [("a", "gold")] [("b", "gold")] {})
        (progress (syncServices [("a", "gold")] [("b", "gold")] {})) =
      computeApplyDigest id (syncServices [("a", "gold")] [("b", "iron")] {})
        (progress (syncServices [("a", "gold")] [("b", "iron")] {})) := by decide +kernel
  have halike : Alike serviceLocks (syncServices [("a", "gold")] [("b", "gold")] {})
      (syncServices [("a", "gold")] [("b", "iron")] {}) :=
    { graph := rfl
      input := fun _ => rfl
      reads := fun id hid => absurd hid (by simp [Execution.plan, serviceLocks, serviceLock,
        syncServices, consulted, needs, fetchStep, writeStep, PlanStep.outputKey,
        WorkflowRuns.outputKey])
      actor := rfl
      stamps := fun _ _ _ => ⟨rfl, rfl⟩ }
  exact ⟨hdigest, digest_fixes_the_writes Function.injective_id serviceLocks
    (syncServices [("a", "gold")] [("b", "gold")] {})
    (syncServices [("a", "gold")] [("b", "iron")] {}) (execute_progress (by decide +kernel))
    (execute_progress (by decide +kernel)) hdigest (.inl halike)⟩

/-- Both executions go through, and one digest stands for two write sets. -/
def OneDigestForTwoWrites (e₁ e₂ : Execution) : Prop :=
  (e₁.execute serviceLocks).isOk = true ∧ (e₂.execute serviceLocks).isOk = true ∧
    computeApplyDigest id e₁ (progress e₁) = computeApplyDigest id e₂ (progress e₂) ∧
    computeApplyDigest id e₁ (progress e₁) ≠ none ∧
    writeSet e₁.graph (progress e₁).graph ≠ writeSet e₂.graph (progress e₂).graph

instance : Decidable (OneDigestForTwoWrites e₁ e₂) :=
  inferInstanceAs (Decidable (_ ∧ _ ∧ _ ∧ _ ∧ _))

/-- Two answers of the provider, and two stores of which each holds one of the two
services that the input names: the hash does not matter, as the payloads agree. -/
theorem one_digest_for_two_writes :
    OneDigestForTwoWrites (importServices [("a", "gold")] {}) (importServices [("a", "iron")] {}) ∧
    OneDigestForTwoWrites
      (syncServices [("a", "gold"), ("b", "gold")] [] (storedService "a" "gold"))
      (syncServices [("a", "gold"), ("b", "gold")] [] (storedService "b" "gold")) := by
  decide +kernel

end Cruxible.ApplyDigest
