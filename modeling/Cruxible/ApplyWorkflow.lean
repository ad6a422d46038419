import Cruxible.ApplyDigest
import Cruxible.InFlight

/-!
# Applying a workflow after its preview

An apply request executes the workflow once more as a preview, compares the apply
digest and the head snapshot of that execution with what its caller expects, and
then executes the workflow a second time inside a write transaction, which
commits the resulting graph under a new head. Nothing is compared inside the
transaction. The second execution is the one that was checked as long as no other
transaction commits between the two and the workflow repeats itself on one state.
-/
namespace Cruxible.ApplyWorkflow
open JsonValue PythonDict Fallible Cruxible.Graph PropertyValidation GraphOperations DirectWrites
open WorkflowApply ApplyDigest InFlight

/-- The state that an execution loads. -/
structure InstanceState where
  graph : EntityGraph := {}
  headSnapshotId : Option String := none
  lockDigest : String := ""

/-- A canonical workflow in one of its runs: what the queries, the providers and
the artifact store answer on the state that the run loads. -/
structure Workflow where
  name : String
  input : Value := .object []
  reads : InstanceState → String → Except CoreError StepOutput
  registers : InstanceState → String → Except CoreError ArtifactRegistration := fun _ _ => .ok {}
  guards : WorkflowGuards
  upstream : Option UpstreamMetadata := none
  refuseDirectWritesEnv : Option String := none
  call : Call := {}
  mint : String → String → Nat → String := fun _ _ _ => ""

def Workflow.execution (wf : Workflow) (s : InstanceState) : Execution where
  workflow := wf.name
  input := wf.input
  lockDigest := s.lockDigest
  headSnapshotId := s.headSnapshotId
  graph := s.graph
  reads := wf.reads s
  registers := wf.registers s
  guards := wf.guards
  upstream := wf.upstream
  refuseDirectWritesEnv := wf.refuseDirectWritesEnv
  call := wf.call
  mint := wf.mint

section
variable {δ : Type} [DecidableEq δ]

/-- The apply digest of an execution on a state; a failed execution has none. -/
def Workflow.applyDigest (locks : String → Locked) (digest : DigestPayload → δ) (wf : Workflow)
    (s : InstanceState) : Option δ :=
  match (wf.execution s).execute locks with
  | .ok p => computeApplyDigest digest (wf.execution s) p
  | .error _ => none

/-- `service_apply_workflow`: the run of the re-preview, the lock file as it reads
afterwards, the run inside the transaction, and what the caller expects. -/
structure ApplyRequest (δ : Type) where
  preview : Workflow
  currentLockDigest : String → String := id
  apply : Workflow
  expectedApplyDigest : δ
  expectedHeadSnapshotId : Option String
  mintedSnapshotId : String

/-- The guard that runs before the transaction. -/
def ApplyRequest.check (locks : String → Locked) (digest : DigestPayload → δ) (r : ApplyRequest δ)
    (s : InstanceState) : Except CoreError Unit := do
  let p ← (r.preview.execution s).execute locks
  refuseIf (computeApplyDigest digest (r.preview.execution s) p ≠ some r.expectedApplyDigest)
    (.config "Workflow apply digest mismatch; rerun workflow preview before apply")
  refuseIf (s.headSnapshotId ≠ r.expectedHeadSnapshotId)
    (.config ("Workflow head snapshot changed between preview and apply.\n" ++
      "Apply requires the apply digest and head snapshot id produced by " ++
      "the same preview execution."))
  refuseIf (s.lockDigest ≠ r.currentLockDigest s.lockDigest)
    (.config "Workflow lock changed; rerun workflow preview before apply")

/-- The transaction: the graph of the second execution, under a new head. -/
def ApplyRequest.commit (locks : String → Locked) (r : ApplyRequest δ) (s : InstanceState) :
    Except CoreError InstanceState := do
  let p ← (r.apply.execution s).execute locks
  return { s with graph := p.graph, headSnapshotId := some r.mintedSnapshotId }

/-- An apply, or any other transaction on the instance: a write, a snapshot, a
new lock. -/
inductive Request (δ : Type) where
  | apply (r : ApplyRequest δ)
  | other (transaction : InstanceState → Except CoreError InstanceState)

def Request.read (locks : String → Locked) (digest : DigestPayload → δ) (q : Request δ)
    (s : InstanceState) : Except CoreError (Request δ) :=
  match q with
  | .apply r => do
      r.check locks digest s
      return q
  | .other _ => .ok q

def Request.commit (locks : String → Locked) (q : Request δ) (s : InstanceState) :
    Except CoreError InstanceState :=
  match q with
  | .apply r => r.commit locks s
  | .other transaction => transaction s

/-- The instance is one key: any commit writes it. -/
def applySystem (locks : String → Locked) (digest : DigestPayload → δ) :
    System InstanceState (Request δ) (Request δ) Unit CoreError where
  read := Request.read locks digest
  commit := Request.commit locks
  writes := fun _ _ => [()]

def instanceView (_ : Unit) (s : InstanceState) : InstanceState := s

theorem applySystem_framed (locks : String → Locked) (digest : DigestPayload → δ) :
    Framed (applySystem locks digest) instanceView := by
  intro p s s' _ k hk
  exact absurd (List.mem_cons_self : () ∈ [()]) hk

abbrev ApplyCommit (δ : Type) := Commit InstanceState (Request δ) Unit

/-- The execution inside the transaction has the expected digest, and the head
that the transaction meets is the expected one. -/
def AppliesExpected (locks : String → Locked) (digest : DigestPayload → δ) (c : ApplyCommit δ) :
    Prop :=
  match c.plan with
  | .apply r => r.apply.applyDigest locks digest c.before = some r.expectedApplyDigest ∧
      c.before.headSnapshotId = r.expectedHeadSnapshotId
  | .other _ => True

/-- No other transaction since the check, and on the state of the transaction the
two runs of the workflow have one digest. -/
def Undisturbed (locks : String → Locked) (digest : DigestPayload → δ) (c : ApplyCommit δ) :
    Prop :=
  match c.plan with
  | .apply r => c.since = [] ∧
      r.apply.applyDigest locks digest c.before = r.preview.applyDigest locks digest c.before
  | .other _ => True

variable {locks : String → Locked} {digest : DigestPayload → δ} {r : ApplyRequest δ}
  {s : InstanceState}

omit [DecidableEq δ] in
/-- Two runs of a workflow on one state, to which every step that matters answers
the same, have one digest: an apply that is not overtaken is then `Undisturbed`. -/
theorem undisturbed_of_equal_answers {c : ApplyCommit δ} (hplan : c.plan = .apply r)
    (hsince : c.since = [])
    (hmatched : Matched ((r.apply.execution c.before).plan locks) (r.apply.execution c.before)
      (r.preview.execution c.before))
    {p q : Progress} (hp : (r.apply.execution c.before).execute locks = .ok p)
    (hq : (r.preview.execution c.before).execute locks = .ok q) : Undisturbed locks digest c := by
  unfold Undisturbed
  rw [hplan]
  refine ⟨hsince, ?_⟩
  unfold Workflow.applyDigest
  rw [hp, hq]
  exact matched_runs_have_one_digest hmatched rfl rfl rfl hp hq

theorem check_ok {u : Unit} (h : r.check locks digest s = .ok u) :
    r.preview.applyDigest locks digest s = some r.expectedApplyDigest ∧
      s.headSnapshotId = r.expectedHeadSnapshotId := by
  unfold ApplyRequest.check at h
  obtain ⟨p, hp, h⟩ := bind_eq_ok.mp h
  obtain ⟨⟨⟩, hdigest, h⟩ := bind_eq_ok.mp h
  obtain ⟨⟨⟩, hhead, -⟩ := bind_eq_ok.mp h
  have hhead := not_not.mp (refuseIf_eq_ok.mp hhead)
  have hexpected := not_not.mp (refuseIf_eq_ok.mp hdigest)
  refine ⟨?_, hhead⟩
  unfold Workflow.applyDigest
  rw [hp]
  exact hexpected

theorem Request.read_apply {q : Request δ} (h : q.read locks digest s = .ok (.apply r)) :
    r.check locks digest s = .ok () := by
  cases q with
  | apply r' =>
    obtain ⟨⟨⟩, hcheck, h⟩ := bind_eq_ok.mp h
    obtain rfl := Request.apply.inj (pure_eq_ok.mp h)
    exact hcheck
  | other transaction => cases Except.ok.inj h

end

/-- The workflow whose provider answers with service `a` of tier gold. -/
def importWorkflow : Workflow where
  name := "import"
  reads := fun _ _ => .ok (.value (tiers [("a", "gold")]))
  guards := FreeWrites.plainEnvironment.workflowGuards

/-- The request of a caller who previewed the import on the empty instance. -/
def importRequest : ApplyRequest DigestPayload where
  preview := importWorkflow
  apply := importWorkflow
  expectedApplyDigest := digestPayload (importWorkflow.execution {})
    (progress (importWorkflow.execution {}))
  expectedHeadSnapshotId := none
  mintedSnapshotId := "snap_1"

/-- The import, and a write of the same service with tier iron. -/
def importAndWrite : Nat → Request DigestPayload
  | 0 => .apply importRequest
  | _ => .other fun s => .ok { s with graph := storedService "a" "iron" }

instance (c : ApplyCommit DigestPayload) : Decidable (AppliesExpected serviceLocks id c) :=
  match c with
  | ⟨_, .apply _, _, _, _⟩ => inferInstanceAs (Decidable (_ ∧ _))
  | ⟨_, .other _, _, _, _⟩ => .isTrue trivial

instance (c : ApplyCommit DigestPayload) : Decidable (Undisturbed serviceLocks id c) :=
  match c with
  | ⟨_, .apply _, _, _, _⟩ => inferInstanceAs (Decidable (_ ∧ _))
  | ⟨_, .other _, _, _, _⟩ => .isTrue trivial

end Cruxible.ApplyWorkflow
