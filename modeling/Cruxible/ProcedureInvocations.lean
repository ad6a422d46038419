import Cruxible.ProcedureHistories
import Cruxible.ProcedureRuns
import Cruxible.QueryEngine

/-!
# Invoking a procedure

`service_run_procedure`: one transaction records the run, one authorizes it, and one
keeps its receipt and its evidence. The plan is executed between the last two, outside
of any transaction, and whatever others do to the store comes between all three.
-/
namespace Cruxible.ProcedureInvocations
open JsonValue PythonDict KeyedTable Permissions ProcedureLifecycle PropertyValidation
open AssertionState (Timestamp)
open Cruxible.Graph (EntityGraph EntityInstance)
open WorkflowRuns (PlanItem)
open ReadMetadata (Object Outputs)
open ProcedureRuns hiding core

/-- Without an entity type every invocation is authorized. -/
structure ProcedurePrecondition where
  entityType : Option String := none
  condition : Dict String Value := ∅

structure ProcedureBudget where
  wallClockS : Rat
  maxProviderCalls : Nat

/-- What an invocation reads of a definition; `steps` stands for what it is compiled from. -/
structure ProcedureBody (γ : Type) where
  steps : γ
  returns : String
  precondition : ProcedurePrecondition
  budget : ProcedureBudget
  evidenceOutputs : Option (List String) := none
  distinctAliases : ∀ aliases, evidenceOutputs = some aliases → aliases.Nodup

inductive RefusalReason where
  | procedureNotLive
  | definitionDigestChanged
  | tierNotPermitted
  | preflightRefused
  | preconditionEvaluationFailed
  | preconditionUnsatisfied
  deriving DecidableEq, Repr

/-- Only a refused run has a reason of refusal. -/
inductive RunVerdict where
  | succeeded
  | failed
  | budgetExceeded
  | refused (reason : RefusalReason)
  deriving DecidableEq, Repr

structure ProcedureBudgetSpent where
  wallClockS : Rat := 0
  providerCalls : Nat := 0
  deriving DecidableEq

/-- A run has a verdict and a receipt exactly when it is finalized. -/
inductive RunState where
  | started
  | finalized (verdict : RunVerdict) (spent : ProcedureBudgetSpent) (receiptId : String)
  deriving DecidableEq

/-- A row of `procedure_runs`. -/
structure ProcedureRun where
  runId : String
  procedureId : String
  definitionDigest : String
  state : RunState := .started
  deriving DecidableEq

/-- An exception, by the classes that the service tells apart. -/
inductive Raised where
  | config (message : String)
  | permissionDenied (operation current required : String)
  | other (typeName message : String)
  deriving DecidableEq

structure PreconditionDetail where
  evaluated : Bool := false
  readRevision : Option Nat := none
  procedureStatus : Option ProcedureStatus := none
  definitionDigest : Option String := none
  precondition : ProcedurePrecondition
  satisfied : Bool := false
  satisfiers : List (String × String) := []
  reason : Option Raised := none

/-- The root of a receipt. `runId` is no part of it: it is the run that it was built for. -/
structure ProcedureReceipt where
  receiptId : String
  runId : String
  procedureId : String
  definitionDigest : String
  acceptedAgainst : Option String × Option String
  executedAgainst : Option String × Option String
  precondition : PreconditionDetail
  declaredBudget : ProcedureBudget
  spent : ProcedureBudgetSpent
  verdict : RunVerdict
  input : Object

/-- A row of `procedure_evidence_artifacts`; an oversized output keeps its head only. -/
structure EvidenceArtifact where
  artifactId : String
  contentDigest : String
  byteCount : Nat
  payload : Option Value
  truncatedHead : Option String
  oversized : Bool

/-- A row of `procedure_run_evidence`. -/
structure EvidenceLink where
  runId : String
  outputAlias : String
  artifactId : String
  receiptId : String
  deriving DecidableEq

structure EvidenceRef where
  sourceRecordId : String
  artifactId : String
  label : String
  receiptId : String
  contentDigest : String
  byteCount : Nat
  oversized : Bool
  deriving DecidableEq

variable {κ ℓ γ : Type}

abbrev Record (γ : Type) := ProcedureRecord (ProcedureBody γ)

structure Store (γ : Type) where
  procedures : Procedures (ProcedureBody γ) := ∅
  runs : Table ProcedureRun.runId := ∅
  receipts : Table ProcedureReceipt.receiptId := ∅
  artifacts : Table EvidenceArtifact.artifactId := ∅
  evidence : List EvidenceLink := []
  graph : EntityGraph := {}
  readRevision : Nat := 0

/-- The instance around the store, of a configuration type and a lock type. -/
structure InvocationEnv (κ ℓ γ : Type) where
  definitions : Definitions (ProcedureBody γ)
  loadConfig : Except Raised κ
  loadLock : Except Raised ℓ
  configDigest : κ → String
  lockDigest : ℓ → String
  /-- `validate_procedure_definition_against_config`: the mode that the tier requires. -/
  validateDefinition : ProcedureDefinition (ProcedureBody γ) → κ → Except Raised PermissionMode
  currentMode : PermissionMode
  compile : κ → ℓ → ProcedureDefinition (ProcedureBody γ) → Object →
    Except Raised (List PlanItem)
  /-- `entity_with_identity_properties`. -/
  identityProperties : κ → EntityInstance → Except Raised (Dict String Value)
  now : Timestamp := 0
  execution : ProcedureEnv
  /-- The text of canonical JSON, its SHA-256 and the head of an oversized one. -/
  canonicalText : Value → String
  sha256 : String → String
  head : String → String
  /-- An id that is new beside the given ones. -/
  mint : List String → String
  mint_fresh : ∀ ids, mint ids ∉ ids

namespace Store

/-- `list_run_evidence_refs`, in the order of the links. -/
def listRunEvidenceRefs (s : Store γ) (runId : String) : List EvidenceRef :=
  (s.evidence.filter fun l => l.runId = runId).filterMap fun l =>
    (s.artifacts.get? l.artifactId).map fun a =>
      { sourceRecordId := runId, artifactId := l.artifactId, label := l.outputAlias
        receiptId := l.receiptId, contentDigest := a.contentDigest, byteCount := a.byteCount
        oversized := a.oversized }

/-- `finalize_run`: the update finds the row only while it is started. -/
def finalizeRun (s : Store γ) (runId : String) (verdict : RunVerdict)
    (spent : ProcedureBudgetSpent) (receiptId : String) : Option (Store γ) :=
  match s.runs.get? runId with
  | some run =>
      match run.state with
      | .started =>
          some { s with runs := s.runs.put { run with state := .finalized verdict spent receiptId } }
      | .finalized .. => none
  | none => none

end Store

/-- Errors of the service. The first are raised before there is a run. -/
inductive InvocationError where
  | lifecycle (e : LifecycleError)
  | refused (reason : RefusalReason) (e : Raised)
  | execution (e : ProcedureError)
  | integrity (receiptId : String)
  | notStarted (runId : String)

/-- `_persist_built_procedure_receipt_in_uow`: a receipt is inserted, and its run finalized. -/
def persistBuiltProcedureReceiptInUow (s : Store γ) (receipt : ProcedureReceipt) :
    Except InvocationError (Store γ) :=
  match s.receipts.get? receipt.receiptId with
  | some _ => .error (.integrity receipt.receiptId)
  | none =>
      match ({ s with receipts := s.receipts.put receipt } : Store γ).finalizeRun receipt.runId
          receipt.verdict receipt.spent receipt.receiptId with
      | some t => .ok t
      | none => .error (.notStarted receipt.runId)

/-- `MAX_PROCEDURE_EVIDENCE_BYTES`. -/
def maxProcedureEvidenceBytes : Nat := 256 * 1024

/-- `_procedure_evidence_artifact`, or nothing where `canonical_json` raises. -/
def procedureEvidenceArtifact (env : InvocationEnv κ ℓ γ) (value : Value) :
    Option EvidenceArtifact :=
  if value.finite then
    let text := env.canonicalText value
    let oversized := decide (maxProcedureEvidenceBytes < text.utf8ByteSize)
    some
      { artifactId := "PJA-" ++ env.sha256 text
        contentDigest := "sha256:" ++ env.sha256 text
        byteCount := text.utf8ByteSize
        payload := if oversized then none else some value
        truncatedHead := if oversized then some (env.head text) else none
        oversized := oversized }
  else none

/-- `INSERT OR IGNORE`. -/
def saveEvidenceArtifact (s : Store γ) (a : EvidenceArtifact) : Store γ :=
  match s.artifacts.get? a.artifactId with
  | some _ => s
  | none => { s with artifacts := s.artifacts.put a }

/-- The loop of `_persist_procedure_evidence_outputs_in_uow`: whether it came to its end, and
the store, with what it wrote before it raised. -/
def persistOutputs (env : InvocationEnv κ ℓ γ) (runId receiptId : String) :
    List (String × Value) → Store γ → Bool × Store γ
  | [], s => (true, s)
  | (outputAlias, value) :: rest, s =>
      match procedureEvidenceArtifact env value with
      | none => (false, s)
      | some a =>
          let saved := saveEvidenceArtifact s a
          if saved.evidence.any fun l => l.runId = runId && l.outputAlias = outputAlias then
            (false, saved)
          else
            persistOutputs env runId receiptId rest
              { saved with evidence := saved.evidence ++ [⟨runId, outputAlias, a.artifactId, receiptId⟩] }

/-- The outputs to be kept; a declared alias without an output raises a `KeyError`. -/
def selectedOutputs (body : ProcedureBody γ) (output : Value) (stepOutputs : Outputs) :
    Option (List (String × Value)) :=
  match body.evidenceOutputs with
  | none => some [(body.returns, output)]
  | some aliases => aliases.mapM fun a => (stepOutputs.get? a).map fun v => (a, v)

/-- `_persist_procedure_evidence_outputs_in_uow` with the handler around it, which goes on
without references when it raises. -/
def persistProcedureEvidenceOutputs (env : InvocationEnv κ ℓ γ) (body : ProcedureBody γ)
    (runId receiptId : String) (output : Value) (stepOutputs : Outputs) (s : Store γ) :
    List EvidenceRef × Store γ :=
  match selectedOutputs body output stepOutputs with
  | none => ([], s)
  | some [] => ([], s)
  | some selected =>
      match persistOutputs env runId receiptId selected s with
      | (true, t) => (t.listRunEvidenceRefs runId, t)
      | (false, t) => ([], t)

inductive Elsewhere (γ : Type) where
  | lifecycle (r : Request (ProcedureBody γ))
  | graphWrite (g : EntityGraph)
  | startRun (procedureId : String)
  | finishRun (receipt : ProcedureReceipt) (outputs : List (String × Value))

def startedRun (procedure : Record γ) (runId : String) : ProcedureRun where
  runId := runId
  procedureId := procedure.procedureId
  definitionDigest := procedure.definitionDigest

/-- The first transaction: the record of the procedure and the run that is saved. -/
def startProcedureRun (env : InvocationEnv κ ℓ γ) (s : Store γ) (procedureId : String) :
    Outcome (Record γ × String × Store γ) := do
  let procedure ← getProcedure env.definitions s.procedures procedureId
  let runId := env.mint (s.runs.rows.map ProcedureRun.runId)
  pure (procedure, runId, { s with runs := s.runs.put (startedRun procedure runId) })

/-- A run is finished by its own invocation only. -/
def elsewhere (env : InvocationEnv κ ℓ γ) (own : String) (s : Store γ) :
    Elsewhere γ → Store γ
  | .lifecycle r => { s with procedures := handle env.definitions s.procedures r }
  | .graphWrite g => { s with graph := g, readRevision := s.readRevision + 1 }
  | .startRun procedureId =>
      match startProcedureRun env s procedureId with
      | .ok (_, _, t) => t
      | .error _ => s
  | .finishRun receipt outputs =>
      if receipt.runId = own then s
      else
        match persistBuiltProcedureReceiptInUow s receipt with
        | .ok t => (persistOutputs env receipt.runId receipt.receiptId outputs t).2
        | .error _ => s

def others (env : InvocationEnv κ ℓ γ) (own : String) (actions : List (Elsewhere γ))
    (s : Store γ) : Store γ :=
  actions.foldl (elsewhere env own) s

/-- `_verify_acceptance_pins`: both digests are pinned and are those at hand. -/
def verifyAcceptancePins (procedure : Record γ) (configDigest lockDigest : String) :
    Except Raised Unit :=
  if procedure.acceptanceConfigDigest.isNone ∨ procedure.acceptanceLockDigest.isNone then
    .error (.config s!"Procedure '{procedure.procedureId}' has no recorded acceptance digests, so there is no accepted config and lock to verify this run against")
  else if procedure.acceptanceConfigDigest = some configDigest ∧
      procedure.acceptanceLockDigest = some lockDigest then .ok ()
  else .error (.config s!"Procedure '{procedure.procedureId}' is pinned to the config and lock it was accepted against, which no longer match this instance")

structure Preflight (κ : Type) where
  config : κ
  configDigest : String
  lockDigest : String
  plan : List PlanItem

/-- `_require_procedure_execution_tier`. -/
def requireProcedureExecutionTier (current required : PermissionMode) : Except Raised Unit :=
  if current.level < required.level then
    .error (.permissionDenied "cruxible_run_procedure" current.name required.name)
  else .ok ()

/-- The part of the preflight that reads the configuration and the lock. -/
def compileForRun (env : InvocationEnv κ ℓ γ) (procedure : Record γ) (input : Object) :
    Except Raised (Preflight κ) := do
  let config ← env.loadConfig
  let lock ← env.loadLock
  let required ← env.validateDefinition procedure.definition config
  requireProcedureExecutionTier env.currentMode required
  verifyAcceptancePins procedure (env.configDigest config) (env.lockDigest lock)
  let plan ← env.compile config lock procedure.definition input
  pure { config := config, configDigest := env.configDigest config
         lockDigest := env.lockDigest lock, plan := plan }

/-- What is raised for a refusal, and under which reason. -/
def refusalOf : Raised → RefusalReason × Raised
  | .config message => (.preflightRefused, .config message)
  | .permissionDenied operation current required =>
      (.tierNotPermitted, .permissionDenied operation current required)
  | .other typeName message =>
      (.preflightRefused, .config s!"Procedure preflight failed closed: {typeName}: {message}")

def preflight (env : InvocationEnv κ ℓ γ) (procedure : Record γ) (input : Object) :
    Except (RefusalReason × Raised) (Preflight κ) :=
  if procedure.status ≠ .live then
    .error (.procedureNotLive, .config
      s!"Procedure '{procedure.procedureId}' must be live to run; found '{procedure.status.text}'")
  else if env.definitions.digest procedure.definition ≠ procedure.definitionDigest then
    .error (.definitionDigestChanged, .config
      s!"Procedure definition digest changed since acceptance: stored={procedure.definitionDigest}, computed={env.definitions.digest procedure.definition}")
  else (compileForRun env procedure input).mapError refusalOf

/-- `entity_matches_property_equality_condition`. -/
def matchesCondition (env : InvocationEnv κ ℓ γ) (config : κ) (condition : Dict String Value)
    (entity : EntityInstance) : Except Raised Bool := do
  let properties ← env.identityProperties config entity
  pure (condition.entries.all fun e => (properties.get? e.1).any fun v => v.pyEq e.2)

/-- `_procedure_precondition_satisfiers`: live entities, in the order of their ids. -/
def procedurePreconditionSatisfiers (env : InvocationEnv κ ℓ γ) (config : κ) (g : EntityGraph)
    (precondition : ProcedurePrecondition) : Except Raised (List (String × String)) :=
  match precondition.entityType with
  | none => .ok []
  | some entityType => do
      let live := (g.nodes.entries.map Prod.snd).filter fun d =>
        d.entityType = entityType && QueryEngine.entityMatchesQueryState d.metadata env.now .live
      let found ← live.filterM (matchesCondition env config precondition.condition)
      pure (((found.map fun d => d.entityId).insertionSort fun a b => a ≤ b).map
        fun i => (entityType, i))

/-- The second transaction: what the receipt says of the precondition, and the refusal. -/
def authorize (env : InvocationEnv κ ℓ γ) (procedure current : Record γ) (config : κ)
    (s : Store γ) : PreconditionDetail × Option (RefusalReason × Raised) :=
  let precondition := current.definition.body.precondition
  let detail : PreconditionDetail :=
    { readRevision := some s.readRevision, procedureStatus := some current.status
      definitionDigest := some current.definitionDigest, precondition := precondition }
  let refuse (detail : PreconditionDetail) (reason : RefusalReason) (e : Raised) :=
    ({ detail with reason := some e }, some (reason, e))
  if current.status ≠ .live then
    refuse detail .procedureNotLive (.config
      s!"Procedure '{current.procedureId}' must be live to run; found '{current.status.text}'")
  else if current.definitionDigest ≠ procedure.definitionDigest then
    refuse detail .definitionDigestChanged (.config
      s!"Procedure definition digest changed before authorization: started={procedure.definitionDigest}, current={current.definitionDigest}")
  else if env.definitions.digest current.definition ≠ current.definitionDigest then
    refuse detail .definitionDigestChanged (.config
      s!"Procedure definition digest changed before authorization: stored={current.definitionDigest}, computed={env.definitions.digest current.definition}")
  else
    match procedurePreconditionSatisfiers env config s.graph precondition with
    | .error e =>
        let message := match e with
          | .config m => s!"ConfigError: {m}"
          | .permissionDenied operation _ _ => s!"PermissionDeniedError: {operation}"
          | .other typeName m => s!"{typeName}: {m}"
        refuse { detail with evaluated := true } .preconditionEvaluationFailed (.config
          s!"Procedure precondition evaluation failed closed: {message}")
    | .ok satisfiers =>
        let detail := { detail with evaluated := true, satisfiers := satisfiers }
        if precondition.entityType.isNone || !satisfiers.isEmpty then
          ({ detail with satisfied := true }, none)
        else
          refuse detail .preconditionUnsatisfied (.config
            s!"Procedure '{procedure.procedureId}' precondition was unsatisfied")

/-- An invocation that was refused, and the store in which its refusal is kept. -/
structure Refusal (γ : Type) where
  procedure : Record γ
  runId : String
  store : Store γ
  executedAgainst : Option String × Option String
  detail : PreconditionDetail
  reason : RefusalReason
  raised : Raised

/-- An invocation that was authorized, and the store of the authorizing transaction. -/
structure Admission (κ γ : Type) where
  procedure : Record γ
  current : Record γ
  runId : String
  store : Store γ
  preflight : Preflight κ
  detail : PreconditionDetail

inductive Entry (κ γ : Type) where
  | unknown (e : LifecycleError)
  | lost (runId : String) (store : Store γ) (e : LifecycleError)
  | refused (r : Refusal γ)
  | admitted (a : Admission κ γ)

/-- The digests that are computed before the preflight can be refused for what it reads. -/
def executedDigests (env : InvocationEnv κ ℓ γ) (procedure : Record γ) :
    Option String × Option String :=
  if procedure.status ≠ .live ∨
      env.definitions.digest procedure.definition ≠ procedure.definitionDigest then (none, none)
  else
    match env.loadConfig, env.loadLock with
    | .ok config, .ok lock => (some (env.configDigest config), some (env.lockDigest lock))
    | _, _ => (none, none)

/-- From the first transaction to the end of the second, with what others do in between. -/
def enter (env : InvocationEnv κ ℓ γ) (procedureId : String) (input : Object)
    (before : List (Elsewhere γ)) (s : Store γ) : Entry κ γ :=
  match startProcedureRun env s procedureId with
  | .error e => .unknown e
  | .ok (procedure, runId, begun) =>
      let t := others env runId before begun
      match preflight env procedure input with
      | .error (reason, e) => .refused
          { procedure := procedure, runId := runId, store := t
            executedAgainst := executedDigests env procedure
            detail := { precondition := procedure.definition.body.precondition }
            reason := reason, raised := e }
      | .ok p =>
          match getProcedure env.definitions t.procedures procedureId with
          | .error e => .lost runId t e
          | .ok current =>
              match authorize env procedure current p.config t with
              | (detail, some (reason, e)) => .refused
                  { procedure := procedure, runId := runId, store := t
                    executedAgainst := (some p.configDigest, some p.lockDigest)
                    detail := detail, reason := reason, raised := e }
              | (detail, none) => .admitted
                  { procedure := procedure, current := current, runId := runId, store := t
                    preflight := p, detail := detail }

/-- `ProcedureExecutionBudget` of the definition, around the rest of the environment. -/
def executionEnv (env : InvocationEnv κ ℓ γ) (body : ProcedureBody γ) (input : Object) :
    ProcedureEnv :=
  { env.execution with
    wallClockS := body.budget.wallClockS
    maxProviderCalls := body.budget.maxProviderCalls
    answers := { env.execution.answers with input := input } }

def executed (env : InvocationEnv κ ℓ γ) (input : Object) (a : Admission κ γ) :
    Except ProcedureError Value × Context :=
  runProcedure (executionEnv env a.procedure.definition.body input) a.preflight.plan
    a.procedure.definition.body.returns

def elapsedS (penv : ProcedureEnv) (reading : Nat) : Rat :=
  max 0 (penv.clock reading - penv.startedMonotonic)

/-- A failure exceeds the budget also when the time is up by then. -/
def failureVerdict (penv : ProcedureEnv) (e : ProcedureError) (c : Context) : RunVerdict :=
  match e with
  | .wallClockExceeded _ => .budgetExceeded
  | .providerCallsExceeded _ => .budgetExceeded
  | _ => if penv.wallClockS - elapsedS penv c.readings ≤ 0 then .budgetExceeded else .failed

def receiptOf (env : InvocationEnv κ ℓ γ) (s : Store γ) (procedure : Record γ) (runId : String)
    (input : Object) (executedAgainst : Option String × Option String)
    (detail : PreconditionDetail) (spent : ProcedureBudgetSpent) (verdict : RunVerdict) :
    ProcedureReceipt where
  receiptId := env.mint (s.receipts.rows.map ProcedureReceipt.receiptId)
  runId := runId
  procedureId := procedure.procedureId
  definitionDigest := procedure.definitionDigest
  acceptedAgainst := (procedure.acceptanceConfigDigest, procedure.acceptanceLockDigest)
  executedAgainst := executedAgainst
  precondition := detail
  declaredBudget := procedure.definition.body.budget
  spent := spent
  verdict := verdict
  input := input

/-- `ProcedureExecutionResult`. -/
structure ExecutionResult (γ : Type) where
  procedure : Record γ
  run : ProcedureRun
  output : Value
  receipt : ProcedureReceipt
  stepOutputs : Outputs
  evidenceRefs : List EvidenceRef

inductive Ending (γ : Type) where
  | returned (result : ExecutionResult γ)
  | raised (e : InvocationError)

/-- What an invocation leaves, and what its execution logged. -/
structure Finished (γ : Type) where
  store : Store γ
  ending : Ending γ
  runId : Option String
  log : List Event

/-- The last transaction of a run that is not succeeded; what raises in it is rolled back. -/
def finishUnsuccessful (s : Store γ) (receipt : ProcedureReceipt) (e : InvocationError)
    (log : List Event) : Finished γ :=
  match persistBuiltProcedureReceiptInUow s receipt with
  | .ok t => { store := t, ending := .raised e, runId := some receipt.runId, log := log }
  | .error e' => { store := s, ending := .raised e', runId := some receipt.runId, log := log }

/-- The last transaction of a run that succeeded. -/
def finishSuccessful (env : InvocationEnv κ ℓ γ) (s : Store γ) (procedure : Record γ)
    (receipt : ProcedureReceipt) (output : Value) (stepOutputs : Outputs) (log : List Event) :
    Finished γ :=
  match persistBuiltProcedureReceiptInUow s receipt with
  | .error e => { store := s, ending := .raised e, runId := some receipt.runId, log := log }
  | .ok t =>
      match t.runs.get? receipt.runId with
      | none => { store := s, ending := .raised (.notStarted receipt.runId)
                  runId := some receipt.runId, log := log }
      | some run =>
          let kept := persistProcedureEvidenceOutputs env procedure.definition.body receipt.runId
            receipt.receiptId output stepOutputs t
          { store := kept.2
            ending := .returned
              { procedure := procedure, run := run, output := output, receipt := receipt
                stepOutputs := stepOutputs, evidenceRefs := kept.1 }
            runId := some receipt.runId
            log := log }

/-- `service_run_procedure`. -/
def serviceRunProcedure (env : InvocationEnv κ ℓ γ) (procedureId : String) (input : Object)
    (before during : List (Elsewhere γ)) (s : Store γ) : Finished γ :=
  match enter env procedureId input before s with
  | .unknown e => { store := s, ending := .raised (.lifecycle e), runId := none, log := [] }
  | .lost runId t e => { store := t, ending := .raised (.lifecycle e), runId := some runId, log := [] }
  | .refused r =>
      let spent : ProcedureBudgetSpent :=
        { wallClockS := elapsedS (executionEnv env r.procedure.definition.body input) 0 }
      finishUnsuccessful r.store
        (receiptOf env r.store r.procedure r.runId input r.executedAgainst r.detail spent
          (.refused r.reason)) (.refused r.reason r.raised) []
  | .admitted a =>
      let penv := executionEnv env a.procedure.definition.body input
      let against := (some a.preflight.configDigest, some a.preflight.lockDigest)
      let t := others env a.runId during a.store
      match executed env input a with
      | (.error e, c) =>
          let spent : ProcedureBudgetSpent :=
            { wallClockS := elapsedS penv (c.readings + 1), providerCalls := c.providerCalls }
          finishUnsuccessful t
            (receiptOf env t a.procedure a.runId input against a.detail spent
              (failureVerdict penv e c)) (.execution e) c.log
      | (.ok output, c) =>
          let spent : ProcedureBudgetSpent :=
            { wallClockS := elapsedS penv c.readings, providerCalls := c.providerCalls }
          finishSuccessful env t a.procedure
            (receiptOf env t a.procedure a.runId input against a.detail spent .succeeded)
            output c.stepOutputs c.log

end Cruxible.ProcedureInvocations
