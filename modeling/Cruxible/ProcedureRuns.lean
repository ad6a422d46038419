import Cruxible.Attempts
import Cruxible.JustifiedLogs
import Cruxible.WorkflowRuns
import Mathlib.Algebra.Order.Ring.Unbundled.Rat

/-!
# Procedure runs

The run of a compiled procedure over the mutable execution context. An attempt of a
repeat starts from a copy of the outputs. Only providers outside of the process are
admitted to a procedure: they answer with values, and reach none of those that they
were sent. Beside the context a log is kept, which no step reads.
-/
namespace Cruxible.ProcedureRuns
open JsonValue PythonDict PropertyValidation ReadMetadata WorkflowRuns Attempts Attempt JustifiedLogs

/-- Where a step stands: in the plan, or in the body of a repeat during an attempt. -/
inductive Place where
  | top (index : Nat)
  | nested (index attempt position : Nat)
  deriving DecidableEq, Repr

inductive Event where
  /-- A step is about to run, and this is what it can refer to. -/
  | started (place : Place) (visible : Outputs)
  | invoked (place : Place) (provider : String) (payload : Object)
  | stored (place : Place) (key : String) (output : Object)
  | attempted (index attempt : Nat)
  | judged (index attempt : Nat) (satisfied : Bool)
  | completed (index : Nat) (visible : Outputs)
  deriving DecidableEq

inductive ProcedureError where
  | core (e : CoreError)
  | wallClockExceeded (wallClockS : Rat)
  | providerCallsExceeded (maxProviderCalls : Nat)
  | repeatExhausted (stepId : String) (maxAttempts : Nat)
  deriving DecidableEq

/-- `WorkflowExecutionContext`, with the counters of `ProcedureExecutionBudget`. -/
structure Context where
  stepOutputs : Outputs := ∅
  aliasStepIds : Dict String String := ∅
  providerCalls : Nat := 0
  readings : Nat := 0
  log : List Event := []

def Context.note (c : Context) (e : Event) : Context := { c with log := c.log ++ [e] }

/-- The budget of a run, and everything that answers from outside. -/
structure ProcedureEnv where
  answers : RunEnv
  wallClockS : Rat
  maxProviderCalls : Nat
  startedMonotonic : Rat
  clock : Nat → Rat
  validateInput : String → Value → Except CoreError Object
  verifyProvider : Nat → String → Except CoreError Unit
  /-- A call by its position in the log, with the payload and the time that is left. -/
  invoke : Nat → String → Object → Rat → Except CoreError Value
  validateOutput : String → Object → Except CoreError Object
  runtimeReference : CoreError → Option String
  validateResult : Value → Except CoreError Value

abbrev Handler (α : Type) := Attempt Context ProcedureError α

def core {α : Type} (x : Except CoreError α) : Handler α := lift (x.mapError .core)

/-- `remaining_wall_clock_s`: every call reads the clock again. -/
def remainingWallClockS (env : ProcedureEnv) : Handler Rat := fun c =>
  (.ok (env.wallClockS - max 0 (env.clock c.readings - env.startedMonotonic)),
    { c with readings := c.readings + 1 })

def checkWallClock (env : ProcedureEnv) : Handler Unit := do
  let remaining ← remainingWallClockS env
  if remaining ≤ 0 then raise (.wallClockExceeded env.wallClockS) else pure ()

/-- `before_provider_invocation`. -/
def beforeProviderInvocation (env : ProcedureEnv) : Handler Rat := do
  checkWallClock env
  let c ← get
  if env.maxProviderCalls ≤ c.providerCalls then
    raise (.providerCallsExceeded env.maxProviderCalls)
  else
    let remaining ← remainingWallClockS env
    if remaining ≤ 0 then raise (.wallClockExceeded env.wallClockS)
    else
      modify fun c => { c with providerCalls := c.providerCalls + 1 }
      pure remaining

/-- `set_step_output`. -/
def setStepOutput (place : Place) (stepId : String) (asName : Option String) (output : Object) :
    Handler Unit :=
  modify fun c =>
    { c with
      stepOutputs := c.stepOutputs.set (outputKey stepId asName) (.object output)
      aliasStepIds := asName.elim c.aliasStepIds fun name => c.aliasStepIds.set name stepId
      log := c.log ++ [.stored place (outputKey stepId asName) output] }

/-- The provider itself is called. -/
def invokeProvider (env : ProcedureEnv) (place : Place) (name : String) (payload : Object)
    (remaining : Rat) : Handler Value := fun c =>
  ((env.invoke c.log.length name payload remaining).mapError .core,
    c.note (.invoked place name payload))

def requireMapping (name : String) : Value → Except CoreError Object
  | .object entries => .ok entries
  | _ => .error (.queryExecution s!"Provider '{name}' returned non-dict output")

/-- `retain_payload`, which takes the canonical JSON of every payload that it traces. -/
def retainPayload (payload : Object) : Except CoreError Unit :=
  if Value.finite (.object payload) then .ok ()
  else .error (.value "Out of range float values are not JSON compliant")

/-- An error that is none of the core comes out of a provider as a query error. -/
def providerError : CoreError → CoreError
  | .value message | .overflow message | .attribute message =>
      .queryExecution (if message = "" then "Provider execution failed" else message)
  | .keyError key => .queryExecution s!"'{key}'"
  | e => e

/-- The error of a failed call, which is traced first. -/
def callError (payload : Object) : ProcedureError → ProcedureError
  | .core e => match retainPayload payload with
      | .error traceError => .core traceError
      | .ok _ => .core (providerError e)
  | e => e

/-- The call, and the checks on what it returned. -/
def checkedOutput (env : ProcedureEnv) (place : Place) (name : String) (input : Value)
    (payload : Object) (remaining : Rat) : Handler Object := do
  let returned ← invokeProvider env place name payload remaining
  let raw ← core (requireMapping name returned)
  let checked ← core (env.validateOutput name raw)
  let c ← get
  let metadata ← core (sourceReadMetadataFromTemplate input c.stepOutputs)
  pure (providerOutput checked metadata)

/-- The budget is checked first, the digest of the provider second. -/
def callProvider (env : ProcedureEnv) (place : Place) (name : String) (input : Value)
    (payload : Object) : Handler Object := do
  let remaining ← beforeProviderInvocation env
  let c ← get
  core (env.verifyProvider c.log.length name)
  rewordError (callError payload) (checkedOutput env place name input payload remaining)

/-- `execute_provider_handler`. -/
def executeProviderStep (env : ProcedureEnv) (place : Place) (s : PlanStep) (name : String)
    (input : Value) : Handler Unit := do
  let c ← get
  let resolved ← core
    (Scope.resolveValue { input := env.answers.input, outputs := c.stepOutputs } input)
  let payload ← core (env.validateInput name resolved)
  let output ← callProvider env place name input payload
  core (retainPayload payload)
  core (retainPayload output)
  setStepOutput place s.stepId s.asName output
  checkWallClock env

/-- The handlers of the other steps. -/
def executeOtherStep (env : ProcedureEnv) (place : Place) (s : PlanStep) : Handler Unit := do
  let c ← get
  let done ← core (perform env.answers c.log.length c.stepOutputs s)
  match done.output with
  | none => pure ()
  | some output => setStepOutput place s.stepId s.asName output

def ArtifactKind.text : ArtifactKind → String
  | .aggregateItems => "aggregate_items"
  | .dedupeItems => "dedupe_items"
  | .makeCandidates => "make_candidates"
  | .mapSignals => "map_signals"
  | .proposeRelationshipGroup => "propose_relationship_group"
  | .makeEntities => "make_entities"
  | .makeRelationships => "make_relationships"
  | .registerSourceArtifacts => "register_source_artifacts"
  | .applyEntities => "apply_entities"
  | .applyRelationships => "apply_relationships"
  | .applyAll => "apply_all"

def stepKind : StepBody → String
  | .query .. => "query"
  | .provider .. => "provider"
  | .assertCondition .. => "assert"
  | .assertNotTruncated .. => "assert_not_truncated"
  | .assertCount .. => "assert_count"
  | .assertExists .. => "assert_exists"
  | .shapeItems .. => "shape_items"
  | .joinItems .. => "join_items"
  | .filterItems .. => "filter_items"
  | .artifact spec => ArtifactKind.text spec.kind

/-- The error that the registry raises for the one of a handler. -/
def registryError (env : ProcedureEnv) (s : PlanStep) : ProcedureError → ProcedureError
  | .core (.keyError _) => .core (.queryExecution
      s!"Procedure step '{s.stepId}' of kind '{stepKind s.body}' failed during execution (KeyError)")
  | .core e => match env.runtimeReference e with
      | none => .core e
      | some reference => .core (.queryExecution
          s!"Procedure step '{s.stepId}' failed to resolve runtime reference '{reference}' (QueryExecutionError)")
  | e => e

def handle (env : ProcedureEnv) (place : Place) (s : PlanStep) : Handler Unit :=
  match s.body with
  | .provider name input => executeProviderStep env place s name input
  | _ => executeOtherStep env place s

/-- `WorkflowStepRegistry.execute`. -/
def executeStep (env : ProcedureEnv) (place : Place) (s : PlanStep) : Handler Unit := do
  modify fun c => c.note (.started place c.stepOutputs)
  rewordError (registryError env s) (handle env place s)

def executeNestedSteps (env : ProcedureEnv) (index attempt : Nat) :
    Nat → List PlanStep → Handler Unit
  | _, [] => pure ()
  | position, s :: steps => do
      checkWallClock env
      executeStep env (.nested index attempt position) s
      executeNestedSteps env index attempt (position + 1) steps

/-- The outputs with which the body of an attempt ends. -/
def executeBody (env : ProcedureEnv) (index attempt : Nat) (steps : List PlanStep) :
    Handler Outputs := do
  executeNestedSteps env index attempt 0 steps
  let c ← get
  pure c.stepOutputs

/-- One attempt, on a copy of the outputs. They are put back however it ends. -/
def executeAttempt (env : ProcedureEnv) (index attempt : Nat) (steps : List PlanStep) :
    Handler Outputs :=
  bracketed (fun c => c.note (.attempted index attempt))
    (fun before c =>
      { c with stepOutputs := before.stepOutputs, aliasStepIds := before.aliasStepIds })
    (executeBody env index attempt steps)

/-- The loop of `execute_repeat_handler`. -/
def executeAttempts (env : ProcedureEnv) (index : Nat) (stepId : String) (asName : Option String)
    (untilSpec : ComparisonSpec) (steps : List PlanStep) : Nat → Nat → Handler Unit
  | 0, attempt => raise (.repeatExhausted stepId (attempt - 1))
  | left + 1, attempt => do
      checkWallClock env
      let outputs ← executeAttempt env index attempt steps
      let inScope := attemptScopedOutputs steps outputs
      let satisfied ← core (evaluateAssertCondition env.answers (Dict.ofList inScope) untilSpec)
      modify fun c => c.note (.judged index attempt satisfied)
      checkWallClock env
      if satisfied then
        setStepOutput (.top index) stepId asName
          (Bindings.set inScope "attempt_count" (count attempt))
      else executeAttempts env index stepId asName untilSpec steps left (attempt + 1)

def executeItem (env : ProcedureEnv) (index : Nat) : PlanItem → Handler Unit
  | .step s => executeStep env (.top index) s
  | .repeatSteps stepId asName maxAttempts untilSpec steps => do
      modify fun c => c.note (.started (.top index) c.stepOutputs)
      executeAttempts env index stepId asName untilSpec steps maxAttempts 1

def executeItems (env : ProcedureEnv) : Nat → List PlanItem → Handler Unit
  | _, [] => checkWallClock env
  | index, item :: plan => do
      checkWallClock env
      executeItem env index item
      modify fun c => c.note (.completed index c.stepOutputs)
      executeItems env (index + 1) plan

/-- Assertions are compiled without an output name. -/
def StepBody.asserts : StepBody → Bool
  | .assertCondition .. | .assertNotTruncated .. | .assertCount .. | .assertExists .. => true
  | _ => false

def compileStep (s : PlanStep) : PlanStep :=
  if StepBody.asserts s.body then { s with asName := none } else s

def compileItem : PlanItem → PlanItem
  | .step s => .step (compileStep s)
  | .repeatSteps stepId asName maxAttempts untilSpec steps =>
      .repeatSteps stepId asName maxAttempts untilSpec (steps.map compileStep)

/-- `_resolve_procedure_output`. -/
def resolveProcedureOutput (returns : String) : Handler Value := do
  let c ← get
  match c.stepOutputs.get? returns with
  | some v => pure v
  | none => raise (.core (.queryExecution
      s!"Procedure step '{returns}' failed to resolve runtime reference '{returns}' (KeyError)"))

/-- `execute_procedure_plan`, on the compiled steps of a definition. -/
def executeProcedurePlan (env : ProcedureEnv) (plan : List PlanItem) (returns : String) :
    Handler Value := do
  executeItems env 0 (plan.map compileItem)
  let output ← resolveProcedureOutput returns
  core (env.validateResult output)

def runProcedure (env : ProcedureEnv) (plan : List PlanItem) (returns : String) :
    Except ProcedureError Value × Context :=
  executeProcedurePlan env plan returns {}

end Cruxible.ProcedureRuns
