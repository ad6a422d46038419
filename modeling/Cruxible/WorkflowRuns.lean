import Cruxible.CanonicalJson
import Cruxible.ReadMetadata

/-!
# Workflow and procedure runs

The steps of a compiled plan, one after the other, each on the outputs of the
steps before it, and the bounded repeats of procedures. Queries, providers and
the payloads of artifact steps answer from outside and may answer differently each
time. Beside the outputs a run keeps what no step reads: for every output the
queries that it rests on, and a trace of the executed steps.
-/
namespace Cruxible.WorkflowRuns
open JsonValue PythonDict PropertyValidation Fallible ReadMetadata

/-- What a query step takes from a query result. -/
structure QueryOutcome where
  results : List Value
  totalResults : Nat
  limit : Option Nat := none
  truncated : Bool
  limitTruncated : Bool
  pathTruncated : Bool
  truncationReasons : List String := []
  resultShape : String := "path"
  dedupe : String := "path"
  relationshipState : String := "live"
  policySummary : Object := []
  receiptId : String
  maxPaths : Option Nat := none
  maxPathsPerResult : Option Nat := none
  totalPathCount : Option Nat := none
  retainedPathCount : Option Nat := none
  stepsExecuted : Nat := 0

/-- The query reports that it was cut. -/
def QueryOutcome.reportsTruncation (q : QueryOutcome) : Bool :=
  q.truncated || q.limitTruncated || q.pathTruncated

/-- The steps that make artifacts or summaries. -/
inductive ArtifactKind where
  | aggregateItems
  | dedupeItems
  | makeCandidates
  | mapSignals
  | proposeRelationshipGroup
  | makeEntities
  | makeRelationships
  | registerSourceArtifacts
  | applyEntities
  | applyRelationships
  | applyAll
  deriving DecidableEq, Repr

/-- The keys of the output of an artifact step. -/
def ArtifactKind.keys : ArtifactKind → List String
  | .aggregateItems => ["items", "input_count", "group_count", "output_count"]
  | .dedupeItems =>
      ["items", "input_count", "output_count", "duplicate_count", "duplicate_examples"]
  | .makeCandidates => ["duplicate_input_count", "conflicting_duplicate_count",
      "duplicate_examples", "relationship_type", "candidates", "query_receipt_ids"]
  | .mapSignals => ["signal_source", "signals", "query_receipt_ids"]
  | .proposeRelationshipGroup => ["relationship_type", "proposal_step_id", "candidates_from",
      "members", "status", "candidate_count", "on_empty", "group_created", "thesis_text",
      "thesis_facts", "pending_refresh_mode", "analysis_state", "signal_sources_used",
      "query_receipt_ids", "suggested_priority"]
  | .makeEntities => ["duplicate_input_count", "conflicting_duplicate_count",
      "duplicate_examples", "entity_type", "entities"]
  | .makeRelationships => ["duplicate_input_count", "conflicting_duplicate_count",
      "duplicate_examples", "relationship_type", "relationships"]
  | .registerSourceArtifacts => ["registered", "noops", "artifact_ids", "revisions",
      "revision_handles", "citation_handles"]
  | .applyEntities => ["duplicate_input_count", "conflicting_duplicate_count",
      "duplicate_examples", "entity_type", "create_count", "update_count", "noop_count"]
  | .applyRelationships => ["duplicate_input_count", "conflicting_duplicate_count",
      "duplicate_examples", "relationship_type", "create_count", "update_count", "noop_count"]
  | .applyAll => ["entities_from", "relationships_from", "entity_results",
      "relationship_results", "create_count", "update_count", "noop_count",
      "duplicate_input_count", "conflicting_duplicate_count"]

/-- The kinds that attach the read metadata of their items. -/
def ArtifactKind.attaches : ArtifactKind → Bool
  | .aggregateItems | .dedupeItems => true
  | _ => false

/-- Aggregation and the steps that build or apply artifacts: the collection they
read, the other templates they resolve, and the outputs they take by name. -/
structure ArtifactSpec where
  kind : ArtifactKind
  items : Option Value := none
  templates : List Value := []
  aliases : List String := []

structure ShapeItemsSpec where
  items : Value
  includeInput : Bool := false
  rename : Dict String String := ∅
  fields : Object := []
  casts : List (String × String) := []
  required : List String := []
  dropsMissing : Bool := false

structure JoinItemsSpec where
  leftItems : Value
  rightItems : Value
  leftKey : Value
  rightKey : Value
  fields : Object := []

structure ComparisonSpec where
  left : Value
  op : String
  right : Value
  valueType : Option String := none

structure FilterItemsSpec where
  items : Value
  filter : Object := []
  comparisons : List ComparisonSpec := []

inductive StepBody where
  | query (params : Value) (relationshipState : Option Value)
  | provider (name : String) (input : Value)
  | assertCondition (condition : ComparisonSpec) (message : String)
  | assertNotTruncated (step : String)
  | assertCount (step : String) (count : Value → Except CoreError Int) (op : String)
      (value : Value) (message : String)
  | assertExists (ref : Value) (message : String)
  | shapeItems (spec : ShapeItemsSpec)
  | joinItems (spec : JoinItemsSpec)
  | filterItems (spec : FilterItemsSpec)
  | artifact (spec : ArtifactSpec)

structure PlanStep where
  stepId : String
  asName : Option String := none
  body : StepBody

/-- `output_key`. -/
def outputKey (stepId : String) (asName : Option String) : String :=
  match asName with
  | none => stepId
  | some name => if name = "" then stepId else name

inductive PlanItem where
  | step (s : PlanStep)
  | repeatSteps (stepId : String) (asName : Option String) (maxAttempts : Nat)
      (untilSpec : ComparisonSpec) (steps : List PlanStep)

/-- The input of a run, and everything that answers from outside. The first
argument of an answer counts the steps executed so far. -/
structure RunEnv where
  input : Object
  runQuery : Nat → PlanStep → Value → Option Value → Except CoreError QueryOutcome
  /-- A provider call with both of its contracts checked. -/
  callProvider : Nat → String → Value → Except CoreError Object
  payload : Nat → ArtifactSpec → Outputs → Except CoreError (String → Value)
  /-- `_cast_shape_value`. -/
  cast : String → String → Value → String → Except CoreError Value
  /-- `evaluate_typed_comparison`. -/
  compare : ComparisonSpec → Value → Value → Except CoreError Bool

def ensureItemMapping (stepId stepKind : String) : Value → Except CoreError Object
  | .object entries => .ok entries
  | _ => .error (.queryExecution
      s!"Workflow step '{stepId}' {stepKind} items must contain mappings")

/-- `resolve_step_items`. -/
def resolveStepItems (sc : Scope) (template : Value) : Except CoreError (List Value) := do
  match ← sc.resolveValue template with
  | .array items => pure items
  | _ => .error (.queryExecution "Built-in workflow step 'items' must resolve to a list")

/-- `_apply_shape_rename`. -/
def applyShapeRename (stepId : String) (source : Object) (rename : Dict String String) :
    Except CoreError Object :=
  rename.entries.foldlM (fun row (r : String × String) =>
    if (Bindings.get? source r.1).isNone then .ok row
    else if r.2 ≠ r.1 ∧ (Bindings.get? source r.2).isSome then .error (.queryExecution
      s!"Workflow step '{stepId}' shape_items rename collision: '{r.2}' already exists")
    else match Bindings.get? row r.1 with
      | none => .error (.keyError r.1)
      | some v => .ok (Bindings.set (if r.2 = r.1 then row else Bindings.erase row r.1) r.2 v))
    source

/-- `_shape_required_value_missing`. -/
def shapeRequiredValueMissing (row : Object) (field : String) : Bool :=
  match Bindings.get? row field with
  | none => true
  | some v => v = .null || v = .str ""

inductive ShapedRow where
  | kept (row : Object)
  | dropped (missing : List String)

/-- One row of `shape_items`. -/
def shapeRow (env : RunEnv) (stepId : String) (spec : ShapeItemsSpec) (outputs : Outputs)
    (item : Value) : Except CoreError ShapedRow := do
  let source ← ensureItemMapping stepId "shape_items" item
  let renamed ← applyShapeRename stepId source spec.rename
  let start : Object := if spec.includeInput then renamed
    else spec.rename.entries.filterMap fun r =>
      if (Bindings.get? source r.1).isSome then
        (Bindings.get? renamed r.2).map fun v => (r.2, v)
      else none
  let sc : Scope := { input := env.input, outputs := outputs, item := some (.object renamed) }
  let withFields ← spec.fields.foldlM (fun row (f : String × Value) => do
    let v ← sc.resolveValue f.2
    pure (Bindings.set row f.1 v)) start
  let shaped ← spec.casts.foldlM (fun row (c : String × String) =>
    match Bindings.get? row c.1 with
    | none => .ok row
    | some v => if v = Value.null then .ok row
        else (env.cast stepId c.1 v c.2).map fun w => Bindings.set row c.1 w) withFields
  let missing := spec.required.filter fun f => shapeRequiredValueMissing shaped f
  if missing = [] then pure (.kept shaped)
  else if spec.dropsMissing then pure (.dropped missing)
  else
    let names := ", ".intercalate missing
    .error (.queryExecution
      s!"Workflow step '{stepId}' shape_items missing required field(s): {names}")

def count (n : Nat) : Value := .int n

/-- `shape_items`. -/
def shapeItems (env : RunEnv) (stepId : String) (spec : ShapeItemsSpec) (outputs : Outputs) :
    Except CoreError Object := do
  let items ← resolveStepItems { input := env.input, outputs := outputs } spec.items
  let rows ← items.mapM (shapeRow env stepId spec outputs)
  let kept := rows.filterMap fun r => match r with
    | .kept row => some row
    | .dropped _ => none
  let dropped := rows.zipIdx.filterMap fun r => match r.1 with
    | .kept _ => none
    | .dropped missing => some (Value.object
        [("index", count r.2), ("missing", .array (missing.map .str))])
  pure (attachSourceMetadata
    [("items", .array (kept.map .object)), ("input_count", count items.length),
      ("output_count", count kept.length), ("dropped_count", count dropped.length),
      ("drop_examples", .array (dropped.take 10))]
    (sourceReadMetadata spec.items outputs))

/-- The form under which join keys are compared. -/
def joinKey (v : Value) : Except CoreError Value :=
  if v.finite then .ok v.canonical
  else .error (.value "Out of range float values are not JSON compliant")

/-- The rows of the right side with their keys. -/
def rightIndex (env : RunEnv) (stepId : String) (spec : JoinItemsSpec) (outputs : Outputs)
    (items : List Value) : Except CoreError (List (Value × Object)) :=
  items.mapM fun item => do
    let row ← ensureItemMapping stepId "join_items right_items" item
    let sc : Scope := { input := env.input, outputs := outputs, item := some (.object row) }
    let key ← sc.resolveValue spec.rightKey
    let compared ← joinKey key
    pure (compared, row)

/-- The joined rows of one row of the left side. -/
def joinRow (env : RunEnv) (stepId : String) (spec : JoinItemsSpec) (outputs : Outputs)
    (right : List (Value × Object)) (item : Value) : Except CoreError (List Object) := do
  let row ← ensureItemMapping stepId "join_items left_items" item
  let sc : Scope := { input := env.input, outputs := outputs, item := some (.object row) }
  let key ← sc.resolveValue spec.leftKey
  let compared ← joinKey key
  let found := if key = .null then []
    else right.filter fun r => r.1 ≠ .null && r.1 = compared
  found.mapM fun r => do
    let joined : Value :=
      .object [("left", .object row), ("right", .object r.2), ("join_key", key)]
    let sc : Scope := { input := env.input, outputs := outputs, item := some joined }
    sc.resolveEntries spec.fields

/-- The metadata of the two sides, kept apart. -/
def joinSides (left right : Object) : Object :=
  (if left = [] then [] else [("left_source_metadata", .object left)]) ++
    if right = [] then [] else [("right_source_metadata", .object right)]

/-- `join_items`. -/
def joinItems (env : RunEnv) (stepId : String) (spec : JoinItemsSpec) (outputs : Outputs) :
    Except CoreError Object := do
  let sc : Scope := { input := env.input, outputs := outputs }
  let leftItems ← resolveStepItems sc spec.leftItems
  let rightItems ← resolveStepItems sc spec.rightItems
  let right ← rightIndex env stepId spec outputs rightItems
  let rows ← leftItems.mapM (joinRow env stepId spec outputs right)
  let left := sourceReadMetadata spec.leftItems outputs
  let rightMetadata := sourceReadMetadata spec.rightItems outputs
  let merged ← mergeReadMetadata [left, rightMetadata]
  pure (attachSourceMetadata
    ([("items", .array (rows.flatten.map .object)), ("left_count", count leftItems.length),
      ("right_count", count rightItems.length),
      ("skipped_right_count", count (right.filter fun r => r.1 = .null).length),
      ("matched_left_count", count (rows.filter fun r => !r.isEmpty).length),
      ("output_count", count rows.flatten.length)] ++ joinSides left rightMetadata) merged)

mutual
/-- `_resolve_filter_where_value`: references to the input only. -/
def resolveFilterValue (env : RunEnv) (stepId : String) : Value → Except CoreError Value
  | .str s =>
      if s.toList.head? ≠ some '$' then .ok (.str s)
      else if s = "$input" ∨ (dropMarker "$input." s).isSome then
        Scope.resolveText { input := env.input, outputs := ∅ } s
      else .error (.queryExecution
        s!"Workflow step '{stepId}' filter_items where reference '{s}' must use $input only")
  | .array items => do
      let resolved ← resolveFilterItems env stepId items
      pure (.array resolved)
  | .object entries => do
      let resolved ← resolveFilterEntries env stepId entries
      pure (.object resolved)
  | v => .ok v
def resolveFilterItems (env : RunEnv) (stepId : String) :
    List Value → Except CoreError (List Value)
  | [] => .ok []
  | v :: vs => do
      let head ← resolveFilterValue env stepId v
      let tail ← resolveFilterItems env stepId vs
      pure (head :: tail)
def resolveFilterEntries (env : RunEnv) (stepId : String) :
    List (String × Value) → Except CoreError (List (String × Value))
  | [] => .ok []
  | (k, v) :: vs => do
      let head ← resolveFilterValue env stepId v
      let tail ← resolveFilterEntries env stepId vs
      pure ((k, head) :: tail)

end

/-- `matches_exact_filter`. -/
def matchesExactFilter (row filter : Object) : Bool :=
  filter.all fun f =>
    let actual := (Bindings.get? row f.1).getD .null
    match f.2 with
    | .array expected => expected.any fun v => actual.pyEq v
    | expected => actual.pyEq expected

/-- `filter_items`. -/
def filterItems (env : RunEnv) (stepId : String) (spec : FilterItemsSpec) (outputs : Outputs) :
    Except CoreError Object := do
  let items ← resolveStepItems { input := env.input, outputs := outputs } spec.items
  let resolved ← resolveFilterEntries env stepId spec.filter
  let kept ← items.filterM fun item => do
    let row ← ensureItemMapping stepId "filter_items" item
    let sc : Scope := { input := env.input, outputs := outputs, item := some (.object row) }
    if !matchesExactFilter row resolved then pure false
    else spec.comparisons.allM fun c => do
      let left ← sc.resolveValue c.left
      let right ← sc.resolveValue c.right
      env.compare c left right
  pure (attachSourceMetadata
    [("items", .array kept), ("input_count", count items.length),
      ("output_count", count kept.length),
      ("filtered_count", count (items.length - kept.length))]
    (sourceReadMetadata spec.items outputs))

def optionalCount (n : Option Nat) : Value := n.elim .null count

/-- The output of `execute_query_step`. -/
def queryOutput (q : QueryOutcome) : Object :=
  [("results", .array q.results),
    ("total_results", count (if q.totalResults = 0 then q.results.length else q.totalResults)),
    ("returned_results", count q.results.length), ("limit", optionalCount q.limit),
    ("truncated", .bool q.truncated), ("limit_truncated", .bool q.limitTruncated),
    ("path_truncated", .bool q.pathTruncated),
    ("truncation_reasons", .array (q.truncationReasons.map .str)),
    ("result_shape", .str q.resultShape), ("dedupe", .str q.dedupe),
    ("relationship_state", .str q.relationshipState), ("policy_summary", .object q.policySummary),
    ("receipt_id", .str q.receiptId), ("max_paths", optionalCount q.maxPaths),
    ("max_paths_per_result", optionalCount q.maxPathsPerResult),
    ("total_path_count", optionalCount q.totalPathCount),
    ("retained_path_count", optionalCount q.retainedPathCount),
    ("steps_executed", count q.stepsExecuted)]

/-- `_get_guard_source_output`. -/
def getGuardSourceOutput (stepId source : String) (outputs : Outputs) : Except CoreError Value :=
  match outputs.get? source with
  | some v => .ok v
  | none => .error (.queryExecution
      s!"Workflow guard step '{stepId}' references unknown step output '{source}'")

/-- `execute_assert_not_truncated_step`. -/
def assertNotTruncated (stepId source : String) (outputs : Outputs) : Except CoreError Unit := do
  let output ← getGuardSourceOutput stepId source outputs
  let metadata := extractReadMetadata output
  refuseIf (metadata = []) (.queryExecution
    s!"assert_not_truncated step '{stepId}' failed for '{source}': no read metadata found")
  let reasons ← metadataReasons metadata
  let flags := ", ".intercalate
    ((truncationFlags.filter fun k => flagged metadata k).map fun k => k ++ "=true")
  let why := if reasons = [] then "" else "; reasons: " ++ ", ".intercalate reasons
  refuseIf (unflagged metadata = false) (.queryExecution
    s!"assert_not_truncated step '{stepId}' failed for '{source}': {flags}{why}")

/-- The output of a provider, with the read metadata of its input when it returns a
collection. -/
def providerOutput (result : Object) (metadata : Object) : Object :=
  if (Bindings.get? result "items").isSome ∨ (Bindings.get? result "results").isSome then
    attachSourceMetadata result metadata
  else result

/-- The output of an artifact step. -/
def artifactOutput (spec : ArtifactSpec) (outputs : Outputs) (payload : String → Value) : Object :=
  attachSourceMetadata (spec.kind.keys.map fun k => (k, payload k))
    (if spec.kind.attaches then spec.items.elim [] fun t => sourceReadMetadata t outputs else [])

/-- What a step did: its output, if it writes one, and the query it ran. -/
structure Performed where
  output : Option Object := none
  query : Option QueryOutcome := none

/-- `evaluate_assert_condition`. -/
def evaluateAssertCondition (env : RunEnv) (outputs : Outputs) (c : ComparisonSpec) :
    Except CoreError Bool := do
  let sc : Scope := { input := env.input, outputs := outputs }
  let left ← sc.resolveValue c.left
  let right ← sc.resolveValue c.right
  env.compare c left right

/-- `_value_is_present`. -/
def valueIsPresent (v : Value) : Bool := !(v = .null || v = .str "")

/-- The steps that assert and write no output. -/
def executeAssert (env : RunEnv) (stepId : String) (outputs : Outputs) :
    StepBody → Except CoreError Unit
  | .assertCondition condition message => do
      let passed ← evaluateAssertCondition env outputs condition
      refuseIf (passed = false) (.queryExecution message)
  | .assertNotTruncated step => assertNotTruncated stepId step outputs
  | .assertCount step actual op value message => do
      let output ← getGuardSourceOutput stepId step outputs
      let left ← actual output
      let right ← Scope.resolveValue { input := env.input, outputs := outputs } value
      let passed ← env.compare { left := .int left, op := op, right := right } (.int left) right
      refuseIf (passed = false) (.queryExecution message)
  | .assertExists ref message =>
      match Scope.resolveValue { input := env.input, outputs := outputs } ref with
      | .ok v => refuseIf (valueIsPresent v = false) (.queryExecution message)
      | .error _ => .error (.queryExecution message)
  | _ => .ok ()

/-- The handlers of the step registry. -/
def perform (env : RunEnv) (clock : Nat) (outputs : Outputs) (s : PlanStep) :
    Except CoreError Performed :=
  let sc : Scope := { input := env.input, outputs := outputs }
  match s.body with
  | .query params relationshipState => do
      let resolved ← sc.resolveValue params
      let state ← relationshipState.mapM sc.resolveValue
      let outcome ← env.runQuery clock s resolved state
      pure { output := some (queryOutput outcome), query := some outcome }
  | .provider name input => do
      let resolved ← sc.resolveValue input
      let result ← env.callProvider clock name resolved
      let metadata ← sourceReadMetadataFromTemplate input outputs
      pure { output := some (providerOutput result metadata) }
  | .shapeItems spec => do
      let output ← shapeItems env s.stepId spec outputs
      pure { output := some output }
  | .joinItems spec => do
      let output ← joinItems env s.stepId spec outputs
      pure { output := some output }
  | .filterItems spec => do
      let output ← filterItems env s.stepId spec outputs
      pure { output := some output }
  | .artifact spec => do
      let payload ← env.payload clock spec outputs
      pure { output := some (artifactOutput spec outputs payload) }
  | body => do
      executeAssert env s.stepId outputs body
      pure {}

def objectSteps (fields : Object) : List String := fields.flatMap fun f => referencedSteps f.2

/-- The steps that the templates of a step, or the names it takes outputs by, refer to. -/
def StepBody.references : StepBody → List String
  | .query params relationshipState =>
      referencedSteps params ++ relationshipState.elim [] referencedSteps
  | .provider _ input => referencedSteps input
  | .assertCondition c _ => referencedSteps c.left ++ referencedSteps c.right
  | .assertNotTruncated step => [step]
  | .assertCount step _ _ value _ => step :: referencedSteps value
  | .assertExists ref _ => referencedSteps ref
  | .shapeItems spec => referencedSteps spec.items ++ objectSteps spec.fields
  | .joinItems spec => referencedSteps spec.leftItems ++ referencedSteps spec.rightItems ++
      referencedSteps spec.leftKey ++ referencedSteps spec.rightKey ++ objectSteps spec.fields
  | .filterItems spec => referencedSteps spec.items ++ objectSteps spec.filter ++
      spec.comparisons.flatMap fun c => referencedSteps c.left ++ referencedSteps c.right
  | .artifact spec => spec.items.elim [] referencedSteps ++ spec.templates.flatMap referencedSteps ++
      spec.aliases

/-- The step that a collection template names, if its output bears read metadata. -/
def readSource (template : Value) (outputs : Outputs) : List String :=
  match sourceStepOutput template outputs with
  | some (step, output) => if extractReadMetadata output = [] then [] else [step]
  | none => []

/-- The steps whose read metadata becomes the read metadata of the step's output. -/
def StepBody.readSources (outputs : Outputs) (output : Object) : StepBody → List String
  | .provider _ input =>
      if directReadMetadata output ≠ [] then []
      else if (Bindings.get? output "items").isSome ∨ (Bindings.get? output "results").isSome then
        (iterStepRefs input).flatMap fun ref => readSource (.str ref) outputs
      else []
  | .shapeItems spec => readSource spec.items outputs
  | .joinItems spec => readSource spec.leftItems outputs ++ readSource spec.rightItems outputs
  | .filterItems spec => readSource spec.items outputs
  | .artifact spec =>
      if spec.kind.attaches then spec.items.elim [] fun t => readSource t outputs else []
  | _ => []

/-- An executed step: the outputs before it and what they rest on, the steps it
refers to, those whose metadata it takes over, its output, and the step that it
found not truncated. -/
structure Event where
  outputs : Outputs
  rests : Dict String (List QueryOutcome)
  references : List String
  readSources : List String
  output : Option Object
  asserted : Option String

structure Run where
  outputs : Outputs := ∅
  /-- The queries that an output rests on. No step reads this. -/
  rests : Dict String (List QueryOutcome) := ∅
  trace : List Event := []
  failed : Option CoreError := none

/-- The queries that any of the named outputs rests on. -/
def restsOn (rests : Dict String (List QueryOutcome)) (names : List String) : List QueryOutcome :=
  names.flatMap fun n => (rests.get? n).getD []

def StepBody.asserted : StepBody → Option String
  | .assertNotTruncated step => some step
  | _ => none

/-- A step that raises ends the run. -/
def executeStep (env : RunEnv) (run : Run) (s : PlanStep) : Run :=
  if run.failed.isSome then run
  else match perform env run.trace.length run.outputs s with
    | .error e => { run with failed := some e }
    | .ok done =>
        let event : Event :=
          { outputs := run.outputs, rests := run.rests, references := s.body.references
            readSources := s.body.readSources run.outputs (done.output.getD [])
            output := done.output, asserted := s.body.asserted }
        let key := outputKey s.stepId s.asName
        let rests := done.query.toList ++ restsOn run.rests s.body.references
        { run with
          outputs := done.output.elim run.outputs fun o => run.outputs.set key (.object o)
          rests := if done.output.isSome then run.rests.set key rests else run.rests
          trace := run.trace ++ [event] }

/-- The names under which the steps of a repeat leave outputs. -/
def nestedOutputKeys (steps : List PlanStep) : List String := steps.filterMap PlanStep.asName

/-- The outputs of one attempt. -/
def attemptScopedOutputs (steps : List PlanStep) (outputs : Outputs) : Object :=
  (nestedOutputKeys steps).eraseDups.filterMap fun k => (outputs.get? k).map fun v => (k, v)

/-- `execute_repeat_handler`: every attempt starts from the outer outputs. -/
def executeAttempts (env : RunEnv) (stepId : String) (asName : Option String)
    (untilSpec : ComparisonSpec) (steps : List PlanStep) : Nat → Nat → Run → Run
  | 0, attempts, run => { run with failed := some (.queryExecution
      s!"Procedure repeat step '{stepId}' exhausted {attempts} attempt(s) without satisfying its until condition") }
  | left + 1, attempts, run =>
      let attempt := steps.foldl (executeStep env) run
      let inScope := attemptScopedOutputs steps attempt.outputs
      match attempt.failed, evaluateAssertCondition env (Dict.ofList inScope) untilSpec with
      | some e, _ => { run with trace := attempt.trace, failed := some e }
      | none, .error e => { run with trace := attempt.trace, failed := some e }
      | none, .ok false => executeAttempts env stepId asName untilSpec steps left (attempts + 1)
          { run with trace := attempt.trace }
      | none, .ok true =>
          let output := Bindings.set inScope "attempt_count" (count (attempts + 1))
          let references := nestedOutputKeys steps ++ steps.flatMap fun s => s.body.references
          let event : Event :=
            { outputs := attempt.outputs, rests := attempt.rests, references := references
              readSources := [], output := some output, asserted := none }
          let key := outputKey stepId asName
          { run with
            outputs := run.outputs.set key (.object output)
            rests := run.rests.set key (restsOn attempt.rests references)
            trace := attempt.trace ++ [event] }

def executeItem (env : RunEnv) (run : Run) : PlanItem → Run
  | .step s => executeStep env run s
  | .repeatSteps stepId asName maxAttempts untilSpec steps =>
      if run.failed.isSome then run
      else executeAttempts env stepId asName untilSpec steps maxAttempts 0 run

/-- The loop over the steps of a plan. -/
def execute (env : RunEnv) (plan : List PlanItem) : Run := plan.foldl (executeItem env) {}

end Cruxible.WorkflowRuns
