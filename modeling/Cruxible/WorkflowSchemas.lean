import Cruxible.QuerySchemas

/-!
# Workflow steps and the specifications of their kinds

One class for each step kind of `config/schema.py`, and the step that holds at most
one of them. Several kinds have operands of type `Any` without a default: they have
to be written, and they may be written as null.
-/

namespace Cruxible.WorkflowSchemas

open ModelSchemas ModelClasses SchemaFields QuerySchemas

def filterComparisonOps : List String :=
  ["eq", "ne", "gt", "gte", "lt", "lte", "==", "!=", ">", ">=", "<", "<=", "before",
    "on_or_before", "after", "on_or_after"]

def countComparisonOps : List String :=
  ["eq", "ne", "lt", "lte", "gt", "gte", "==", "!=", "<", "<=", ">", ">="]

def assertSpec (env : Env) : Model Scalar :=
  plain false
    [.required "left" env.any,
      .required "op" (literal filterComparisonOps),
      .required "right" env.any,
      .required "message" text,
      nullable "value_type" (literal predicateValueTypes)]

def assertNotTruncatedSpec : Model Scalar :=
  plain true [.required "step" text]

def assertCountSpec (env : Env) : Model Scalar :=
  plain true
    [.required "step" text,
      .required "count" (literal ["returned_results", "total_results", "items", "results"]),
      .required "op" (literal countComparisonOps),
      .required "value" env.any,
      nullable "message" text]

def assertExistsSpec (env : Env) : Model Scalar :=
  checked true (env.rule "AssertExistsSpec")
    [.required "ref" text,
      nullable "message" text]

def shapeItemsSpec (env : Env) : Model Scalar :=
  checked true (env.rule "ShapeItemsSpec")
    [.required "items" env.any,
      flag env "include_input" false,
      dictOf "rename" text,
      dictOf "fields" env.any,
      dictOf "casts" (literal ["str", "int", "float", "bool", "json"]),
      listOf "required" text,
      choice "on_missing_required" ["error", "drop"] "error"]

def joinItemsSpec (env : Env) : Model Scalar :=
  plain true
    [.required "left_items" env.any,
      .required "right_items" env.any,
      .required "left_key" env.any,
      .required "right_key" env.any,
      choice "join_type" ["inner"] "inner",
      dictOf "fields" env.any]

def filterComparisonSpec (env : Env) : Model Scalar :=
  plain true
    [.required "left" env.any,
      .required "op" (literal filterComparisonOps),
      .required "right" env.any,
      nullable "value_type" (literal predicateValueTypes)]

def filterItemsSpec (env : Env) : Model Scalar :=
  checked true (env.rule "FilterItemsSpec")
    [.required "items" env.any,
      dictOf "where" env.any,
      listOf "comparisons" (filterComparisonSpec env).schema]

def aggregateValueSpec (env : Env) : Model Scalar :=
  plain true
    [.required "value" env.any,
      nullable "value_type" (literal predicateValueTypes)]

def aggregateDistinctSpec (env : Env) : Model Scalar :=
  plain true [.required "value" env.any]

def aggregateMeasureSpec (env : Env) : Model Scalar :=
  checked true (env.rule "AggregateMeasureSpec")
    [nullable "count" env.bool,
      nullable "count_where" (filterComparisonSpec env).schema,
      nullable "count_distinct" (aggregateDistinctSpec env).schema,
      nullable "sum" (aggregateValueSpec env).schema,
      nullable "min" (aggregateValueSpec env).schema,
      nullable "max" (aggregateValueSpec env).schema]

def aggregateItemsSpec (env : Env) : Model Scalar :=
  checked true (env.rule "AggregateItemsSpec")
    [.required "items" env.any,
      dictOf "group_by" env.any,
      .required "measures" (.dict (aggregateMeasureSpec env).schema)]

def dedupeItemsSpec (env : Env) : Model Scalar :=
  checked true (env.rule "DedupeItemsSpec")
    [.required "items" env.any,
      .required "keys" (.list env.any),
      choice "strategy" ["first", "last", "max", "min"] "first",
      nullable "rank" env.any]

def candidateEvidenceSpec (env : Env) : Model Scalar :=
  plain true
    [nullable "refs" env.any,
      nullable "rationale" env.any]

/-- `properties: dict[str, Any] | Literal["auto"] = {}`. -/
def mappedProperties (env : Env) : ModelClasses.Field Scalar :=
  .defaulted "properties"
    (textOr (literal ["auto"]) (.dict env.any) (literal_shaped _ _ fun _ _ => rfl) (dict_not_text _))
    (.obj []) ⟨.obj [], rfl⟩

def makeCandidatesSpec (env : Env) : Model Scalar :=
  plain true
    [.required "relationship_type" text,
      .required "items" env.any,
      .required "from_type" env.any,
      .required "from_id" env.any,
      .required "to_type" env.any,
      .required "to_id" env.any,
      mappedProperties env,
      nullable "evidence" (candidateEvidenceSpec env).schema]

def scoreSignalMappingSpec (env : Env) : Model Scalar :=
  checked true (env.rule "ScoreSignalMappingSpec")
    [.required "path" text,
      .required "support_gte" env.float,
      .required "unsure_gte" env.float]

def enumSignalMappingSpec (env : Env) : Model Scalar :=
  checked true (env.rule "EnumSignalMappingSpec")
    [.required "path" text,
      .required "map" (.dict (literal ["support", "unsure", "contradict"]))]

def mapSignalsSpec (env : Env) : Model Scalar :=
  checked true (env.rule "MapSignalsSpec")
    [.required "signal_source" text,
      .required "items" env.any,
      .required "from_id" env.any,
      .required "to_id" env.any,
      nullable "evidence" env.any,
      nullable "evidence_refs" env.any,
      nullable "score" (scoreSignalMappingSpec env).schema,
      nullable "enum" (enumSignalMappingSpec env).schema]

def proposeRelationshipGroupSpec (env : Env) : Model Scalar :=
  plain true
    [.required "relationship_type" text,
      .required "candidates_from" text,
      .required "signals_from" (.list text),
      nullable "on_empty" (literal ["complete"]),
      .defaulted "thesis_text" env.any (str "") ⟨str "", rfl⟩,
      choice "pending_refresh_mode" ["replace", "retain_missing"] "replace",
      dictOf "analysis_state" env.any,
      nullable "suggested_priority" env.any]

def makeEntitiesSpec (env : Env) : Model Scalar :=
  plain true
    [.required "entity_type" text,
      .required "items" env.any,
      .required "entity_id" env.any,
      mappedProperties env]

def makeRelationshipsSpec (env : Env) : Model Scalar :=
  plain true
    [.required "relationship_type" text,
      .required "items" env.any,
      .required "from_type" env.any,
      .required "from_id" env.any,
      .required "to_type" env.any,
      .required "to_id" env.any,
      mappedProperties env,
      nullable "evidence" (candidateEvidenceSpec env).schema]

def registerSourceArtifactsSpec (env : Env) : Model Scalar :=
  plain true
    [.required "items" env.any,
      .required "artifact_id" env.any,
      .required "content" env.any,
      .required "kind" (literal ["markdown"]),
      nullable "label" env.any,
      nullable "original_uri" env.any,
      nullable "retention" (literal ["manifest_only", "archive"])]

def applyEntitiesSpec : Model Scalar :=
  plain true [.required "entities_from" text]

def applyRelationshipsSpec : Model Scalar :=
  plain true [.required "relationships_from" text]

def applyAllSpec (env : Env) : Model Scalar :=
  checked true (env.rule "ApplyAllSpec")
    [listOf "entities_from" text,
      listOf "relationships_from" text]

/-- `query: str | NamedQuerySchema | None`. -/
def stepQuery (env : Env) : Schema Scalar :=
  textOr text (namedQuerySchema env).schema text_shaped (class_not_text _)

/-- `StepKind`, in its order. -/
def stepKinds : List String :=
  ["query", "provider", "assert", "assert_not_truncated", "assert_count", "assert_exists",
    "shape_items", "join_items", "filter_items", "aggregate_items", "dedupe_items",
    "make_candidates", "map_signals", "propose_relationship_group", "make_entities",
    "make_relationships", "register_source_artifacts", "apply_entities", "apply_relationships",
    "apply_all"]

def assertKinds : List String :=
  ["assert", "assert_not_truncated", "assert_count", "assert_exists"]

/-- The value of a key, null where the key is absent. -/
def valueAt (vs : Fields Scalar) (key : String) : Doc := (vs.lookup key).getD .null

def activeStepKinds (vs : Fields Scalar) : List String :=
  stepKinds.filter fun kind => !(valueAt vs kind).isNull

def nonEmpty (d : Doc) : Bool := d.entries?.any fun entries => !entries.isEmpty

def isTrue : Doc → Bool
  | .atom (.bool b) => b
  | _ => false

/-- `validate_step_shape`: one kind, an output name exactly where the kind has an
output, and the inputs that the kind takes. -/
def validateStepShape (vs : Fields Scalar) : Bool :=
  match activeStepKinds vs with
  | [kind] =>
    (assertKinds.contains kind == (valueAt vs "as").isNull) &&
      (kind == "query" || !nonEmpty (valueAt vs "params")) &&
      (kind == "query" || (valueAt vs "relationship_state").isNull) &&
      (kind == "query" || !isTrue (valueAt vs "include_source")) &&
      (kind == "provider" || !nonEmpty (valueAt vs "input"))
  | _ => false

/-- `WorkflowStepSchema`. -/
def workflowStepSchema (env : Env) : Model Scalar :=
  checked true validateStepShape
    [.required "id" text,
      nullable "query" (stepQuery env),
      nullable "provider" text,
      (nullable "assert" (assertSpec env).schema).readAs ["assert", "assert_spec"],
      nullable "assert_not_truncated" assertNotTruncatedSpec.schema,
      nullable "assert_count" (assertCountSpec env).schema,
      nullable "assert_exists" (assertExistsSpec env).schema,
      nullable "shape_items" (shapeItemsSpec env).schema,
      nullable "join_items" (joinItemsSpec env).schema,
      nullable "filter_items" (filterItemsSpec env).schema,
      nullable "aggregate_items" (aggregateItemsSpec env).schema,
      nullable "dedupe_items" (dedupeItemsSpec env).schema,
      nullable "make_candidates" (makeCandidatesSpec env).schema,
      nullable "map_signals" (mapSignalsSpec env).schema,
      nullable "propose_relationship_group" (proposeRelationshipGroupSpec env).schema,
      nullable "make_entities" (makeEntitiesSpec env).schema,
      nullable "make_relationships" (makeRelationshipsSpec env).schema,
      nullable "register_source_artifacts" (registerSourceArtifactsSpec env).schema,
      nullable "apply_entities" applyEntitiesSpec.schema,
      nullable "apply_relationships" applyRelationshipsSpec.schema,
      nullable "apply_all" (applyAllSpec env).schema,
      dictOf "params" env.any,
      nullable "relationship_state" env.any,
      flag env "include_source" false,
      dictOf "input" env.any,
      (nullable "as" text).readAs ["as", "as_"]]

end Cruxible.WorkflowSchemas
