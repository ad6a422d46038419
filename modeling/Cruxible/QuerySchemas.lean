import Cruxible.SchemaFields

/-!
# Properties, contracts and named queries

The classes of `config/schema.py` that both the configuration and a stored
procedure definition use. A property is read differently under an entity or
relationship type, where it is optional unless it says otherwise, and under a
contract, where its type has to be written.
-/

namespace Cruxible.QuerySchemas

open ModelSchemas ModelClasses SchemaFields

def predicateValueTypes : List String :=
  ["string", "int", "integer", "float", "number", "bool", "date", "datetime"]

def propertyTypes : List String :=
  ["string", "int", "integer", "float", "number", "bool", "date", "datetime", "json"]

def stepDirections : List String := ["outgoing", "incoming", "both"]

def resultShapes : List String := ["entity", "path", "relationship"]

def dedupes : List String := ["entity", "path", "none"]

def visibilityStates : List String :=
  ["live", "accepted", "all", "not-live", "pending", "reviewable"]

inductive PropertyUse where
  | graph
  | contract
  deriving DecidableEq

/-- `optional` where it is not written: the negation of `required`, and true for a
graph property that is no primary key. -/
def optionalDefault (use : PropertyUse) (given : Fields Scalar) : Doc :=
  match given.lookup "required" with
  | some (.atom (.bool b)) => bool !b
  | some _ => bool false
  | none =>
    match given.lookup "primary_key" with
    | some (.atom (.bool true)) => bool false
    | _ => bool (use = .graph)

def propertyType : ModelClasses.Field Scalar := choice "type" propertyTypes "string"

def requiredAlias (env : Env) : ModelClasses.Field Scalar := .inputOnly "required" env.bool.orNull

theorem optionalDefault_eq (use : PropertyUse) (given : Fields Scalar) :
    ∃ b, optionalDefault use given = bool b := by
  unfold optionalDefault
  split
  case h_1 b _ => exact ⟨_, rfl⟩
  case h_2 => exact ⟨_, rfl⟩
  case h_3 => split <;> exact ⟨_, rfl⟩

def propertyFields (env : Env) (use : PropertyUse) : List (ModelClasses.Field Scalar) :=
  [propertyType,
    flag env "primary_key" false,
    flag env "indexed" false,
    .derived "optional" env.bool (optionalDefault use) fun given => by
      have ⟨b, hb⟩ := optionalDefault_eq use given
      exact .inr ⟨bool b, by rw [hb]; exact env.bool_self b⟩,
    requiredAlias env,
    nullable "default" env.any,
    nullable "enum" (.list env.any),
    nullable "enum_ref" text,
    nullable "description" text,
    nullable "json_schema" (.dict env.any)]

/-- `required` and `optional` may both be written only when they agree. -/
def aliasesAgree (present : List String) (vs : Fields Scalar) : Bool :=
  match vs.lookup "required" with
  | some (.atom (.bool b)) =>
    !present.contains "optional" ||
      match vs.lookup "optional" with
      | some (.atom (.bool o)) => o == !b
      | _ => false
  | _ => true

/-- A contract field must write its type. -/
def typeWritten (use : PropertyUse) (present : List String) : Bool :=
  decide (use = .graph) || present.contains "type"

/-- `PropertySchema`, with the reading that its owner gives it. -/
def propertySchema (env : Env) (use : PropertyUse) : Model Scalar where
  forbid := false
  fields := propertyFields env use
  rule := env.rule "PropertySchema"
  presence present vs := aliasesAgree present vs && typeWritten use present
  survives _ := true
  named := by rfl
  presence_again := by
    intro given vs h _
    have hn := names_nodup_of_named (show wellNamed (propertyFields env use) = true by rfl)
    have hmem : requiredAlias env ∈ propertyFields env use := by simp [propertyFields]
    have hreq : (bareAll (propertyFields env use) vs).lookup "required" = some .null :=
      lookup_assemble hn _ hmem
    have htype : propertyType ∈ propertyFields env use := by simp [propertyFields]
    have hnn : (valueOf vs propertyType).isNull = false := by
      refine h.not_null htype ?_ ?_
      · rintro x ⟨raw, hx⟩
        have hs := (literal_shaped propertyTypes isText (fun _ _ => rfl) raw x hx).1
        cases x <;> first | rfl | cases hs
      · intro d hd g
        cases hd
        rfl
    have hshown : propertyType.shown (valueOf vs propertyType) = true := by
      rw [Field.shown_eq rfl fun _ => rfl, hnn]
      rfl
    have hin := (mem_shownAll_names hn vs htype).mpr hshown
    simp only [aliasesAgree, hreq, typeWritten, Bool.true_and, Bool.or_eq_true,
      List.contains_eq_mem, decide_eq_true_eq]
    exact .inr hin

/-- `ContractSchema`. -/
def contractSchema (env : Env) : Model Scalar :=
  checked false (env.rule "ContractSchema")
    [nullable "description" text,
      .required "fields" (.dict (propertySchema env .contract).schema),
      flag env "allow_extra" false]

/-- `ContractReference = str | ContractSchema`. -/
def contractReference (env : Env) : Schema Scalar :=
  textOr text (contractSchema env).schema text_shaped (class_not_text _)

/-- `QueryPredicateSpec`, a bare mapping of paths to operator mappings. -/
def queryPredicateSpec (env : Env) : Schema Scalar :=
  (Schema.dict (.dict env.any)).guarded fun d =>
    d.entries?.elim false (env.rule "QueryPredicateSpec")

def relatedExclusionSpec (env : Env) : Model Scalar :=
  checked false (env.rule "RelatedExclusionSpec")
    [.required "relationship" text,
      choice "direction" stepDirections "outgoing"]

def relatedPredicateSpec (env : Env) : Model Scalar :=
  checked false (env.rule "RelatedPredicateSpec")
    [.required "relationship" text,
      choice "direction" stepDirections "outgoing",
      nullable "edge" (queryPredicateSpec env),
      nullable "source" (queryPredicateSpec env),
      nullable "target" (queryPredicateSpec env),
      nullable "current" (queryPredicateSpec env),
      nullable "candidate" (queryPredicateSpec env),
      nullable "entry" (queryPredicateSpec env)]

def queryOrderSpec (env : Env) : Model Scalar :=
  checked false (env.rule "QueryOrderSpec")
    [.required "by" text,
      choice "direction" ["asc", "desc"] "asc",
      nullable "value_type" (literal predicateValueTypes),
      nullable "enum_ref" text]

def queryIncludeSpec (env : Env) : Model Scalar :=
  checked false (env.rule "QueryIncludeSpec")
    [(Field.required "from" text).readAs ["from", "from_"],
      .required "relationship" text,
      choice "direction" ["incoming", "outgoing"] "outgoing",
      flag env "many" false,
      flag env "required" false,
      nullable "limit" (env.intFrom 0),
      nullable "where" (queryPredicateSpec env),
      listOf "where_related" (relatedPredicateSpec env).schema,
      listOf "where_not_related" (relatedPredicateSpec env).schema,
      listOf "order_by" (queryOrderSpec env).schema]

def traversalStep (env : Env) : Model Scalar :=
  checked false (env.rule "TraversalStep")
    [.required "relationship" (textOr text (.list text) text_shaped (list_not_text _)),
      choice "direction" stepDirections "outgoing",
      nullable "filter" (.dict env.any),
      nullable "target_filter" (.dict env.any),
      nullable "where" (queryPredicateSpec env),
      listOf "where_related" (relatedPredicateSpec env).schema,
      listOf "where_not_related" (relatedPredicateSpec env).schema,
      nullable "constraint" text,
      nullable "constraint_value_type" (literal predicateValueTypes),
      listOf "exclude_if_related" (relatedExclusionSpec env).schema,
      .defaulted "max_depth" (env.intFrom 1) (int 1) (env.intFrom_valid (by decide)),
      flag env "required" true,
      (nullable "as" text).readAs ["as", "alias"]]

/-- `dedupe` where it is not written. -/
def dedupeDefault (given : Fields Scalar) : Doc :=
  match given.lookup "result_shape" with
  | some (.atom (.str "entity")) => str "entity"
  | _ => str "path"

def namedQuerySchema (env : Env) : Model Scalar :=
  checked false (env.rule "NamedQuerySchema")
    [.required "mode" (literal ["collection", "traversal"]),
      nullable "description" text,
      nullable "entry_point" text,
      listOf "traversal" (traversalStep env).schema,
      .required "returns" text,
      choice "result_shape" resultShapes "path",
      .derived "dedupe" (literal dedupes) dedupeDefault fun given => by
        unfold dedupeDefault
        split <;> exact .inr (literal_valid (by decide)),
      choice "relationship_state" visibilityStates "live",
      flag env "allow_relationship_state_override" false,
      nullable "where" (queryPredicateSpec env),
      nullable "select" (.dict env.any),
      listOf "order_by" (queryOrderSpec env).schema,
      dictOf "include" (queryIncludeSpec env).schema,
      nullable "limit" (env.intFrom 0),
      nullable "max_paths" (env.intFrom 1),
      nullable "max_paths_per_result" (env.intFrom 1)]

end Cruxible.QuerySchemas
