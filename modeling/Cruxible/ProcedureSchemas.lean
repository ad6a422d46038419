import Cruxible.Graph
import Cruxible.WorkflowSchemas

/-!
# Procedure definitions

The classes of `procedure/types.py` with their checks: the steps that a procedure
may use at the top and inside a repeat, the static expansion, and the precondition,
which is checked by which of its two fields were written.
-/

namespace Cruxible.ProcedureSchemas

open Cruxible.Graph (blank)
open ModelSchemas ModelClasses SchemaFields QuerySchemas WorkflowSchemas

def topLevelStepKinds : List String :=
  ["query", "provider", "assert", "assert_not_truncated", "assert_count", "assert_exists",
    "shape_items", "join_items", "filter_items", "aggregate_items", "dedupe_items"]

def nestedStepKinds : List String := topLevelStepKinds.erase "query"

def fieldsOf (d : Doc) : Fields Scalar := d.entries?.getD []

def itemsOf (d : Doc) : List Doc := d.items?.getD []

def intOf : Doc → Nat
  | .atom (.int i) => i.toNat
  | _ => 0

/-- `workflow_step_kind`. -/
def workflowStepKind (step : Doc) : String := (activeStepKinds (fieldsOf step)).headD ""

def stepId (step : Doc) : Option String := text? (valueAt (fieldsOf step) "id")

def stepAlias (step : Doc) : Option String := text? (valueAt (fieldsOf step) "as")

/-- `_validate_unique_step_ids`. -/
def uniqueStepIds (steps : List Doc) : Bool := decide (steps.filterMap stepId).Nodup

mutual
/-- `_workflow_references`. -/
def workflowReferences : Doc → List String
  | .atom (.str s) => if s.toList.head? = some '$' then [s] else []
  | .list items => itemReferences items
  | .obj entries => entryReferences entries
  | _ => []
def itemReferences : List Doc → List String
  | [] => []
  | d :: ds => workflowReferences d ++ itemReferences ds
def entryReferences : Fields Scalar → List String
  | [] => []
  | (_, d) :: es => workflowReferences d ++ entryReferences es

end

/-- The alias that `$steps.<alias>` names, up to a dot or a bracket. -/
def referencedAlias (ref : String) : Option String :=
  if "$steps.".toList.isPrefixOf ref.toList then
    some (String.ofList ((ref.toList.drop 7).takeWhile fun c => c != '.' && c != '['))
  else none

def procedureBudget (env : Env) : Model Scalar :=
  plain true
    [.required "wall_clock_s" (env.floatWithin 0 600),
      .required "max_provider_calls" (env.intFrom 0)]

/-- `validate_nested_step_subset`. -/
def validateNestedStepSubset (vs : Fields Scalar) : Bool :=
  let steps := itemsOf (valueAt vs "steps")
  let until_ := fieldsOf (valueAt vs "until")
  (steps.all fun step => nestedStepKinds.contains (workflowStepKind step)) &&
    uniqueStepIds steps &&
    ((workflowReferences (valueAt until_ "left") ++ workflowReferences (valueAt until_ "right")).all
      fun ref => (referencedAlias ref).any fun name => (steps.filterMap stepAlias).contains name)

def procedureRepeatSpec (env : Env) : Model Scalar :=
  checked true validateNestedStepSubset
    [.required "max_attempts" (env.intWithin 1 25),
      .required "until" (assertSpec env).schema,
      .required "steps" (nonEmptyList (workflowStepSchema env).schema)]

def procedureRepeatStepSchema (env : Env) : Model Scalar :=
  plain true
    [.required "id" text,
      .required "repeat" (procedureRepeatSpec env).schema,
      (Field.required "as" text).readAs ["as", "as_"]]

def isRepeat (step : Doc) : Bool := Model.member "repeat" Option.isSome step

def entityTypeField : ModelClasses.Field Scalar := nullable "entity_type" text

def conditionField (env : Env) : ModelClasses.Field Scalar :=
  nullable "condition" (.dict env.primitive)

/-- `ProcedurePrecondition.validate_shape`; the condition key `query` is reserved. -/
def preconditionShape (present : List String) (vs : Fields Scalar) : Bool :=
  let hasEntityType := present.contains "entity_type"
  let hasCondition := present.contains "condition"
  let condition := valueAt vs "condition"
  if !hasEntityType && !hasCondition then true
  else
    !(hasCondition && (text? (valueAt vs "entity_type")).all blank) &&
      !(hasEntityType && !nonEmpty condition) &&
      nonEmpty condition && !((fieldsOf condition).map Prod.fst).contains "query"

theorem dict_primitive_bare (env : Env) (d : Doc) : (Schema.dict env.primitive).bare d = d := by
  cases d with
  | obj entries =>
    change Node.obj (entries.map fun e => (e.1, e.2)) = .obj entries
    simp
  | _ => rfl

theorem entityType_bare (d : Doc) : entityTypeField.bare d = d := by
  cases d <;> rfl

theorem condition_bare (env : Env) (d : Doc) : (conditionField env).bare d = d := by
  cases d with
  | obj entries => exact dict_primitive_bare env (.obj entries)
  | _ => rfl

theorem not_null_of_nonEmpty {d : Doc} (h : nonEmpty d = true) : d.isNull = false := by
  cases d <;> first | rfl | cases h

theorem text_of_not_blank {d : Doc} (h : (text? d).all blank = false) : d.isNull = false := by
  cases d <;> first | rfl | cases h

def preconditionFields (env : Env) : List (ModelClasses.Field Scalar) :=
  [entityTypeField, conditionField env]

theorem precondition_bare (env : Env) (vs : Fields Scalar) {f : ModelClasses.Field Scalar}
    (hf : f ∈ preconditionFields env) (hb : ∀ d, f.bare d = d) :
    valueAt (bareAll (preconditionFields env) vs) f.name = valueOf vs f := by
  have hn := names_nodup_of_named (show wellNamed (preconditionFields env) = true by rfl)
  rw [valueAt, bareAll, lookup_assemble hn _ hf, hb]
  rfl

/-- A precondition that was accepted names both its fields or neither of them, so
its dump passes the same check. -/
theorem precondition_again (env : Env) {given vs : Fields Scalar}
    (h : Filled (preconditionFields env) given vs)
    (hp : preconditionShape (given.map Prod.fst) vs = true) :
    preconditionShape ((shownAll (preconditionFields env) vs).map Prod.fst)
      (bareAll (preconditionFields env) vs) = true := by
  have he : entityTypeField ∈ preconditionFields env := by simp [preconditionFields]
  have hc : conditionField env ∈ preconditionFields env := by simp [preconditionFields]
  have hve : valueAt vs "entity_type" = valueOf vs entityTypeField := rfl
  have hvc : valueAt vs "condition" = valueOf vs (conditionField env) := rfl
  have hbe : valueAt (bareAll (preconditionFields env) vs) "entity_type" =
      valueOf vs entityTypeField := precondition_bare env vs he entityType_bare
  have hbc : valueAt (bareAll (preconditionFields env) vs) "condition" =
      valueOf vs (conditionField env) := precondition_bare env vs hc (condition_bare env)
  have hn := names_nodup_of_named (show wellNamed (preconditionFields env) = true by rfl)
  have hse : ((shownAll (preconditionFields env) vs).map Prod.fst).contains "entity_type" =
      !(valueOf vs entityTypeField).isNull := written_iff_not_null hn vs he rfl fun _ => rfl
  have hsc : ((shownAll (preconditionFields env) vs).map Prod.fst).contains "condition" =
      !(valueOf vs (conditionField env)).isNull := written_iff_not_null hn vs hc rfl fun _ => rfl
  cases hwe : (given.map Prod.fst).contains "entity_type" with
  | false =>
    have hnull := h.default_of_not_written he rfl hwe
    cases hwc : (given.map Prod.fst).contains "condition" with
    | true =>
      simp only [preconditionShape, hwe, hwc, hve, hnull] at hp
      simp [text?] at hp
    | false =>
      have hnull' := h.default_of_not_written hc rfl hwc
      rw [hnull] at hse
      rw [hnull'] at hsc
      simp only [preconditionShape, hse, hsc]
      rfl
  | true =>
    cases hwc : (given.map Prod.fst).contains "condition" with
    | false =>
      have hnull := h.default_of_not_written hc rfl hwc
      simp only [preconditionShape, hwe, hwc, hvc, hnull] at hp
      simp [nonEmpty, Node.entries?] at hp
    | true =>
      simp only [preconditionShape, hwe, hwc, hve, hvc, Bool.not_true, Bool.and_self,
        Bool.false_eq_true, if_false, Bool.true_and, Bool.and_eq_true, Bool.not_eq_true',
        Bool.not_eq_false'] at hp
      obtain ⟨⟨⟨htext, _⟩, hcond⟩, hkey⟩ := hp
      have hne := text_of_not_blank htext
      have hnc := not_null_of_nonEmpty hcond
      simp only [preconditionShape, hse, hsc, hbe, hbc, hne, hnc, htext, hcond, hkey]
      rfl

/-- `ProcedurePrecondition`. -/
def procedurePrecondition (env : Env) : Model Scalar where
  forbid := true
  fields := preconditionFields env
  rule _ := true
  presence := preconditionShape
  survives _ := true
  named := by rfl
  presence_again _ _ h hp := precondition_again env h hp

theorem repeat_shaped (env : Env) :
    (procedureRepeatStepSchema env).schema.Shaped (Model.member "repeat" Option.isSome) := by
  have hf : Field.required "repeat" (procedureRepeatSpec env).schema ∈
      (procedureRepeatStepSchema env).fields := by
    simp [procedureRepeatStepSchema, plain, checked]
  have hshaped := (procedureRepeatStepSchema env).shaped_of_field hf
    (fun d => d.entries?.isSome) rfl (procedureRepeatSpec env).shaped nofun rfl fun _ => rfl
  refine Schema.shaped_mono hshaped fun d hd => ?_
  cases he : d.entries? with
  | none => simp [Model.member, he] at hd
  | some entries =>
    have hname : (Field.required "repeat" (procedureRepeatSpec env).schema).name = "repeat" := rfl
    cases hl : entries.lookup "repeat" with
    | none => simp [Model.member, he, hname, hl] at hd
    | some v => simp [Model.member, he, hl]

/-- `ProcedureStepSchema = WorkflowStepSchema | ProcedureRepeatStepSchema`. -/
def procedureStepSchema (env : Env) : Schema Scalar :=
  byMember "repeat" (procedureRepeatStepSchema env).schema (workflowStepSchema env).schema
    (repeat_shaped env) ((workflowStepSchema env).shaped_of_not_named (by rfl))

def nestedSteps (step : Doc) : List Doc :=
  itemsOf (valueAt (fieldsOf (valueAt (fieldsOf step) "repeat")) "steps")

def maxAttempts (step : Doc) : Nat :=
  intOf (valueAt (fieldsOf (valueAt (fieldsOf step) "repeat")) "max_attempts")

structure StaticExpansion where
  totalSteps : Nat
  expandedSteps : Nat
  expandedProviderCalls : Nat

def isProviderStep (step : Doc) : Bool := workflowStepKind step == "provider"

/-- `static_expansion`. -/
def staticExpansion (steps : List Doc) : StaticExpansion :=
  steps.foldl
    (fun acc step =>
      if isRepeat step then
        { totalSteps := acc.totalSteps + 1 + (nestedSteps step).length
          expandedSteps := acc.expandedSteps + 1 + maxAttempts step * (nestedSteps step).length
          expandedProviderCalls := acc.expandedProviderCalls +
            maxAttempts step * ((nestedSteps step).filter isProviderStep).length }
      else
        { totalSteps := acc.totalSteps + 1
          expandedSteps := acc.expandedSteps + 1
          expandedProviderCalls := acc.expandedProviderCalls +
            if isProviderStep step then 1 else 0 })
    ⟨0, 0, 0⟩

/-- The output names that `evidence_outputs` may list. -/
def availableOutputs (steps : List Doc) : List String :=
  steps.filterMap fun step =>
    if isRepeat step then stepAlias step else ((stepAlias step).filter (· ≠ "")) <|> stepId step

/-- `validate_definition`. -/
def validateDefinition (vs : Fields Scalar) : Bool :=
  let steps := itemsOf (valueAt vs "steps")
  let evidence := (itemsOf (valueAt vs "evidence_outputs")).filterMap text?
  let expansion := staticExpansion steps
  !((text? (valueAt vs "name")).all blank) &&
    (steps.all fun step => isRepeat step || topLevelStepKinds.contains (workflowStepKind step)) &&
    uniqueStepIds steps && decide evidence.Nodup &&
    evidence.all (availableOutputs steps).contains &&
    decide (expansion.totalSteps ≤ 100) && decide (expansion.expandedSteps ≤ 500) &&
    decide (expansion.expandedProviderCalls ≤ 250) &&
    decide (expansion.expandedProviderCalls ≤
      intOf (valueAt (fieldsOf (valueAt vs "budget")) "max_provider_calls"))

/-- `ProcedureDefinition`. -/
def procedureDefinition (env : Env) : Model Scalar :=
  checked true validateDefinition
    [.required "name" text,
      nullable "description" text,
      .defaulted "contract_in" (contractReference env) (str "cruxible.EmptyInput")
        ⟨str "cruxible.EmptyInput", rfl⟩,
      nullable "contract_out" (contractReference env),
      .required "steps" (nonEmptyList (procedureStepSchema env)),
      .required "returns" text,
      .required "precondition" (procedurePrecondition env).schema,
      .required "budget" (procedureBudget env).schema,
      choice "declared_tier" ["governed_write", "graph_write", "admin"] "governed_write",
      nullable "evidence_outputs" (.list text)]

end Cruxible.ProcedureSchemas
