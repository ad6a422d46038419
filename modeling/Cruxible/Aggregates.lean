import Cruxible.HashJoins
import Cruxible.PythonOrder
import Cruxible.QueryOrdering

/-!
# Summary rows

The aggregate step lists the rows of a collection by the canonical form of their
group fields and computes measures over each group. Groups are put in the order of
the texts of their fields. A minimum or maximum is found in one pass that compares
coerced values and keeps the value as it was written.
-/
namespace Cruxible.Aggregates
open JsonValue PythonDict PropertyValidation Fallible ReadMetadata Groupings WorkflowRuns
open OrderValues OnlineExtrema HashJoins
open QueryOrdering (PredicateValueType)

inductive Measure where
  | count
  | countWhere (comparison : ComparisonSpec)
  | countDistinct (value : Value)
  | sum (value : Value) (valueType : Option PredicateValueType)
  | min (value : Value) (valueType : Option PredicateValueType)
  | max (value : Value) (valueType : Option PredicateValueType)

/-- `AggregateItemsSpec`, with what `validate_fields` refuses left out. -/
structure AggregateItemsSpec where
  items : Value
  groupBy : Dict String Value := ∅
  measures : Dict String Measure
  measured : measures.keys ≠ []
  separate : ∀ name ∈ groupBy.keys, name ∉ measures.keys

/-- The conversions of Python that the step rests on. -/
structure Conversions where
  /-- `str`. -/
  str : Value → String
  /-- `repr`. -/
  repr : Value → String
  /-- `int(text.strip())`. -/
  intOfText : String → Option Int
  /-- `float(n)`, or nothing where it overflows. -/
  floatOfInt : Int → Option PyFloat
  /-- `float(text.strip())`. -/
  floatOfText : String → Option PyFloat
  /-- `text.strip().lower()`. -/
  lowered : String → String
  /-- `date.fromisoformat`, or else the date of `parse_datetime`. -/
  dayOfText : String → Option Int
  /-- `parse_datetime`, in UTC. -/
  instantOfText : String → Option Int
  addFloats : PyFloat → PyFloat → PyFloat
  /-- The text of a value in canonical form. -/
  dump : Value → String

inductive Coercion where
  | value (v : OrderValue)
  | invalid
  | overflow

def Coercion.ofOption : Option OrderValue → Coercion
  | some v => .value v
  | none => .invalid

variable (c : Conversions)

/-- `_coerce_value`; a `TypeError` or `ValueError` makes it invalid. -/
def coerceValue : PredicateValueType → Value → Coercion
  | .string, .null => .invalid
  | .string, v => .value (.json (.str (c.str v)) rfl)
  | .int, .int n | .integer, .int n => .value (.json (.int n) rfl)
  | .int, .float f | .integer, .float f =>
      match f with
      | .finite q => if q.den = 1 then .value (.json (.int q.num) rfl) else .invalid
      | .negZero => .value (.json (.int 0) rfl)
      | _ => .invalid
  | .int, .str s | .integer, .str s =>
      .ofOption ((c.intOfText s).map fun n => .json (.int n) rfl)
  | .float, .int n | .number, .int n =>
      match c.floatOfInt n with
      | some f => .value (.json (.float f) rfl)
      | none => .overflow
  | .float, .float f | .number, .float f => .value (.json (.float f) rfl)
  | .float, .str s | .number, .str s =>
      .ofOption ((c.floatOfText s).map fun f => .json (.float f) rfl)
  | .bool, .bool b => .value (.json (.bool b) rfl)
  | .bool, .str s =>
      if c.lowered s = "true" then .value (.json (.bool true) rfl)
      else if c.lowered s = "false" then .value (.json (.bool false) rfl)
      else .invalid
  | .date, .str s => .ofOption ((c.dayOfText s).map .date)
  | .datetime, .str s => .ofOption ((c.instantOfText s).map fun w => .datetime w (some 0))
  | _, _ => .invalid

/-- `_NUMERIC_AGGREGATE_VALUE_TYPES`. -/
def numericType : PredicateValueType → Bool
  | .int | .integer | .float | .number => true
  | _ => false

def tooLarge : CoreError := .overflow "int too large to convert to float"

def toFloat : Value → Except CoreError PyFloat
  | .int n => match c.floatOfInt n with
      | some f => .ok f
      | none => .error tooLarge
  | .float f => .ok f
  | _ => .error (.value "not a number")

variable (stepId name : String)

def measureError (text : String) : CoreError :=
  .queryExecution s!"Workflow step '{stepId}' aggregate_items measure '{name}' {text}"

/-- `_ensure_finite_aggregate_number`. -/
def ensureFiniteAggregateNumber (operation : String) (v : Value) : Except CoreError Value :=
  match v with
  | .int _ | .float _ => do
      let f ← toFloat c v
      refuseIf (Value.finite (.float f) = false)
        (measureError stepId name s!"{operation} requires finite numeric values")
      pure v
  | _ => .error (measureError stepId name s!"{operation} requires numeric values")

/-- `coerce_predicate_value`, with its error in the words of the measure. -/
def coerceMeasured (t : PredicateValueType) (v : Value) : Except CoreError OrderValue :=
  match coerceValue c t v with
  | .value w => .ok w
  | .overflow => .error tooLarge
  | .invalid => .error (measureError stepId name s!"could not coerce value {c.repr v} as {t.name}")

/-- A coerced number as a number again. -/
def number (v : OrderValue) : Value :=
  match v with
  | .json w _ => w
  | _ => .null

/-- `_coerce_aggregate_sum_value`. -/
def coerceAggregateSumValue (valueType : Option PredicateValueType) (v : Value) :
    Except CoreError Value :=
  match valueType with
  | none => ensureFiniteAggregateNumber c stepId name "sum" v
  | some t => do
      refuseIf (numericType t = false) (measureError stepId name "sum value_type must be numeric")
      let coerced ← coerceMeasured c stepId name t v
      ensureFiniteAggregateNumber c stepId name "sum" (number coerced)

/-- `_coerce_aggregate_order_value`. -/
def coerceAggregateOrderValue (valueType : Option PredicateValueType) (v : Value) :
    Except CoreError OrderValue :=
  match valueType with
  | none => .ok (ordered v)
  | some t => do
      let coerced ← coerceMeasured c stepId name t v
      if numericType t then do
        let _ ← ensureFiniteAggregateNumber c stepId name "min/max" (number coerced)
        pure coerced
      else pure coerced

variable (env : RunEnv) (outputs : Outputs)

/-- `total += numeric`. -/
def addNumbers (total numeric : Value) : Except CoreError Value :=
  match total, numeric with
  | .int a, .int b => .ok (.int (a + b))
  | a, b => do
      let x ← toFloat c a
      let y ← toFloat c b
      pure (.float (c.addFloats x y))

/-- `_aggregate_count_where`. -/
def matchesWhere (comparison : ComparisonSpec) (row : Object) : Except CoreError Bool := do
  let left ← (rowScope env outputs row).resolveValue comparison.left
  let right ← (rowScope env outputs row).resolveValue comparison.right
  match env.compare comparison left right with
  | .error (.value _) =>
      .error (measureError stepId name s!"has unsupported comparison op '{comparison.op}'")
  | matched => matched

/-- The canonical form of a value to be told from others, if there is one. -/
def distinctKey (template : Value) (row : Object) : Except CoreError (Option Value) := do
  let v ← (rowScope env outputs row).resolveValue template
  if v = .null then pure none
  else do
    let key ← joinKey v
    pure (some key)

/-- A value to be added, if there is one. -/
def summand (template : Value) (valueType : Option PredicateValueType) (row : Object) :
    Except CoreError (Option Value) := do
  let v ← (rowScope env outputs row).resolveValue template
  if v = .null then pure none
  else do
    let numeric ← coerceAggregateSumValue c stepId name valueType v
    pure (some numeric)

/-- A value as it is written and as it is compared, if there is one. -/
def candidateValue (template : Value) (valueType : Option PredicateValueType) (row : Object) :
    Except CoreError (Option (Value × OrderValue)) := do
  let v ← (rowScope env outputs row).resolveValue template
  if v = .null then pure none
  else do
    let key ← coerceAggregateOrderValue c stepId name valueType v
    pure (some (v, key))

def incomparable : CoreError := measureError stepId name "values are incomparable"

/-- One turn of `_aggregate_min_max`: `lt` says which of two keys is ahead. -/
def minMaxTurn (lt : OrderValue → OrderValue → Option Bool) (selected : Option (Value × OrderValue)) :
    Option (Value × OrderValue) → Except CoreError (Option (Value × OrderValue))
  | none => .ok selected
  | some (v, key) =>
      match selected with
      | none => .ok (some (v, key))
      | some (_, selectedKey) =>
          match lt key selectedKey with
          | none => .error (incomparable stepId name)
          | some shouldReplace => .ok (if shouldReplace then some (v, key) else selected)

/-- `_aggregate_min_max`. -/
def aggregateMinMax (lt : OrderValue → OrderValue → Option Bool) (template : Value)
    (valueType : Option PredicateValueType) (rows : List Object) : Except CoreError Value := do
  let selected ← rows.foldlM (fun selected row => do
    let next ← candidateValue c stepId name env outputs template valueType row
    minMaxTurn stepId name lt selected next) none
  pure (selected.elim .null Prod.fst)

/-- `_evaluate_aggregate_measure`. -/
def evaluateAggregateMeasure (rows : List Object) : Measure → Except CoreError Value
  | .count => .ok (WorkflowRuns.count rows.length)
  | .countWhere comparison => do
      let found ← rows.mapM (matchesWhere stepId name env outputs comparison)
      pure (WorkflowRuns.count (found.filter id).length)
  | .countDistinct template => do
      let keys ← rows.mapM (distinctKey env outputs template)
      pure (WorkflowRuns.count (keys.filterMap id).eraseDups.length)
  | .sum template valueType =>
      rows.foldlM (fun total row => do
        match ← summand c stepId name env outputs template valueType row with
        | none => pure total
        | some numeric => addNumbers c total numeric) (.int 0)
  | .min template valueType =>
      aggregateMinMax c stepId name env outputs valueLt template valueType rows
  | .max template valueType =>
      aggregateMinMax c stepId name env outputs (fun key selected => valueLt selected key)
        template valueType rows

structure Group where
  fields : Object
  items : List Object

variable (spec : AggregateItemsSpec)

/-- A row with its group fields, under their canonical form. -/
def groupedRow (item : Value) : Except CoreError (Value × Object × Object) := do
  let row ← ensureItemMapping stepId "aggregate_items" item
  let fields ← (rowScope env outputs row).resolveEntries spec.groupBy.entries
  let key ← joinKey (.object fields)
  pure (key, fields, row)

/-- `groups.setdefault(group_key, ...)`, and the row to it. -/
def addRow (groups : Dict Value Group) (e : Value × Object × Object) : Dict Value Group :=
  match groups.get? e.1 with
  | none => groups.set e.1 { fields := e.2.1, items := [e.2.2] }
  | some g => groups.set e.1 { g with items := g.items ++ [e.2.2] }

/-- Without group fields there is one group from the start. -/
def initialGroups : Dict Value Group :=
  if spec.groupBy.entries = [] then Dict.empty.set (.object []) { fields := [], items := [] } else ∅

/-- `_aggregate_group_sort_key`. -/
def sortKey (fields : Object) : List String :=
  spec.groupBy.keys.map fun n => c.dump (((Bindings.get? fields n).getD .null).canonical)

/-- An output row: the group fields and the measures. -/
def outputRow (g : Group) : Except CoreError Object :=
  spec.measures.entries.foldlM (fun row (m : String × Measure) => do
    let v ← evaluateAggregateMeasure c stepId m.1 env outputs g.items m.2
    pure (Bindings.set row m.1 v)) g.fields

/-- The rows that the step makes of its items. -/
def aggregateRows (items : List Value) : Except CoreError (List Object) := do
  let groups ← items.foldlM (fun groups item => do
    let e ← groupedRow stepId env outputs spec item
    pure (addRow groups e)) (initialGroups spec)
  let sorted := (groups.entries.map Prod.snd).mergeSort fun g h =>
    decide (sortKey c spec g.fields ≤ sortKey c spec h.fields)
  sorted.mapM (outputRow c stepId env outputs spec)

/-- `aggregate_items`. -/
def aggregateItems : Except CoreError Object := do
  let items ← resolveStepItems { input := env.input, outputs := outputs } spec.items
  let rows ← aggregateRows c stepId env outputs spec items
  pure (attachSourceMetadata
    [("items", .array (rows.map .object)), ("input_count", WorkflowRuns.count items.length),
      ("group_count", WorkflowRuns.count rows.length),
      ("output_count", WorkflowRuns.count rows.length)]
    (sourceReadMetadata spec.items outputs))

end Cruxible.Aggregates
