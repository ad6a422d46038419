import Cruxible.PropertyValidation

/-!
# Step references and read metadata

Workflow templates are JSON values in which a text may refer to the workflow
input, to the item at hand or to the output of an earlier step. A query leaves
metadata on its output: whether it was truncated, and why. Steps hand that
metadata on. What stands directly on an output hides what the output was handed.
-/
namespace Cruxible.ReadMetadata
open JsonValue PythonDict PropertyValidation Fallible

abbrev Object := Bindings String Value

abbrev Outputs := Dict String Value

def dropMarker (marker : String) (s : String) : Option (List Char) :=
  if marker.toList.isPrefixOf s.toList then some (s.toList.drop marker.toList.length) else none

/-- `$steps.<alias>.<path>`, with the alias up to the first dot. -/
def stepRef (s : String) : Option (String × List Char) :=
  (dropMarker "$steps." s).map fun rest =>
    (String.ofList (rest.takeWhile (· ≠ '.')), (rest.dropWhile (· ≠ '.')).drop 1)

inductive Segment where
  | key (k : String)
  | index (digits : List Char)
  deriving DecidableEq, Repr

/-- The zeros among the decimal digits of Unicode; the other nine follow each of them. -/
def decimalZeros : List Nat :=
  [48, 1632, 1776, 1984, 2406, 2534, 2662, 2790, 2918, 3046, 3174, 3302, 3430, 3558, 3664, 3792,
    3872, 4160, 4240, 6112, 6160, 6470, 6608, 6784, 6800, 6992, 7088, 7232, 7248, 42528, 43216,
    43264, 43472, 43504, 43600, 44016, 65296, 66720, 68912, 69734, 69872, 69942, 70096, 70384,
    70736, 70864, 71248, 71360, 71472, 71904, 72016, 72784, 73040, 73120, 92768, 92864, 93008,
    120782, 120792, 120802, 120812, 120822, 123200, 123632, 125264, 130032]

/-- The value of a character that the pattern `\d` matches. -/
def digitValue? (c : Char) : Option Nat :=
  (decimalZeros.find? fun z => z ≤ c.toNat && c.toNat < z + 10).map fun z => c.toNat - z

def isDigit (c : Char) : Bool := (digitValue? c).isSome

/-- `int(digits)`. -/
def decimal (digits : List Char) : Nat :=
  digits.foldl (fun n d => 10 * n + (digitValue? d).getD 0) 0

/-- `int` reads no more digits than these. -/
def maxStrDigits : Nat := 4300

/-- The matches of the segment pattern: names free of dots and brackets, and
indices in brackets; any other character is skipped. -/
def segments : Nat → List Char → List Segment
  | 0, _ => []
  | _ + 1, [] => []
  | fuel + 1, c :: cs =>
      let digits := cs.takeWhile isDigit
      if c = '[' then
        if digits ≠ [] ∧ (cs.drop digits.length).head? = some ']' then
          .index digits :: segments fuel (cs.drop (digits.length + 1))
        else segments fuel cs
      else if c = '.' ∨ c = ']' then segments fuel cs
      else
        let plain := fun c : Char => !(c = '.' || c = '[' || c = ']')
        .key (String.ofList (c :: cs.takeWhile plain)) :: segments fuel (cs.dropWhile plain)

def extractSegment (path ref : String) (current : Value) : Segment → Except CoreError Value
  | .key k =>
      let missing := CoreError.queryExecution
        s!"Reference '{ref}' could not resolve path '{path}'"
      match current with
      | .object entries =>
          match Bindings.get? entries k with
          | some v => .ok v
          | none => .error missing
      | _ => .error missing
  | .index digits =>
      match current with
      | .array items =>
          if maxStrDigits < digits.length then
            .error (.value (s!"Exceeds the limit ({maxStrDigits} digits) for integer string " ++
              s!"conversion: value has {digits.length} digits; use " ++
              "sys.set_int_max_str_digits() to increase the limit"))
          else
            match items[decimal digits]? with
            | some v => .ok v
            | none => .error (.queryExecution
                s!"Reference '{ref}' index [{decimal digits}] is out of range")
      | _ => .error (.queryExecution
          s!"Reference '{ref}' expected a list before '[{String.ofList digits}]'")

/-- `_extract_path`. -/
def extractPath (root : Value) (path : List Char) (ref : String) : Except CoreError Value :=
  (segments path.length path).foldlM (extractSegment (String.ofList path) ref) root

/-- What a reference may resolve against. -/
structure Scope where
  input : Object
  outputs : Outputs
  item : Option Value := none

/-- `resolve_value` on a text. -/
def Scope.resolveText (sc : Scope) (s : String) : Except CoreError Value :=
  let unsupported := CoreError.queryExecution s!"Unsupported workflow reference '{s}'"
  if s = "$input" then .ok (.object sc.input)
  else if s = "$item" then
    match sc.item with
    | some v => .ok v
    | none => .error unsupported
  else
    match dropMarker "$input." s, dropMarker "$item." s, stepRef s with
    | some path, _, _ => extractPath (.object sc.input) path s
    | none, some path, _ =>
        match sc.item with
        | some v => extractPath v path s
        | none => .error unsupported
    | none, none, some (name, path) =>
        match sc.outputs.get? name with
        | none => .error (.queryExecution
            s!"Unknown workflow step alias '{name}' in reference '{s}'")
        | some target => if path.isEmpty then .ok target else extractPath target path s
    | none, none, none => .ok (.str s)

mutual
/-- `resolve_value`. -/
def Scope.resolveValue (sc : Scope) : Value → Except CoreError Value
  | .str s => sc.resolveText s
  | .array items => do
      let resolved ← sc.resolveItems items
      pure (.array resolved)
  | .object entries => do
      let resolved ← sc.resolveEntries entries
      pure (.object resolved)
  | v => .ok v
def Scope.resolveItems (sc : Scope) : List Value → Except CoreError (List Value)
  | [] => .ok []
  | v :: vs => do
      let head ← sc.resolveValue v
      let tail ← sc.resolveItems vs
      pure (head :: tail)
def Scope.resolveEntries (sc : Scope) : List (String × Value) →
    Except CoreError (List (String × Value))
  | [] => .ok []
  | (k, v) :: vs => do
      let head ← sc.resolveValue v
      let tail ← sc.resolveEntries vs
      pure ((k, head) :: tail)

end

mutual
/-- `_iter_step_refs`. -/
def iterStepRefs : Value → List String
  | .str s => if (stepRef s).isSome then [s] else []
  | .array items => iterStepRefsItems items
  | .object entries => iterStepRefsEntries entries
  | _ => []
def iterStepRefsItems : List Value → List String
  | [] => []
  | v :: vs => iterStepRefs v ++ iterStepRefsItems vs
def iterStepRefsEntries : List (String × Value) → List String
  | [] => []
  | (_, v) :: vs => iterStepRefs v ++ iterStepRefsEntries vs

end

/-- The steps that a template refers to. -/
def referencedSteps (template : Value) : List String :=
  (iterStepRefs template).filterMap fun ref => (stepRef ref).map Prod.fst

def sourceMetadataKey : String := "source_metadata"

def readMetadataKeys : List String :=
  ["total_results", "returned_results", "limit", "truncated", "limit_truncated", "path_truncated",
    "truncation_reasons", "result_shape", "dedupe", "relationship_state", "policy_summary",
    "receipt_id", "query_receipt_ids", "max_paths", "max_paths_per_result", "total_path_count",
    "retained_path_count"]

def truncationReasonOrder : List String := ["limit", "max_paths", "max_paths_per_result"]

/-- The read metadata that stands on an output itself. -/
def directReadMetadata (entries : Object) : Object :=
  readMetadataKeys.filterMap fun k => (Bindings.get? entries k).map fun v => (k, v)

/-- `extract_read_metadata`. -/
def extractReadMetadata : Value → Object
  | .object entries =>
      if directReadMetadata entries ≠ [] then directReadMetadata entries
      else match Bindings.get? entries sourceMetadataKey with
        | some (.object metadata) => metadata
        | _ => []
  | _ => []

/-- `bool(value)`. -/
def truthy : Value → Bool
  | .null => false
  | .bool b => b
  | .int n => n ≠ 0
  | .float f => f ≠ .finite 0 && f ≠ .negZero
  | .str s => s ≠ ""
  | .array items => !items.isEmpty
  | .object entries => !entries.isEmpty

/-- `bool(metadata.get(key))`. -/
def flagged (metadata : Object) (key : String) : Bool :=
  (Bindings.get? metadata key).elim false truthy

def truncationFlags : List String := ["truncated", "limit_truncated", "path_truncated"]

/-- None of the three flags is set. -/
def unflagged (metadata : Object) : Bool := truncationFlags.all fun k => !flagged metadata k

/-- `_source_step_output`. -/
def sourceStepOutput (template : Value) (outputs : Outputs) : Option (String × Value) :=
  match template with
  | .str s => (stepRef s).bind fun ref => (outputs.get? ref.1).map fun v => (ref.1, v)
  | _ => none

def setDefault (metadata : Object) (key : String) (v : Value) : Object :=
  if (Bindings.get? metadata key).isSome then metadata else Bindings.set metadata key v

/-- `source_read_metadata`. -/
def sourceReadMetadata (template : Value) (outputs : Outputs) : Object :=
  match sourceStepOutput template outputs with
  | none => []
  | some (step, output) =>
      let metadata := extractReadMetadata output
      if metadata = [] then []
      else Bindings.set (setDefault (setDefault metadata "source_step" (.str step))
        "source_ref" template) "input_ref" template

/-- `attach_source_metadata`. -/
def attachSourceMetadata (output metadata : Object) : Object :=
  if metadata = [] then output else Bindings.set output sourceMetadataKey (.object metadata)

/-- Iteration over a value. -/
def iterate : Value → Except CoreError (List Value)
  | .array items => .ok items
  | .str s => .ok (s.toList.map fun c => .str (String.ofList [c]))
  | .object entries => .ok (entries.map fun e => .str e.1)
  | .null => .error (.value "'NoneType' object is not iterable")
  | .bool _ => .error (.value "'bool' object is not iterable")
  | .int _ => .error (.value "'int' object is not iterable")
  | .float _ => .error (.value "'float' object is not iterable")

def texts (values : List Value) : List String :=
  values.filterMap fun v => match v with
    | .str s => some s
    | _ => none

/-- `metadata.get("truncation_reasons", [])`, as far as it holds texts. -/
def metadataReasons (metadata : Object) : Except CoreError (List String) :=
  match Bindings.get? metadata "truncation_reasons" with
  | none => .ok []
  | some v => (iterate v).map texts

/-- `_metadata_query_receipt_ids`. -/
def metadataQueryReceiptIds (metadata : Object) : List String :=
  texts (Bindings.get? metadata "receipt_id").toList ++
    match Bindings.get? metadata "query_receipt_ids" with
    | some (.array items) => texts items
    | _ => []

/-- `_ordered_truncation_reasons`. -/
def orderedTruncationReasons (reasons : List String) : List String :=
  truncationReasonOrder.filter (· ∈ reasons) ++
    (reasons.eraseDups.filter (· ∉ truncationReasonOrder)).insertionSort (· ≤ ·)

/-- `merge_read_metadata`. -/
def mergeReadMetadata (items : List Object) : Except CoreError Object := do
  let nonEmpty := items.filter (· ≠ [])
  if nonEmpty = [] then pure []
  else do
    let reasons ← nonEmpty.mapM metadataReasons
    let ids := (nonEmpty.flatMap metadataQueryReceiptIds).eraseDups
    let flags := truncationFlags.map fun k => (k, Value.bool (nonEmpty.any fun m => flagged m k))
    let why := [("truncation_reasons",
      Value.array ((orderedTruncationReasons reasons.flatten).map .str))]
    let receipts := if ids = [] then [] else [("query_receipt_ids", Value.array (ids.map .str))]
    let receipt := match ids with
      | [id] => [("receipt_id", Value.str id)]
      | _ => []
    pure (flags ++ (why ++ receipts ++ receipt))

/-- `source_read_metadata_from_template`. -/
def sourceReadMetadataFromTemplate (template : Value) (outputs : Outputs) :
    Except CoreError Object :=
  mergeReadMetadata ((iterStepRefs template).map fun ref => sourceReadMetadata (.str ref) outputs)

variable {key : String} {metadata : Object} {flag : String} {items : List Object} {merged : Object}

theorem flagged_set (v : Value) (h : key ≠ flag) :
    flagged (Bindings.set metadata key v) flag = flagged metadata flag := by
  rw [flagged, Bindings.get?_set, if_neg h, flagged]

theorem flagged_setDefault (v : Value) (h : key ≠ flag) :
    flagged (setDefault metadata key v) flag = flagged metadata flag := by
  unfold setDefault
  split_ifs
  · rfl
  · exact flagged_set v h

theorem unflagged_iff :
    unflagged metadata = true ↔ ∀ flag ∈ truncationFlags, flagged metadata flag = false := by
  simp [unflagged]

/-- A step whose read metadata a template names. -/
structure NamesRead (template : Value) (outputs : Outputs) (step : String) (output : Value) :
    Prop where
  source : sourceStepOutput template outputs = some (step, output)
  bears : extractReadMetadata output ≠ []

theorem NamesRead.unflagged {template : Value} {outputs : Outputs} {step : String} {output : Value}
    (h : NamesRead template outputs step output) :
    unflagged (sourceReadMetadata template outputs) = unflagged (extractReadMetadata output) := by
  have hother : ∀ key ∈ ["source_step", "source_ref", "input_ref"],
      ∀ flag ∈ truncationFlags, key ≠ flag := by decide
  have hflag : ∀ flag ∈ truncationFlags, flagged (sourceReadMetadata template outputs) flag =
      flagged (extractReadMetadata output) flag := by
    intro flag hflag
    simp only [sourceReadMetadata, h.source, h.bears, if_false]
    rw [flagged_set _ (hother "input_ref" (by simp) flag hflag),
      flagged_setDefault _ (hother "source_ref" (by simp) flag hflag),
      flagged_setDefault _ (hother "source_step" (by simp) flag hflag)]
  rw [Bool.eq_iff_iff, unflagged_iff, unflagged_iff]
  constructor
  · intro hclear flag hmem
    rw [← hflag flag hmem]
    exact hclear flag hmem
  · intro hclear flag hmem
    rw [hflag flag hmem]
    exact hclear flag hmem

theorem NamesRead.sourceReadMetadata_ne {template : Value} {outputs : Outputs} {step : String}
    {output : Value} (h : NamesRead template outputs step output) :
    sourceReadMetadata template outputs ≠ [] := by
  have hset : ∀ (m : Object) (k : String) (v : Value), Bindings.set m k v ≠ [] := by
    intro m k v
    cases m with
    | nil => simp [Bindings.set]
    | cons b m =>
      simp only [Bindings.set]
      split_ifs <;> simp
  simp only [sourceReadMetadata, h.source, h.bears, if_false]
  exact hset _ _ _

theorem get?_map_append {keys : List String} {f : String → Value} {rest : Object} (h : key ∈ keys) :
    Bindings.get? (keys.map (fun k => (k, f k)) ++ rest) key = some (f key) := by
  induction keys with
  | nil => cases h
  | cons k keys ih =>
    by_cases heq : k = key
    · simp [Bindings.get?, heq]
    · have hrest : key ∈ keys := by simpa [Ne.symm heq] using h
      simpa [Bindings.get?, heq] using ih hrest

theorem unflagged_merge (h : mergeReadMetadata items = .ok merged)
    (hclear : unflagged merged = true) : ∀ m ∈ items, m ≠ [] → unflagged m = true := by
  intro m hm hne
  have hmem : m ∈ items.filter (· ≠ []) := by simpa using ⟨hm, hne⟩
  have hnil : items.filter (· ≠ []) ≠ [] := List.ne_nil_of_mem hmem
  simp only [mergeReadMetadata, hnil, if_false] at h
  obtain ⟨reasons, -, h⟩ := bind_eq_ok.mp h
  obtain rfl := pure_eq_ok.mp h
  rw [unflagged_iff] at hclear ⊢
  intro flag hflag
  have hthis := hclear flag hflag
  rw [flagged, get?_map_append hflag] at hthis
  simp only [Option.elim_some, truthy, List.any_eq_false] at hthis
  simpa using hthis m hmem

theorem merge_ne_nil {m : Object} (h : mergeReadMetadata items = .ok merged) (hm : m ∈ items)
    (hne : m ≠ []) : merged ≠ [] := by
  have hmem : m ∈ items.filter (· ≠ []) := by simpa using ⟨hm, hne⟩
  have hnil : items.filter (· ≠ []) ≠ [] := List.ne_nil_of_mem hmem
  simp only [mergeReadMetadata, hnil, if_false] at h
  obtain ⟨reasons, -, h⟩ := bind_eq_ok.mp h
  obtain rfl := pure_eq_ok.mp h
  simp [truncationFlags]

end Cruxible.ReadMetadata
