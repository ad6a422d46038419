import Cruxible.ContractReplays

/-!
# Errors that escape a validation

The callers of `normalize_value` collect `ValueError`. The conversion of an integer to a
float, the parser of datetimes and the shift to UTC raise other errors, and so does the
nested validator where it is given a schema whose shape nobody has checked.
-/
namespace Cruxible.JsonSchemas
open JsonValue PythonDict Fallible PropertyValidation
open Value

/-- The value cannot be looked up in the vocabulary. -/
def enumMisread (schema : Fields) (value : Value) : Bool :=
  match Bindings.get? schema "enum" with
  | some allowed =>
      match isMember value allowed with
      | .ok _ => false
      | .error _ => true
  | none => false

/-- The required names do not form a set. -/
def requiredMisread (schema : Fields) : Bool :=
  (requiredOf schema).any fun names => names.any fun n => !hashable n

/-- One of the values is misread, and the values before it are accepted. -/
def firstMisread (accepted misread : Value → Bool) : List Value → Bool
  | [] => false
  | v :: vs => misread v || (accepted v && firstMisread accepted misread vs)

section Misreads

variable (enums : Enums)

mutual

/-- The validator comes to a part of the schema that it cannot read. -/
def misreads : Value → Value → Bool
  | .object schema, value =>
      (typeAdmits schema value && enumMisread schema value) ||
      (nodeAdmits enums schema value &&
        (match value with
          | .object entries => requiredMisread schema ||
              (requiredPresent schema entries &&
                propertiesMisread schema ((requiredOf schema).getD []) entries)
          | .array items => itemsMisread schema items
          | _ => false))
  | _, _ => true
termination_by structural schema => schema

def propertiesMisread : Fields → List Value → Fields → Bool
  | [], _, _ => false
  | (key, .object children) :: rest, required, entries =>
      if key = "properties" then childrenMisread children required entries
      else propertiesMisread rest required entries
  | (key, _) :: rest, required, entries =>
      if key = "properties" then false else propertiesMisread rest required entries
termination_by structural schema => schema

def childrenMisread : Fields → List Value → Fields → Bool
  | [], _, _ => false
  | (name, child) :: rest, required, entries =>
      match Bindings.get? entries name with
      | none => childrenMisread rest required entries
      | some value =>
          if value = .null ∧ .str name ∉ required then childrenMisread rest required entries
          else misreads child value ||
            (accepts enums child value && childrenMisread rest required entries)
termination_by structural children => children

def itemsMisread : Fields → List Value → Bool
  | [], _ => false
  | (key, schema) :: rest, items =>
      if key = "items" then
        match schema with
        | .object _ => firstMisread (fun item => accepts enums schema item)
            (fun item => misreads schema item) items
        | _ => false
      else itemsMisread rest items
termination_by structural schema => schema

end

theorem propertiesMisread_eq (schema : Fields) (required : List Value) (entries : Fields) :
    propertiesMisread enums schema required entries =
      match Bindings.get? schema "properties" with
      | some (.object children) => childrenMisread enums children required entries
      | _ => false := by
  induction schema with
  | nil => rfl
  | cons e rest ih =>
    obtain ⟨key, v⟩ := e
    by_cases hkey : key = "properties"
    · cases v <;> simp [propertiesMisread, Bindings.get?, hkey]
    · cases v <;> simp [propertiesMisread, Bindings.get?, hkey, ih]

theorem itemsMisread_eq (schema : Fields) (items : List Value) :
    itemsMisread enums schema items =
      match Bindings.get? schema "items" with
      | some (.object fields) => firstMisread (fun item => accepts enums (.object fields) item)
          (fun item => misreads enums (.object fields) item) items
      | _ => false := by
  induction schema with
  | nil => rfl
  | cons e rest ih =>
    obtain ⟨key, v⟩ := e
    by_cases hkey : key = "items"
    · cases v <;> simp [itemsMisread, Bindings.get?, hkey]
    · cases v <;> simp [itemsMisread, Bindings.get?, hkey, ih]

end Misreads

section Collects

variable {str : Value → String} {enums : Enums}

theorem collected_seq_iff {x y : Except FieldError Unit} :
    Collected (do x; y) ↔ Collected x ∧ (x = .ok () → Collected y) := by
  cases x with
  | ok u => exact ⟨fun h => ⟨trivial, fun _ => h⟩, fun h => h.2 rfl⟩
  | error e =>
    constructor
    · intro h
      exact ⟨by cases e <;> exact h, fun heq => by cases heq⟩
    · intro h
      cases e <;> exact h.1

theorem collected_checkType {schema : Fields} {value : Value} {path : String} :
    Collected (checkType schema value path) := by
  unfold checkType validateRuntimeType
  split
  · split
    · trivial
    · split_ifs <;> trivial
  · trivial

variable {path : String} {schema : Fields} {value : Value}

theorem collected_checkEnum :
    Collected (checkEnum str schema value path) ↔ enumMisread schema value = false := by
  unfold checkEnum enumMisread
  cases Bindings.get? schema "enum" with
  | none => simp [Collected]
  | some allowed =>
    dsimp only
    cases hmember : isMember value allowed with
    | ok b => cases b <;> simp [bind, Except.bind, Collected]
    | error e =>
      suffices h : ¬@Collected Unit (.error e) by
        simpa [bind, Except.bind] using h
      unfold isMember at hmember
      cases allowed with
      | array items => cases hmember
      | object es =>
        dsimp only at hmember
        split_ifs at hmember
        rw [← Except.error.inj hmember]
        exact id
      | str text =>
        cases value with
        | str part => cases hmember
        | null | bool b | int n | float f | array xs | object es =>
          rw [← Except.error.inj hmember]
          exact id
      | null | bool b | int n | float f =>
        rw [← Except.error.inj hmember]
        exact id

theorem collected_checkEnumRef {schema : Fields} {value : Value} {path : String} :
    Collected (checkEnumRef enums schema value path) := by
  unfold checkEnumRef enumRefValues
  split
  · rename_i enumRef _
    cases enums.get? enumRef with
    | none => trivial
    | some allowed =>
      dsimp only [bind, Except.bind]
      split_ifs <;> trivial
  · trivial

theorem collected_checkNode :
    Collected (checkNode str enums schema value path) ↔
      (typeAdmits schema value && enumMisread schema value) = false := by
  unfold checkNode
  rw [collected_seq_iff, collected_seq_iff, checkType_eq_ok, collected_checkEnum]
  have htype := @collected_checkType schema value path
  have href := @collected_checkEnumRef enums schema value path
  cases typeAdmits schema value <;> simp [htype, href]

theorem collected_checkRequired {entries : Fields} :
    Collected (checkRequired str schema entries path) ↔ requiredMisread schema = false := by
  unfold checkRequired requiredMisread
  cases requiredOf schema with
  | none => simp [Collected]
  | some names =>
    dsimp only
    cases hfind : names.find? fun n => !hashable n with
    | some n =>
      have hbad := List.find?_some hfind
      have hmem := List.mem_of_find?_eq_some hfind
      refine iff_of_false id ?_
      rw [Option.any_some, Bool.not_eq_false, List.any_eq_true]
      exact ⟨n, hmem, hbad⟩
    | none =>
      refine iff_of_true (by dsimp only; split <;> trivial) ?_
      rw [Option.any_some, List.any_eq_false]
      exact List.find?_eq_none.mp hfind

theorem collected_children_iff {children : Fields}
    (h : ∀ n v, (n, v) ∈ children → ∀ value path,
      Collected (validateRuntimeNode str enums v value path) ↔ misreads enums v value = false)
    (required : List Value) (entries : Fields) (path : String) :
    Collected (validateChildren str enums children required entries path) ↔
      childrenMisread enums children required entries = false := by
  induction children with
  | nil => simp [validateChildren, childrenMisread, Collected]
  | cons e rest ih =>
    obtain ⟨name, child⟩ := e
    have hrest := ih fun n v hv => h n v (List.mem_cons_of_mem _ hv)
    rw [validateChildren, childrenMisread, collected_seq_iff, hrest]
    cases Bindings.get? entries name with
    | none => simp [Collected]
    | some value =>
      dsimp only
      split_ifs with hskip
      · simp [Collected]
      · rw [h name child List.mem_cons_self, validateRuntimeNode_eq_ok]
        cases misreads enums child value <;> cases accepts enums child value <;> simp

theorem collected_items_iff {schema : Value}
    (h : ∀ value path, Collected (validateRuntimeNode str enums schema value path) ↔
      misreads enums schema value = false) (items : List (Value × Nat)) (path : String) :
    Collected (items.forM fun item =>
        validateRuntimeNode str enums schema item.1 (path ++ "[" ++ toString item.2 ++ "]")) ↔
      firstMisread (fun item => accepts enums schema item) (fun item => misreads enums schema item)
        (items.map Prod.fst) = false := by
  induction items with
  | nil => simp [firstMisread, Collected, pure, Except.pure]
  | cons item rest ih =>
    change Collected (forM (item :: rest) _) ↔ _
    rw [List.forM_cons, List.map_cons, firstMisread, collected_seq_iff, h,
      validateRuntimeNode_eq_ok]
    refine (and_congr_right' (imp_congr_right fun _ => ih)).trans ?_
    cases misreads enums schema item.1 <;> cases accepts enums schema item.1 <;> simp

/-- The validator refuses with `ValueError` alone exactly where it can read the schema. -/
theorem collected_iff (schema : Value) : ∀ value path,
    Collected (validateRuntimeNode str enums schema value path) ↔
      misreads enums schema value = false := by
  induction schema using schemaInduction with
  | leaf v h =>
    intro value path
    cases v with
    | object es => exact absurd rfl (h es)
    | null | bool b | int n | float f | str s | array xs =>
      simp [validateRuntimeNode, misreads, Collected]
  | node schema hentries hchildren =>
    intro value path
    cases value with
    | null | bool b | int n | float f | str s =>
      simp only [validateRuntimeNode, misreads]
      rw [collected_seq_iff, collected_checkNode]
      simp [Collected]
    | object entries =>
      rw [validateRuntimeNode, misreads, collected_seq_iff, collected_checkNode,
        checkNode_eq_ok, collected_seq_iff, collected_checkRequired, checkRequired_eq_ok]
      have hrest : Collected (validateProperties str enums schema
          ((requiredOf schema).getD []) entries path) ↔ propertiesMisread enums schema
            ((requiredOf schema).getD []) entries = false := by
        rw [validateProperties_eq, propertiesMisread_eq]
        cases hget : Bindings.get? schema "properties" with
        | none => simp [Collected]
        | some v =>
          cases v with
          | object children =>
            exact collected_children_iff
              (fun n v hv => hchildren _ children (Bindings.mem_of_get? hget) n v hv) _ _ _
          | null | bool b | int n | float f | str s | array xs => simp [Collected]
      rw [hrest]
      cases typeAdmits schema (.object entries) && enumMisread schema (.object entries) <;>
        cases nodeAdmits enums schema (.object entries) <;>
        cases requiredMisread schema <;> cases requiredPresent schema entries <;> simp
    | array items =>
      rw [validateRuntimeNode, misreads, collected_seq_iff, collected_checkNode,
        checkNode_eq_ok]
      have hrest : Collected (validateItems str enums schema items path) ↔
          itemsMisread enums schema items = false := by
        rw [validateItems_eq, itemsMisread_eq]
        cases hget : Bindings.get? schema "items" with
        | none => simp [Collected]
        | some v =>
          cases v with
          | object fields =>
            have hitems := collected_items_iff
              (fun value path => hentries _ _ (Bindings.mem_of_get? hget) value path)
              items.zipIdx path
            rw [List.zipIdx_map_fst] at hitems
            exact hitems
          | null | bool b | int n | float f | str s | array xs => simp [Collected]
      rw [hrest]
      cases typeAdmits schema (.array items) && enumMisread schema (.array items) <;>
        cases nodeAdmits enums schema (.array items) <;> simp

end Collects

end Cruxible.JsonSchemas

namespace Cruxible.Contracts
open JsonValue PythonDict Fallible PropertyValidation JsonSchemas
open AssertionState (Properties)
open Timestamps (ensureUtc)
open Value

/-- An outcome that the callers of `normalize_value` handle. -/
def Handled : Except NormalizeError Value → Prop
  | .ok _ => True
  | .error (.valueError _) => True
  | .error _ => False

/-- The value is in the vocabulary of its field, if that has one. -/
def vocabularyAdmits (config : CoreConfig) (schema : PropertySchema) (v : Value) : Bool :=
  match enumValues config schema with
  | .ok (some allowed) => allowed.any fun a => v.pyEq a
  | .ok none => true
  | .error _ => false

/-- An integer beyond the floats; a datetime that is no text, or that is outside the
calendar in UTC. -/
def conversionEscapes (rt : TextRuntime) : PropertyType → Value → Bool
  | .float, .int n => (floatOfInt n).isNone
  | .number, .int n => (floatOfInt n).isNone
  | .datetime, .str s =>
      (rt.datetimeFromIsoformat (replaceZulu s)).any fun d => (ensureUtc d).isNone
  | .datetime, _ => true
  | _, _ => false

def normalizationEscapes (rt : TextRuntime) (config : CoreConfig) (schema : PropertySchema)
    (v : Value) : Bool :=
  v ≠ .null && vocabularyAdmits config schema v && conversionEscapes rt schema.type v

/-- A json value that the nested validator is asked about, and cannot be. -/
def nestedEscapes (c : ContractContext) (schema : PropertySchema) (v : Value) : Bool :=
  v ≠ .null && vocabularyAdmits c.config schema v && schema.type = .json && v.finite &&
    schema.jsonSchema.any fun es => misreads c.config.enums (.object es) v

def fieldEscapes (c : ContractContext) (schema : PropertySchema) (v : Value) : Bool :=
  normalizationEscapes c.rt c.config schema v || nestedEscapes c schema v

section Escapes

variable {rt : TextRuntime} {config : CoreConfig} {schema : PropertySchema} {v : Value}

theorem handled_normalizeTyped {type : PropertyType} (hnull : v ≠ .null) :
    Handled (normalizeTyped rt v type) ↔ conversionEscapes rt type v = false := by
  cases type with
  | string | int | integer | bool =>
    cases v <;> simp [normalizeTyped, conversionEscapes, Handled]
  | date =>
    cases v with
    | str s =>
      simp only [normalizeTyped, conversionEscapes]
      split_ifs <;> simp [Handled]
    | null | bool b | int n | float f | array xs | object es =>
      simp [normalizeTyped, conversionEscapes, Handled]
  | json =>
    simp only [normalizeTyped, conversionEscapes]
    split_ifs <;> simp [Handled]
  | float | number =>
    cases v with
    | int n =>
      simp only [normalizeTyped, conversionEscapes]
      cases floatOfInt n <;> simp [Handled]
    | null | bool b | str s | float f | array xs | object es =>
      simp [normalizeTyped, conversionEscapes, Handled]
  | datetime =>
    cases v with
    | null => exact absurd rfl hnull
    | bool b | int n | float f | array xs | object es =>
      simp [normalizeTyped, parseDatetime, conversionEscapes, Handled]
    | str s =>
      simp only [normalizeTyped, parseDatetime, conversionEscapes]
      cases rt.datetimeFromIsoformat (replaceZulu s) with
      | none => simp [Handled]
      | some d =>
        dsimp only
        cases hutc : ensureUtc d <;> simp [Handled, hutc]

theorem normalizeValue_of_ne_null (hnull : v ≠ .null) :
    (vocabularyAdmits config schema v = true ∧
      normalizeValue rt v schema config = normalizeTyped rt v schema.type) ∨
    (vocabularyAdmits config schema v = false ∧
      ∃ m, normalizeValue rt v schema config = .error (.valueError m)) := by
  unfold normalizeValue vocabularyAdmits
  rw [if_neg hnull]
  cases hvocabulary : enumValues config schema with
  | error e =>
    unfold enumValues at hvocabulary
    split at hvocabulary
    · cases hvocabulary
    · split at hvocabulary
      · cases hvocabulary
      · obtain rfl := Except.error.inj hvocabulary
        exact .inr ⟨rfl, _, rfl⟩
    · cases hvocabulary
  | ok vocabulary =>
    cases vocabulary with
    | none => exact .inl ⟨rfl, rfl⟩
    | some allowed =>
      dsimp only [bind, Except.bind]
      cases hin : allowed.any fun a => v.pyEq a with
      | true => exact .inl ⟨rfl, rfl⟩
      | false => exact .inr ⟨rfl, _, rfl⟩

theorem handled_normalizeValue :
    Handled (normalizeValue rt v schema config) ↔
      normalizationEscapes rt config schema v = false := by
  by_cases hnull : v = .null
  · subst hnull
    refine iff_of_true ?_ (by simp [normalizationEscapes])
    unfold normalizeValue
    rw [if_pos rfl]
    split_ifs <;> trivial
  · rcases @normalizeValue_of_ne_null rt config schema v hnull with
      ⟨hin, heq⟩ | ⟨hout, m, heq⟩
    · rw [heq, handled_normalizeTyped hnull]
      simp [normalizationEscapes, hnull, hin]
    · rw [heq]
      exact iff_of_true trivial (by simp [normalizationEscapes, hout])

variable {c : ContractContext} {name : String}

theorem collected_validateNested {w : Value} :
    Collected (validateNested c name schema w) ↔ (schema.type = .json → w ≠ .null →
      ∀ es, schema.jsonSchema = some es → misreads c.config.enums (.object es) w = false) := by
  unfold validateNested
  cases schema.jsonSchema with
  | none => simp [Collected]
  | some es =>
    dsimp only
    split_ifs with hasked
    · rw [collected_iff]
      simp [hasked]
    · refine iff_of_true trivial ?_
      intro htype hnull
      exact absurd ⟨htype, hnull⟩ hasked

theorem nestedEscapes_eq_false : nestedEscapes c schema v = false ↔
    (v ≠ .null → vocabularyAdmits c.config schema v = true → schema.type = .json →
      v.finite = true → ∀ es, schema.jsonSchema = some es →
        misreads c.config.enums (.object es) v = false) := by
  unfold nestedEscapes
  cases schema.jsonSchema <;> simp

theorem normalizeValue_json (hnull : v ≠ .null) (htype : schema.type = .json) {w : Value} :
    normalizeValue rt v schema config = .ok w ↔
      vocabularyAdmits config schema v = true ∧ v.finite = true ∧ w = v := by
  rcases @normalizeValue_of_ne_null rt config schema v hnull with ⟨hin, heq⟩ | ⟨hout, m, heq⟩
  · rw [heq, htype]
    cases hfinite : v.finite <;> simp [normalizeTyped, hin, hfinite, eq_comm]
  · rw [heq]
    simp [hout]

theorem collected_normalizeContractField :
    Collected (normalizeContractField c name v schema) ↔ fieldEscapes c schema v = false := by
  have hhandled := @handled_normalizeValue c.rt c.config schema v
  unfold fieldEscapes normalizeContractField
  rw [Bool.or_eq_false_iff, ← hhandled, nestedEscapes_eq_false]
  cases hvalue : normalizeValue c.rt v schema c.config with
  | error e =>
    have hnested : v ≠ .null → vocabularyAdmits c.config schema v = true →
        schema.type = .json → v.finite = true → False := by
      intro hnull hin htype hfinite
      rw [(normalizeValue_json hnull htype).mpr ⟨hin, hfinite, rfl⟩] at hvalue
      cases hvalue
    have hcollected : Collected (.error (fieldError e) : Except FieldError Value) ↔
        Handled (.error e) := by
      cases e <;> exact Iff.rfl
    refine hcollected.trans (and_iff_left ?_).symm
    intro hnull hin htype hfinite
    exact absurd hfinite (hnested hnull hin htype)
  | ok w =>
    have hcollected : Collected (do validateNested c name schema w; .ok w) ↔
        Collected (validateNested c name schema w) := by
      cases validateNested c name schema w with
      | ok u => exact Iff.rfl
      | error e => cases e <;> exact Iff.rfl
    refine hcollected.trans ?_
    have hok : Handled (.ok w) := trivial
    rw [collected_validateNested, and_iff_right hok]
    by_cases hnull : v = .null
    · have hnull' : w = .null := by
        subst hnull
        unfold normalizeValue at hvalue
        rw [if_pos rfl] at hvalue
        split_ifs at hvalue
        exact (Except.ok.inj hvalue).symm
      simp [hnull, hnull']
    · constructor
      · intro h _ _ htype _
        obtain ⟨_, _, rfl⟩ := (normalizeValue_json hnull htype).mp hvalue
        exact h htype hnull
      · intro h htype _
        obtain ⟨hin, hfinite, rfl⟩ := (normalizeValue_json hnull htype).mp hvalue
        exact h hnull hin htype hfinite

variable {ref : ContractReference} {contract : ContractSchema} {payload : Properties}
  {subject : String} {hint : Option String} {strip : Bool}

theorem validateContractPayload_documented (hresolve : resolveContract c ref = some contract) :
    (∀ e, validateContractPayload c ref payload subject hint strip = .error e → ¬e.Escapes) ↔
      ∀ f ∈ contract.fields.entries, ∀ v, given payload f = some v →
        fieldEscapes c f.2 v = false := by
  have hescapes := @validateContractPayload_escapes c ref contract payload subject hint strip
    hresolve
  have hsettled : ∀ f, Settled c (validationPayload contract payload strip) f ↔
      ∀ v, given (validationPayload contract payload strip) f = some v →
        fieldEscapes c f.2 v = false := by
    intro f
    unfold Settled outcome
    constructor
    · intro h v hv
      exact collected_normalizeContractField.mp (h _ (by rw [hv]; rfl))
    · intro h result hresult
      obtain ⟨v, hv, rfl⟩ := Option.map_eq_some_iff.mp hresult
      exact collected_normalizeContractField.mpr (h v hv)
  have hdeclared : ∀ f ∈ contract.fields.entries,
      given (validationPayload contract payload strip) f = given payload f := by
    intro f hf
    unfold given
    rw [get?_validationPayload (List.mem_map_of_mem hf)]
  constructor
  case mp =>
    intro h f hf v hv
    by_contra hfield
    obtain ⟨e, he, hbad⟩ := hescapes.mpr ⟨f, List.mem_append_left _ hf, fun hs =>
      hfield ((hsettled f).mp hs v (by rw [hdeclared f hf, hv]))⟩
    exact h e he hbad
  case mpr =>
    intro h e he hbad
    obtain ⟨f, hf, hunsettled⟩ := hescapes.mp ⟨e, he, hbad⟩
    refine hunsettled ((hsettled f).mpr ?_)
    intro v hv
    rcases mem_validatedFields_cases hf with hfield | ⟨_, _, hschema⟩
    · exact h f hfield v (hdeclared f hfield ▸ hv)
    · rw [hschema]
      simp [fieldEscapes, normalizationEscapes, nestedEscapes, conversionEscapes, extraSchema]

end Escapes

/-- The values that normalization handles, and the payloads that validation documents. -/
theorem validation_total_iff (c : ContractContext) :
    (∀ schema v, Handled (normalizeValue c.rt v schema c.config) ↔
      normalizationEscapes c.rt c.config schema v = false) ∧
    ∀ ref payload subject hint strip,
      (∀ e, validateContractPayload c ref payload subject hint strip = .error e → ¬e.Escapes) ↔
        ∀ contract, resolveContract c ref = some contract → ∀ f ∈ contract.fields.entries,
          ∀ v, given payload f = some v → fieldEscapes c f.2 v = false := by
  refine ⟨fun _ _ => handled_normalizeValue, ?_⟩
  intro ref payload subject hint strip
  cases hresolve : resolveContract c ref with
  | some contract =>
      rw [validateContractPayload_documented hresolve]
      simp
  | none =>
      refine iff_of_true ?_ ?_
      · intro e he
        unfold validateContractPayload at he
        rw [hresolve] at he
        rw [← Except.error.inj he]
        exact id
      · intro contract hcontract
        cases hcontract

/-- A number where a datetime is asked for escapes as an `AttributeError`. -/
theorem number_for_datetime_escapes :
    normalizeValue newYearRuntime (.int 5) { type := .datetime } {} =
        .error (.attributeError "'int' object has no attribute 'replace'") ∧
    ∃ e, validateContractPayload newYearContext (.inline (oneField "at" { type := .datetime }))
      (Dict.ofList [("at", .int 5)]) "Input" none false = .error e ∧ e.Escapes := by
  refine ⟨by decide, ?_⟩
  by_contra hnone
  push Not at hnone
  have hdocumented := (validateContractPayload_documented rfl).mp hnone
  have hfield := hdocumented ("at", { type := .datetime }) List.mem_cons_self (.int 5) rfl
  have hescapes : fieldEscapes newYearContext { type := .datetime } (.int 5) = true := rfl
  rw [hescapes] at hfield
  cases hfield

end Cruxible.Contracts
