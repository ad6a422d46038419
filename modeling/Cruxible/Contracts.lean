import Cruxible.SchemaExamples

/-!
# Contracts

The validation of a payload against a contract, and the worked example of a contract, of
`workflow/contracts.py`. Validation normalizes the values it accepts, after it has compared
them with the vocabulary of their field.
-/
namespace Cruxible.Contracts
open JsonValue PythonDict Fallible PropertyValidation JsonSchemas
open AssertionState (Properties)
open Value

/-- `ContractSchema`. The nested schemas are JSON objects, which have no key twice, and a
shared vocabulary is for text. -/
structure ContractSchema where
  fields : Dict String PropertySchema
  allowExtra : Bool := false
  keyed : ∀ name schema, (name, schema) ∈ fields.entries → ∀ es, schema.jsonSchema = some es →
    Value.keyed (.object es) = true := by simp [PythonDict.Dict.ofList]
  textual : ∀ name schema, (name, schema) ∈ fields.entries → schema.enumRef.isSome = true →
    schema.type = .string := by simp [PythonDict.Dict.ofList]

inductive ContractReference where
  | named (name : String)
  | inline (contract : ContractSchema)

/-- The configuration as the contracts see it. -/
structure ContractContext where
  rt : TextRuntime
  config : CoreConfig
  contracts : Dict String ContractSchema := ∅

/-- What a validation can raise: the error for an unknown contract, the error of the
caller's factory, or an error that escapes both. -/
inductive ContractError where
  | config (message : String)
  | rejected (message : String)
  | overflowError (message : String)
  | attributeError (message : String)
  | typeError (message : String)
  deriving DecidableEq

def sourceMetadataKey : String := "source_metadata"

def maxDeclaredFieldsInError : Nat := 40

def PropertyType.text : PropertyType → String
  | .string => "string"
  | .int => "int"
  | .integer => "integer"
  | .float => "float"
  | .number => "number"
  | .bool => "bool"
  | .date => "date"
  | .datetime => "datetime"
  | .json => "json"

/-- `contract_field_is_required`. -/
def contractFieldIsRequired (schema : PropertySchema) : Bool :=
  !schema.optional && schema.default.isNone

/-- The fields of a contract by name. -/
def sortedFields (contract : ContractSchema) : List (String × PropertySchema) :=
  contract.fields.entries.mergeSort fun a b => a.1 ≤ b.1

/-- `declared_fields`. -/
def declaredFields (contract : ContractSchema) : String :=
  let entries := (sortedFields contract).map fun f =>
    f.1 ++ " (" ++ PropertyType.text f.2.type ++ ", " ++
      (if contractFieldIsRequired f.2 then "required" else "optional") ++ ")"
  let suffix := if contract.allowExtra then " plus extra fields" else ""
  if entries = [] then
    if contract.allowExtra then "no fields (any object accepted)" else "no fields (empty input)"
  else if maxDeclaredFieldsInError < entries.length then
    ", ".intercalate (entries.take maxDeclaredFieldsInError) ++ ", ... (" ++
      toString entries.length ++ " total; first " ++ toString maxDeclaredFieldsInError ++
      " shown)" ++ suffix
  else ", ".intercalate entries ++ suffix

def jsonContract (names : List String) (h : names.Nodup) : ContractSchema where
  fields :=
    { entries := names.map fun name => (name, { type := .json })
      nodup := by simpa [Function.comp_def] using h }
  keyed := by simp
  textual := by simp

/-- `BUILTIN_CONTRACTS`. -/
def builtinContracts : Dict String ContractSchema := Dict.ofList
  [("cruxible.EmptyInput", jsonContract [] (by decide)),
    ("cruxible.JsonObject", { jsonContract [] (by decide) with allowExtra := true }),
    ("cruxible.JsonItems", jsonContract ["items"] (by decide)),
    ("cruxible.ParsedTabularBundle",
      jsonContract ["artifact", "tables", "files", "diagnostics"] (by decide))]

section Validation

variable (c : ContractContext)

/-- `resolve_contract`. -/
def resolveContract : ContractReference → Option ContractSchema
  | .inline contract => some contract
  | .named name => (c.contracts.get? name).or (builtinContracts.get? name)

/-- `contract_reference_label`. -/
def contractReferenceLabel : ContractReference → String
  | .inline _ => "<inline>"
  | .named name => name

def fieldError : NormalizeError → FieldError
  | .valueError m => .valueError m
  | .overflowError m => .overflowError m
  | .attributeError m => .attributeError m

/-- The nested schema of a json field is asked about every value but null. -/
def validateNested (fieldName : String) (schema : PropertySchema) (v : Value) :
    Except FieldError Unit :=
  match schema.jsonSchema with
  | some es =>
      if schema.type = .json ∧ v ≠ .null then
        validateRuntimeNode c.rt.str c.config.enums (.object es) v fieldName
      else .ok ()
  | none => .ok ()

/-- `_normalize_contract_field`. -/
def normalizeContractField (fieldName : String) (value : Value) (schema : PropertySchema) :
    Except FieldError Value := do
  let normalized ← (normalizeValue c.rt value schema c.config).mapError fieldError
  validateNested c fieldName schema normalized
  .ok normalized

structure Progress where
  requiredMissing : List String := []
  errors : List String := []
  normalized : Properties := ∅

/-- A field error is collected when it is a `ValueError`, and escapes otherwise. -/
def record (p : Progress) (fieldName subject : String) :
    Except FieldError Value → Except ContractError Progress
  | .ok v => .ok { p with normalized := p.normalized.set fieldName v }
  | .error (.valueError m) => .ok { p with errors := p.errors ++ [subject ++ ": " ++ m] }
  | .error (.overflowError m) => .error (.overflowError m)
  | .error (.attributeError m) => .error (.attributeError m)
  | .error (.typeError m) => .error (.typeError m)

/-- One turn of the loop over the fields: the default stands in for an absent value. -/
def validateField (payload : Properties) (p : Progress) (field : String × PropertySchema) :
    Except ContractError Progress :=
  let (fieldName, schema) := field
  match payload.get? fieldName with
  | none =>
      match schema.default with
      | some d =>
          record p fieldName ("field '" ++ fieldName ++ "' default")
            (normalizeContractField c fieldName d schema)
      | none =>
          if schema.optional then .ok p
          else .ok { p with requiredMissing := p.requiredMissing ++ [fieldName] }
  | some v =>
      record p fieldName ("field '" ++ fieldName ++ "'")
        (normalizeContractField c fieldName v schema)

/-- `PropertySchema(type="json", optional=True)`. -/
def extraSchema : PropertySchema where
  type := .json
  optional := true

/-- The payload without the metadata that a step leaves beside its items. -/
def validationPayload (contract : ContractSchema) (payload : Properties) (strip : Bool) :
    Properties :=
  if strip ∧ payload.contains sourceMetadataKey ∧ !contract.fields.contains sourceMetadataKey then
    payload.erase sourceMetadataKey
  else payload

/-- The names that the contract does not declare. -/
def extraNames (contract : ContractSchema) (payload : Properties) : List String :=
  (payload.keys.filter fun k => !contract.fields.contains k).mergeSort

/-- The fields that are validated: those of the contract, and any extra ones it allows. -/
def validatedFields (contract : ContractSchema) (payload : Properties) :
    List (String × PropertySchema) :=
  contract.fields.entries ++
    if contract.allowExtra then (extraNames contract payload).map fun k => (k, extraSchema) else []

/-- The end of the validation, when nothing has escaped. -/
def conclude (contract : ContractSchema) (contractName subject : String)
    (payload : Properties) (emptyPayloadHint : Option String) (p : Progress) :
    Except ContractError Properties :=
  let extra := if contract.allowExtra then [] else extraNames contract payload
  let errors := p.errors ++ extra.map (fun k => "unexpected field '" ++ k ++ "'")
  let declares := "; contract '" ++ contractName ++ "' declares: " ++ declaredFields contract
  let failed := subject ++ " failed contract '" ++ contractName ++ "': "
  if payload.entries = [] ∧ p.requiredMissing ≠ [] then
    .error (.rejected (failed ++ "empty input payload provided; required fields: " ++
      ", ".intercalate (p.requiredMissing.map fun k => "'" ++ k ++ "'") ++ declares ++
      (match emptyPayloadHint with
        | some hint => if hint = "" then "" else ". " ++ hint
        | none => "")))
  else
    let errors := errors ++ p.requiredMissing.map fun k => "missing required field '" ++ k ++ "'"
    if errors = [] then .ok p.normalized
    else
      .error (.rejected (failed ++ "; ".intercalate errors ++
        if extra = [] ∧ p.requiredMissing = [] then "" else declares))

/-- `validate_contract_payload`; the extra fields take the turns of a loop of their own,
which come after those of the declared ones. -/
def validateContractPayload (ref : ContractReference) (payload : Properties) (subject : String)
    (emptyPayloadHint : Option String) (strip : Bool) : Except ContractError Properties :=
  match resolveContract c ref with
  | none => .error (.config
      ("Contract '" ++ contractReferenceLabel ref ++ "' not found for " ++ subject))
  | some contract => do
      let payload := validationPayload contract payload strip
      let p ← (validatedFields contract payload).foldlM (validateField c payload) {}
      conclude contract (contractReferenceLabel ref) subject payload emptyPayloadHint p

end Validation

section Outcomes

variable {c : ContractContext}

/-- What a field is asked to normalize: the value of the payload, or its default. -/
def given (payload : Properties) (field : String × PropertySchema) : Option Value :=
  (payload.get? field.1).or field.2.default

def outcome (c : ContractContext) (payload : Properties) (field : String × PropertySchema) :
    Option (Except FieldError Value) :=
  (given payload field).map fun v => normalizeContractField c field.1 v field.2

/-- The entry that a field leaves. -/
def entryOf (c : ContractContext) (payload : Properties) (field : String × PropertySchema) :
    Option (String × Value) :=
  match outcome c payload field with
  | some (.ok v) => some (field.1, v)
  | _ => none

def isMissing (c : ContractContext) (payload : Properties) (field : String × PropertySchema) :
    Bool :=
  (outcome c payload field).isNone && !field.2.optional

/-- A field that was refused. -/
def isRefused (c : ContractContext) (payload : Properties) (field : String × PropertySchema) :
    Bool :=
  match outcome c payload field with
  | some (.error _) => true
  | _ => false

/-- A field whose outcome the validation collects. -/
def Settled (c : ContractContext) (payload : Properties) (field : String × PropertySchema) : Prop :=
  ∀ result, outcome c payload field = some result → Collected result

variable {field : String × PropertySchema}

theorem validateField_eq (payload : Properties) (p : Progress) (field : String × PropertySchema) :
    ∃ subject, validateField c payload p field = (outcome c payload field).elim
      (if field.2.optional then .ok p
        else .ok { p with requiredMissing := p.requiredMissing ++ [field.1] })
      (record p field.1 subject) := by
  obtain ⟨name, schema⟩ := field
  unfold validateField outcome given
  dsimp only
  cases payload.get? name with
  | some v => exact ⟨_, rfl⟩
  | none =>
    cases schema.default with
    | some d => exact ⟨_, rfl⟩
    | none => exact ⟨"", rfl⟩

theorem validateField_settled {payload : Properties} (h : Settled c payload field) (p : Progress) :
    ∃ texts : List String,
      (texts = [] ↔ isRefused c payload field = false) ∧
      validateField c payload p field = .ok
        { requiredMissing := p.requiredMissing ++
            (if isMissing c payload field then [field.1] else [])
          errors := p.errors ++ texts
          normalized := (entryOf c payload field).toList.foldl (fun d b => d.set b.1 b.2)
            p.normalized } := by
  obtain ⟨subject, heq⟩ := validateField_eq payload p field
  rw [heq]
  unfold isRefused isMissing entryOf
  cases houtcome : outcome c payload field with
  | none =>
    refine ⟨[], by simp, ?_⟩
    cases hoptional : field.2.optional with
    | true => simp
    | false => simp
  | some result =>
    have hcollected := h _ houtcome
    cases result with
    | ok w => exact ⟨[], by simp, by simp [record]⟩
    | error e =>
      cases e with
      | valueError m => exact ⟨[subject ++ ": " ++ m], by simp, by simp [record]⟩
      | overflowError m | attributeError m | typeError m => cases hcollected

/-- An error that leaves the validation undocumented. -/
def ContractError.Escapes : ContractError → Prop
  | .config _ => False
  | .rejected _ => False
  | _ => True

theorem validateField_escapes {payload : Properties} (h : ¬Settled c payload field) (p : Progress) :
    ∃ e, validateField c payload p field = .error e ∧ e.Escapes := by
  obtain ⟨subject, heq⟩ := validateField_eq payload p field
  rw [heq]
  unfold Settled at h
  push Not at h
  obtain ⟨result, houtcome, hescapes⟩ := h
  rw [houtcome, Option.elim_some]
  cases result with
  | ok w => exact absurd trivial hescapes
  | error e =>
    cases e with
    | valueError m => exact absurd trivial hescapes
    | overflowError m | attributeError m | typeError m => exact ⟨_, rfl, trivial⟩

variable {fields : List (String × PropertySchema)}

theorem validateFields_settled {payload : Properties} (h : ∀ f ∈ fields, Settled c payload f)
    (p : Progress) : ∃ texts : List String,
      (texts = [] ↔ ∀ f ∈ fields, isRefused c payload f = false) ∧
      fields.foldlM (validateField c payload) p = .ok
        { requiredMissing := p.requiredMissing ++
            (fields.filter (isMissing c payload)).map Prod.fst
          errors := p.errors ++ texts
          normalized := (fields.filterMap (entryOf c payload)).foldl (fun d b => d.set b.1 b.2)
            p.normalized } := by
  induction fields generalizing p with
  | nil => exact ⟨[], by simp, by simp [pure, Except.pure]⟩
  | cons f fields ih =>
    obtain ⟨texts, htexts, hturn⟩ := validateField_settled (h f List.mem_cons_self) p
    obtain ⟨rest, hrest, hloop⟩ := ih (fun g hg => h g (List.mem_cons_of_mem _ hg))
      { requiredMissing := p.requiredMissing ++ (if isMissing c payload f then [f.1] else [])
        errors := p.errors ++ texts
        normalized := (entryOf c payload f).toList.foldl (fun d b => d.set b.1 b.2)
          p.normalized }
    refine ⟨texts ++ rest, by simp [htexts, hrest], ?_⟩
    rw [List.foldlM_cons, hturn]
    refine hloop.trans ?_
    congr 2
    · cases hmissing : isMissing c payload f <;> simp [hmissing]
    · simp
    · cases hentry : entryOf c payload f <;> simp [hentry]

theorem validateFields_escapes {payload : Properties} (h : ∃ f ∈ fields, ¬Settled c payload f)
    (p : Progress) : ∃ e, fields.foldlM (validateField c payload) p = .error e ∧ e.Escapes := by
  induction fields generalizing p with
  | nil =>
    obtain ⟨f, hf, _⟩ := h
    cases hf
  | cons f fields ih =>
    rw [List.foldlM_cons]
    by_cases hsettled : Settled c payload f
    · obtain ⟨g, hg, hunsettled⟩ := h
      have hrest : ∃ g ∈ fields, ¬Settled c payload g := by
        rcases List.mem_cons.mp hg with rfl | hg
        · exact absurd hsettled hunsettled
        · exact ⟨g, hg, hunsettled⟩
      obtain ⟨_, _, hturn⟩ := validateField_settled hsettled p
      rw [hturn]
      exact ih hrest _
    · obtain ⟨e, he, hescapes⟩ := validateField_escapes hsettled p
      rw [he]
      exact ⟨e, rfl, hescapes⟩

/-- A field of an accepted payload. -/
def Accepted (c : ContractContext) (payload : Properties) (field : String × PropertySchema) :
    Prop :=
  match outcome c payload field with
  | some result => ∃ v, result = .ok v
  | none => field.2.optional = true

theorem accepted_iff {payload : Properties} :
    Accepted c payload field ↔ Settled c payload field ∧ isRefused c payload field = false ∧
      isMissing c payload field = false := by
  unfold Accepted Settled isRefused isMissing
  cases outcome c payload field with
  | none => simp
  | some result =>
    cases result with
    | ok v => simp [Collected]
    | error e => simp

variable {contractName : String} {n : Properties} {p : Progress}

theorem conclude_eq_ok {contract : ContractSchema} {subject : String} {payload : Properties}
    {hint : Option String} :
    conclude contract contractName subject payload hint p = .ok n ↔
      p.requiredMissing = [] ∧ p.errors = [] ∧
      (contract.allowExtra = true ∨ extraNames contract payload = []) ∧ n = p.normalized := by
  unfold conclude
  dsimp only
  by_cases hmissing : p.requiredMissing = []
  · rw [if_neg (by simp [hmissing])]
    cases hallow : contract.allowExtra with
    | true =>
      by_cases herrors : p.errors = []
      · simpa [hmissing, herrors] using eq_comm
      · simp [hmissing, herrors]
    | false =>
      by_cases herrors : p.errors = []
      · by_cases hextra : extraNames contract payload = []
        · simpa [hmissing, herrors, hextra] using eq_comm
        · simp [hmissing, herrors, hextra]
      · simp [hmissing, herrors]
  · split_ifs <;> simp_all

/-- The conclusion raises nothing of its own. -/
theorem conclude_documented {contract : ContractSchema} {subject : String} {payload : Properties}
    {hint : Option String} {e : ContractError}
    (h : conclude contract contractName subject payload hint p = .error e) : ¬e.Escapes := by
  unfold conclude at h
  dsimp only at h
  split_ifs at h <;> cases h <;> exact fun hescapes => hescapes

variable {ref : ContractReference} {contract : ContractSchema} {payload : Properties}
  {subject : String} {hint : Option String} {strip : Bool}

theorem validateContractPayload_eq_ok (hresolve : resolveContract c ref = some contract) :
    validateContractPayload c ref payload subject hint strip = .ok n ↔
      (∀ f ∈ validatedFields contract (validationPayload contract payload strip),
        Accepted c (validationPayload contract payload strip) f) ∧
      (contract.allowExtra = true ∨
        extraNames contract (validationPayload contract payload strip) = []) ∧
      n = Dict.ofList ((validatedFields contract
        (validationPayload contract payload strip)).filterMap
          (entryOf c (validationPayload contract payload strip))) := by
  unfold validateContractPayload
  rw [hresolve]
  dsimp only
  generalize validationPayload contract payload strip = payload
  rw [bind_eq_ok]
  constructor
  case mp =>
    rintro ⟨p, hloop, hend⟩
    have hsettled : ∀ f ∈ validatedFields contract payload, Settled c payload f := by
      by_contra hnot
      push Not at hnot
      obtain ⟨e, he, _⟩ := validateFields_escapes hnot {}
      rw [hloop] at he
      cases he
    obtain ⟨texts, htexts, hclosed⟩ := validateFields_settled hsettled {}
    rw [hloop] at hclosed
    obtain rfl := Except.ok.inj hclosed
    obtain ⟨hmissing, herrors, hextra, rfl⟩ := conclude_eq_ok.mp hend
    refine ⟨fun f hf => accepted_iff.mpr ⟨hsettled f hf, htexts.mp herrors f hf, ?_⟩, hextra, rfl⟩
    have hnone := List.filter_eq_nil_iff.mp (List.map_eq_nil_iff.mp hmissing) f hf
    exact Bool.not_eq_true _ ▸ hnone
  case mpr =>
    rintro ⟨haccepted, hextra, rfl⟩
    have hall := fun f hf => accepted_iff.mp (haccepted f hf)
    obtain ⟨texts, htexts, hclosed⟩ := validateFields_settled (fun f hf => (hall f hf).1) {}
    refine ⟨_, hclosed, conclude_eq_ok.mpr ⟨?_, ?_, hextra, rfl⟩⟩
    · have hnone : (validatedFields contract payload).filter (isMissing c payload) = [] :=
        List.filter_eq_nil_iff.mpr fun f hf => by simp [(hall f hf).2.2]
      rw [hnone]
      rfl
    · exact htexts.mpr fun f hf => (hall f hf).2.1

theorem validateContractPayload_escapes (hresolve : resolveContract c ref = some contract) :
    (∃ e, validateContractPayload c ref payload subject hint strip = .error e ∧ e.Escapes) ↔
      ∃ f ∈ validatedFields contract (validationPayload contract payload strip),
        ¬Settled c (validationPayload contract payload strip) f := by
  unfold validateContractPayload
  rw [hresolve]
  dsimp only
  generalize validationPayload contract payload strip = payload
  constructor
  case mp =>
    rintro ⟨e, he, hescapes⟩
    by_contra hnot
    push Not at hnot
    obtain ⟨_, _, hclosed⟩ := validateFields_settled hnot {}
    rw [hclosed] at he
    exact conclude_documented he hescapes
  case mpr =>
    intro h
    obtain ⟨e, he, hescapes⟩ := validateFields_escapes h {}
    rw [he]
    exact ⟨e, rfl, hescapes⟩

theorem mem_extraNames {k : String} :
    k ∈ extraNames contract payload ↔ k ∈ payload.keys ∧ k ∉ contract.fields.keys := by
  unfold extraNames
  rw [List.mem_mergeSort, List.mem_filter, Bool.not_eq_true', ← Bool.not_eq_true,
    Dict.contains_eq_true]

theorem nodup_validatedFields (contract : ContractSchema) (payload : Properties) :
    ((validatedFields contract payload).map Prod.fst).Nodup := by
  unfold validatedFields
  rw [List.map_append]
  by_cases hallow : contract.allowExtra = true
  · have hextra : (((extraNames contract payload).map fun k => (k, extraSchema)).map
        Prod.fst) = extraNames contract payload := by
      simp [Function.comp_def]
    rw [if_pos hallow, hextra, List.nodup_append]
    refine ⟨contract.fields.nodup, ?_, ?_⟩
    · exact (List.mergeSort_perm _ _).nodup_iff.mpr (payload.nodup.filter _)
    · intro k hk k' hk' heq
      exact (mem_extraNames.mp hk').2 (heq ▸ hk)
  · rw [if_neg hallow]
    simpa using contract.fields.nodup

theorem entryOf_eq_some {b : String × Value} :
    entryOf c payload field = some b ↔
      b.1 = field.1 ∧ outcome c payload field = some (.ok b.2) := by
  obtain ⟨k, v⟩ := b
  unfold entryOf
  cases outcome c payload field with
  | none => simp
  | some result =>
    cases result with
    | ok w => simp [eq_comm]
    | error e => simp

section Normalized

variable {fields : List (String × PropertySchema)} (hn : (fields.map Prod.fst).Nodup)

include hn

theorem nodup_entries : ((fields.filterMap (entryOf c payload)).map Prod.fst).Nodup := by
  refine List.Sublist.nodup ?_ hn
  clear hn
  induction fields with
  | nil => exact List.Sublist.refl _
  | cons f fields ih =>
    cases hf : entryOf c payload f with
    | none => simpa [hf] using ih.cons f.1
    | some b =>
      have hb := (entryOf_eq_some.mp hf).1
      simpa [hf, hb] using ih.cons_cons f.1

theorem get?_normalized {field : String × PropertySchema} (hf : field ∈ fields) :
    (Dict.ofList (fields.filterMap (entryOf c payload))).get? field.1 =
      (entryOf c payload field).map Prod.snd := by
  have hentries := @nodup_entries c payload fields hn
  rw [Dict.get?_ofList hentries]
  cases hentry : entryOf c payload field with
  | some b =>
    have hb := (entryOf_eq_some.mp hentry).1
    have hmem : (field.1, b.2) ∈ fields.filterMap (entryOf c payload) :=
      List.mem_filterMap.mpr ⟨field, hf, by rw [hentry, ← hb]⟩
    exact Bindings.get?_of_mem hentries hmem
  | none =>
    rw [Option.map_none, Bindings.get?_eq_none]
    intro hmem
    obtain ⟨b, hb, heq⟩ := List.mem_map.mp hmem
    obtain ⟨g, hg, hgb⟩ := List.mem_filterMap.mp hb
    have hname : g.1 = field.1 := by rw [← (entryOf_eq_some.mp hgb).1, heq]
    rw [List.inj_on_of_nodup_map hn hg hf hname, hentry] at hgb
    cases hgb

end Normalized

end Outcomes

end Cruxible.Contracts
