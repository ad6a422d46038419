import Cruxible.ContractEscapes

/-!
# Worked examples of contracts

The payload that `contract_input_example` builds for the callers of a contract. It holds the
fields that a caller must supply, each from its vocabulary, its description or its type, and is
built beside the validation rather than through it.
-/
namespace Cruxible.Contracts
open JsonValue PythonDict Fallible PropertyValidation JsonSchemas
open AssertionState (Properties)
open Timestamps (newYear ensureUtc)
open Value

def backtick : Char := Char.ofNat 0x60

def quotes : List Char := [Char.ofNat 0x22, Char.ofNat 0x27, backtick]

/-- What ends the token after an abbreviation. -/
def isDelimiter (c : Char) : Bool := c ∈ quotes || c ∈ [',', '.', ';', '\n']

/-- The longest hint. -/
def hintLimit : Nat := 64

/-- `_DESCRIPTION_BACKTICK_HINT`, searched for from the left. -/
def backtickHint : List Char → Option (List Char)
  | [] => none
  | c :: cs =>
      let run := cs.takeWhile fun x => x ≠ backtick ∧ x ≠ '\n'
      if c = backtick ∧ run ≠ [] ∧ run.length ≤ hintLimit ∧
          (cs.drop run.length).head? = some backtick then some run
      else backtickHint cs

/-- The token after the abbreviation. Where no token follows the spaces, the last of them that
is not a line break is the token. -/
def abbreviationToken (cs : List Char) : Option (List Char) :=
  let spaces := cs.takeWhile Graph.isSpace
  let rest := cs.drop spaces.length
  let unquoted := if rest.head?.any (· ∈ quotes) then rest.tail else rest
  let token := (unquoted.takeWhile fun c => !isDelimiter c).take hintLimit
  if token ≠ [] then some token
  else (spaces.filter (· ≠ '\n')).getLast?.map fun c => [c]

/-- `_DESCRIPTION_EG_HINT`, searched for from the left. -/
def egHint : List Char → Option (List Char)
  | [] => none
  | c :: cs =>
      let rest := egHint cs
      match c :: cs with
      | e :: '.' :: g :: '.' :: after =>
          if e ∈ ['e', 'E'] ∧ g ∈ ['g', 'G'] then (abbreviationToken after).or rest else rest
      | _ => rest

/-- `_description_example`. -/
def descriptionExample (description : Option String) : Option String :=
  match description with
  | none => none
  | some text =>
      [backtickHint text.toList, egHint text.toList].findSome? fun found =>
        found.bind fun token =>
          let candidate := Graph.strip (String.ofList token)
          if candidate = "" then none else some candidate

/-- `_EXAMPLE_BY_TYPE`. -/
def exampleByType : PropertyType → Option Value
  | .int => some (.int 1)
  | .integer => some (.int 1)
  | .float => some (.float (.finite 1))
  | .number => some (.float (.finite 1))
  | .bool => some (.bool true)
  | .date => some (.str "2026-01-01")
  | .datetime => some (.str "2026-01-01T00:00:00Z")
  | .string => none
  | .json => none

/-- The vocabulary that an example is taken from. -/
def declaredFieldValues (config : CoreConfig) (schema : PropertySchema) : Option (List Value) :=
  declaredEnumValues config.enums (schema.enum.map .array) (schema.enumRef.map .str)

/-- What stands for a field that only its type describes. -/
def placeholder (fieldName : String) (schema : PropertySchema) : Value :=
  let named := Value.str ("<" ++ fieldName ++ ">")
  if schema.type = .string then ((descriptionExample schema.description).map .str).getD named
  else (exampleByType schema.type).getD named

/-- `_example_field_value`. -/
def exampleFieldValue (config : CoreConfig) (fieldName : String) (schema : PropertySchema) :
    Except FieldError Value :=
  match (declaredFieldValues config schema).bind List.head? with
  | some v => .ok v
  | none =>
      match schema.default with
      | some d => .ok d
      | none =>
          if schema.type = .json then
            jsonSchemaExample config.enums ((schema.jsonSchema.map .object).getD .null)
          else .ok (placeholder fieldName schema)

/-- `contract_input_example`. -/
def contractInputExample (config : CoreConfig) (contract : ContractSchema) :
    Except FieldError (Option Properties) :=
  if contract.fields.entries = [] ∧ contract.allowExtra = false then .ok none
  else do
    let entries ← ((sortedFields contract).filter fun f => contractFieldIsRequired f.2).mapM
      fun f => (exampleFieldValue config f.1 f.2).map fun v => (f.1, v)
    .ok (some (Dict.ofList entries))

/-- The value is of the type, or converts to it. -/
def conforms (rt : TextRuntime) : PropertyType → Value → Bool
  | .string, .str _ => true
  | .int, .int _ => true
  | .integer, .int _ => true
  | .float, .float _ => true
  | .float, .int n => (floatOfInt n).isSome
  | .number, .float _ => true
  | .number, .int n => (floatOfInt n).isSome
  | .bool, .bool _ => true
  | .date, .str s => rt.dateFromIsoformat s
  | .datetime, .str s =>
      (rt.datetimeFromIsoformat (replaceZulu s)).any fun d => (ensureUtc d).isSome
  | .json, v => v.finite
  | _, _ => false

/-- The value is one of the nested schema. -/
def nestedAccepts (config : CoreConfig) (schema : PropertySchema) (v : Value) : Bool :=
  schema.type ≠ .json || schema.jsonSchema.all fun es => accepts config.enums (.object es) v

/-- The values of a field. -/
def suits (c : ContractContext) (schema : PropertySchema) (v : Value) : Bool :=
  if v = .null then schema.optional
  else vocabularyAdmits c.config schema v && conforms c.rt schema.type v &&
    nestedAccepts c.config schema v

section Suits

variable {c : ContractContext} {schema : PropertySchema} {v : Value} {name : String}

theorem normalizeTyped_isOk {rt : TextRuntime} {type : PropertyType} (hnull : v ≠ .null) :
    (∃ w, normalizeTyped rt v type = .ok w) ↔ conforms rt type v = true := by
  cases type with
  | string | int | integer | bool => cases v <;> simp [normalizeTyped, conforms]
  | date =>
    cases v with
    | str s =>
      simp only [normalizeTyped, conforms]
      split_ifs with hdate <;> simp [hdate]
    | null | bool b | int n | float f | array xs | object es => simp [normalizeTyped, conforms]
  | json =>
    simp only [normalizeTyped, conforms]
    split_ifs with hfinite <;> simp [hfinite]
  | float | number =>
    cases v with
    | int n =>
      simp only [normalizeTyped, conforms]
      cases floatOfInt n <;> simp
    | null | bool b | str s | float f | array xs | object es => simp [normalizeTyped, conforms]
  | datetime =>
    cases v with
    | null => exact absurd rfl hnull
    | bool b | int n | float f | array xs | object es =>
      simp [normalizeTyped, parseDatetime, conforms]
    | str s =>
      simp only [normalizeTyped, parseDatetime, conforms]
      cases rt.datetimeFromIsoformat (replaceZulu s) with
      | none => simp
      | some d =>
        dsimp only
        cases hutc : ensureUtc d <;> simp [hutc]

theorem validateNested_eq_ok {w : Value} (hnull : w ≠ .null) :
    validateNested c name schema w = .ok () ↔ nestedAccepts c.config schema w = true := by
  unfold validateNested nestedAccepts
  cases schema.jsonSchema with
  | none => simp
  | some es =>
    by_cases htype : schema.type = .json
    · simp [htype, hnull, validateRuntimeNode_eq_ok]
    · simp [htype]

theorem normalizeContractField_isOk :
    (∃ w, normalizeContractField c name v schema = .ok w) ↔ suits c schema v = true := by
  simp only [normalizeContractField_eq_ok]
  unfold suits
  by_cases hnull : v = .null
  · subst hnull
    rw [if_pos rfl]
    unfold normalizeValue validateNested
    rw [if_pos rfl]
    cases schema.optional with
    | true => cases schema.jsonSchema <;> simp
    | false => simp
  · rw [if_neg hnull]
    rcases @normalizeValue_of_ne_null c.rt c.config schema v hnull with
      ⟨hin, heq⟩ | ⟨hout, m, heq⟩
    · have htyped := @normalizeTyped_isOk v c.rt schema.type hnull
      rw [heq, hin, Bool.true_and, Bool.and_eq_true, ← htyped]
      have hnested : ∀ w, normalizeTyped c.rt v schema.type = .ok w →
          (validateNested c name schema w = .ok () ↔ nestedAccepts c.config schema v = true) := by
        intro w hw
        by_cases htype : schema.type = .json
        · have hsame : w = v := by
            rw [htype] at hw
            simp only [normalizeTyped] at hw
            split_ifs at hw
            exact (Except.ok.inj hw).symm
          rw [hsame, validateNested_eq_ok hnull]
        · have hne := (normalizeTyped_respelling hw).2 hnull
          rw [validateNested_eq_ok hne]
          simp [nestedAccepts, htype]
      constructor
      · rintro ⟨w, hw, hvalid⟩
        exact ⟨⟨w, hw⟩, (hnested w hw).mp hvalid⟩
      · rintro ⟨⟨w, hw⟩, haccepts⟩
        exact ⟨w, hw, (hnested w hw).mpr haccepts⟩
    · rw [heq, hout]
      simp

end Suits

/-- What the example needs of one field: its default suits it; or it is optional; or the first
value of its vocabulary suits it; or there is no vocabulary, and either the nested schema
demonstrates a value that is not null, or no blank reference hides a vocabulary. -/
def exampleSuits (c : ContractContext) (field : String × PropertySchema) : Bool :=
  match field.2.default with
  | some d => suits c field.2 d
  | none => field.2.optional ||
      match (declaredFieldValues c.config field.2).bind List.head? with
      | some v => suits c field.2 v
      | none =>
          if field.2.type = .json then
            field.2.jsonSchema.all fun es => demonstrates c.config.enums (.object es) &&
              !exampleIsNull c.config.enums (.object es)
          else vocabularyAdmits c.config field.2 (placeholder field.1 field.2)

section Examples

variable {c : ContractContext} {contract : ContractSchema} {schema : PropertySchema}
  {name : String}

/-- What the parsers make of the placeholders. -/
structure ReadsPlaceholders (rt : TextRuntime) : Prop where
  date : rt.dateFromIsoformat "2026-01-01" = true
  datetime : ∃ d m, rt.datetimeFromIsoformat "2026-01-01T00:00:00+00:00" = some d ∧
    ensureUtc d = some m

theorem suits_placeholder (hreads : ReadsPlaceholders c.rt) (htype : schema.type ≠ .json) :
    suits c schema (placeholder name schema) =
      vocabularyAdmits c.config schema (placeholder name schema) := by
  have hconforms : placeholder name schema ≠ .null ∧
      conforms c.rt schema.type (placeholder name schema) = true := by
    unfold placeholder
    cases htypes : schema.type with
    | json => exact absurd htypes htype
    | string => cases descriptionExample schema.description <;> exact ⟨by simp, rfl⟩
    | date =>
      refine ⟨by simp [exampleByType], ?_⟩
      exact hreads.date
    | datetime =>
      refine ⟨by simp [exampleByType], ?_⟩
      obtain ⟨d, m, hd, hm⟩ := hreads.datetime
      have hzulu : replaceZulu "2026-01-01T00:00:00Z" = "2026-01-01T00:00:00+00:00" := by decide
      simp [exampleByType, conforms, hzulu, hd, hm]
    | int | integer | float | number | bool => exact ⟨by simp [exampleByType], rfl⟩
  unfold suits nestedAccepts
  simp [hconforms, htype]

theorem enum_eq_none (hdeclared : (declaredFieldValues c.config schema).bind List.head? = none)
    {v : Value} (hv : vocabularyAdmits c.config schema v = true) : schema.enum = none := by
  unfold declaredFieldValues declaredEnumValues at hdeclared
  unfold vocabularyAdmits enumValues at hv
  cases henum : schema.enum with
  | none => rfl
  | some vs =>
    rw [henum] at hdeclared hv
    cases vs with
    | nil => cases hv
    | cons w ws => cases hdeclared

theorem exampleFieldValue_json (htype : schema.type = .json)
    (hkeyed : ∀ es, schema.jsonSchema = some es → Value.keyed (.object es) = true)
    (hadmits : ∀ v, vocabularyAdmits c.config schema v = true) (hrequired : schema.optional = false) :
    (∃ v, jsonSchemaExample c.config.enums ((schema.jsonSchema.map .object).getD .null) = .ok v ∧
        suits c schema v = true) ↔
      schema.jsonSchema.all (fun es => demonstrates c.config.enums (.object es) &&
        !exampleIsNull c.config.enums (.object es)) = true := by
  have hsuits : ∀ v, suits c schema v = true ↔ v ≠ .null ∧ v.finite = true ∧
      nestedAccepts c.config schema v = true := by
    intro v
    unfold suits
    by_cases hnull : v = .null
    · simp [hnull, hrequired]
    · simp [hnull, hadmits, htype, conforms]
  simp only [hsuits]
  unfold nestedAccepts
  cases hschema : schema.jsonSchema with
  | none => simp [jsonSchemaExample, finite, finiteEntries]
  | some es =>
    have hdemonstrates := @demonstrates_iff c.config.enums (.object es) (hkeyed es hschema)
    have hnull := @exampleIsNull_iff c.config.enums (.object es)
    simp only [Option.map_some, Option.getD_some, Option.all_some, Bool.and_eq_true,
      Bool.not_eq_true', ← Bool.not_eq_true, hnull, hdemonstrates]
    unfold Demonstrated
    simp only [htype, ne_eq, not_true_eq_false, decide_false, Bool.false_or]
    constructor
    · rintro ⟨v, hv, hne, hfinite, haccepts⟩
      refine ⟨⟨v, hv, hfinite, haccepts⟩, ?_⟩
      rw [hv, Except.ok.injEq]
      exact hne
    · rintro ⟨⟨v, hv, hfinite, haccepts⟩, hne⟩
      rw [hv, Except.ok.injEq] at hne
      exact ⟨v, hv, hne, hfinite, haccepts⟩

variable {f : String × PropertySchema} {x : Option Properties}

theorem exampleFieldValue_suits (hf : f ∈ contract.fields.entries) (hreads : ReadsPlaceholders c.rt)
    (hrequired : contractFieldIsRequired f.2 = true) {u : Value} (hu : suits c f.2 u = true) :
    (∃ v, exampleFieldValue c.config f.1 f.2 = .ok v ∧ suits c f.2 v = true) ↔
      exampleSuits c f = true := by
  unfold contractFieldIsRequired at hrequired
  rw [Bool.and_eq_true, Bool.not_eq_true', Option.isNone_iff_eq_none] at hrequired
  obtain ⟨hoptional, hdefault⟩ := hrequired
  unfold exampleFieldValue exampleSuits
  rw [hdefault, hoptional]
  cases hdeclared : (declaredFieldValues c.config f.2).bind List.head? with
  | some v => simp
  | none =>
    dsimp only
    by_cases htype : f.2.type = .json
    · rw [if_pos htype, if_pos htype]
      have hadmits : ∀ v, vocabularyAdmits c.config f.2 v = true := by
        have hu' : vocabularyAdmits c.config f.2 u = true := by
          unfold suits at hu
          split_ifs at hu
          · rw [hoptional] at hu
            cases hu
          · rw [Bool.and_eq_true, Bool.and_eq_true] at hu
            exact hu.1.1
        have href : f.2.enumRef = none := by
          by_contra hsome
          have htext := contract.textual f.1 f.2 hf (Option.isSome_iff_ne_none.mpr hsome)
          rw [htype] at htext
          cases htext
        intro v
        unfold vocabularyAdmits enumValues
        rw [enum_eq_none hdeclared hu', href]
      rw [exampleFieldValue_json htype (contract.keyed f.1 f.2 hf) hadmits hoptional]
      simp
    · rw [if_neg htype, if_neg htype]
      have hplaceholder := @suits_placeholder c f.2 f.1 hreads htype
      simp [hplaceholder]

variable {config : CoreConfig}

/-- The fields that an example holds. -/
def requiredFields (contract : ContractSchema) : List (String × PropertySchema) :=
  (sortedFields contract).filter fun f => contractFieldIsRequired f.2

theorem mem_requiredFields :
    f ∈ requiredFields contract ↔
      f ∈ contract.fields.entries ∧ contractFieldIsRequired f.2 = true := by
  unfold requiredFields sortedFields
  rw [List.mem_filter, List.mem_mergeSort]

theorem nodup_requiredFields : ((requiredFields contract).map Prod.fst).Nodup := by
  have hsorted : ((sortedFields contract).map Prod.fst).Nodup :=
    ((List.mergeSort_perm _ _).map Prod.fst).nodup_iff.mpr contract.fields.nodup
  exact hsorted.sublist (List.filter_sublist.map Prod.fst)

theorem get?_mapM_pairs {σ ε α : Type} {g : String → σ → Except ε α} {fields : List (String × σ)}
    {entries : List (String × α)}
    (h : fields.mapM (fun f => (g f.1 f.2).map fun v => (f.1, v)) = .ok entries) (name : String) :
    Bindings.get? entries name =
      (Bindings.get? fields name).bind fun s => (g name s).toOption := by
  induction fields generalizing entries with
  | nil =>
    rw [mapM_nil_eq_ok.mp h]
    rfl
  | cons f fields ih =>
    obtain ⟨b, bs, hb, hbs, rfl⟩ := mapM_cons_eq_ok.mp h
    obtain ⟨v, hv, rfl⟩ := map_eq_ok.mp hb
    by_cases hname : f.1 = name
    · simp [Bindings.get?, ← hname, hv, Except.toOption]
    · simp [Bindings.get?, hname, ih hbs]

theorem get?_contractInputExample (h : contractInputExample config contract = .ok x) (name : String) :
    (x.getD ∅).get? name = (Bindings.get? (requiredFields contract) name).bind fun schema =>
      (exampleFieldValue config name schema).toOption := by
  unfold contractInputExample at h
  split_ifs at h with hempty
  · obtain rfl := Except.ok.inj h
    have hnone : requiredFields contract = [] := by
      rw [List.eq_nil_iff_forall_not_mem]
      intro f hf
      rw [mem_requiredFields, hempty.1] at hf
      cases hf.1
    rw [hnone]
    rfl
  · obtain ⟨entries, hentries, hx⟩ := bind_eq_ok.mp h
    obtain rfl := Except.ok.inj hx
    change (requiredFields contract).mapM _ = _ at hentries
    have hnames : entries.map Prod.fst = (requiredFields contract).map Prod.fst := by
      refine mapM_map_congr hentries ?_
      intro f _ b hb
      obtain ⟨v, _, rfl⟩ := map_eq_ok.mp hb
      rfl
    rw [Option.getD_some, Dict.get?_ofList (hnames ▸ nodup_requiredFields)]
    exact get?_mapM_pairs hentries name

theorem get?_required (h : contractInputExample config contract = .ok x)
    (hf : f ∈ requiredFields contract) :
    ∃ v, exampleFieldValue config f.1 f.2 = .ok v ∧ (x.getD ∅).get? f.1 = some v := by
  have hget : Bindings.get? (requiredFields contract) f.1 = some f.2 :=
    Bindings.get?_of_mem nodup_requiredFields hf
  have hvalue : ∃ v, exampleFieldValue config f.1 f.2 = .ok v := by
    unfold contractInputExample at h
    split_ifs at h with hempty
    · rw [mem_requiredFields, hempty.1] at hf
      cases hf.1
    · obtain ⟨entries, hentries, _⟩ := bind_eq_ok.mp h
      obtain ⟨b, _, hb⟩ := mapM_ok_each hentries f hf
      obtain ⟨v, hv, _⟩ := map_eq_ok.mp hb
      exact ⟨v, hv⟩
  obtain ⟨v, hv⟩ := hvalue
  refine ⟨v, hv, ?_⟩
  rw [get?_contractInputExample h, hget, Option.bind_some, hv]
  rfl

theorem get?_not_required (h : contractInputExample config contract = .ok x)
    (hname : name ∉ (requiredFields contract).map Prod.fst) : (x.getD ∅).get? name = none := by
  rw [get?_contractInputExample h, Bindings.get?_eq_none.mpr hname]
  rfl

theorem contractInputExample_isOk
    (h : ∀ f ∈ requiredFields contract, ∃ v, exampleFieldValue config f.1 f.2 = .ok v) :
    ∃ x, contractInputExample config contract = .ok x := by
  unfold contractInputExample
  split_ifs
  · exact ⟨none, rfl⟩
  · obtain ⟨entries, hentries⟩ := @mapM_isOk _ _ _ (fun f : String × PropertySchema =>
      (exampleFieldValue config f.1 f.2).map fun v => (f.1, v)) (requiredFields contract) (by
        intro f hf
        obtain ⟨v, hv⟩ := h f hf
        exact ⟨(f.1, v), map_eq_ok.mpr ⟨v, hv, rfl⟩⟩)
    exact ⟨_, bind_eq_ok.mpr ⟨entries, hentries, rfl⟩⟩

variable {ref : ContractReference} {payload n : Properties} {subject : String}
  {hint : Option String} {strip : Bool}

theorem validate_declared (hresolve : resolveContract c ref = some contract)
    (hdeclared : ∀ k ∈ payload.keys, k ∈ contract.fields.keys) :
    (∃ n, validateContractPayload c ref payload subject hint strip = .ok n) ↔
      ∀ f ∈ contract.fields.entries, Accepted c payload f := by
  have hextra : extraNames contract payload = [] := by
    rw [List.eq_nil_iff_forall_not_mem]
    intro k hk
    obtain ⟨hkeys, hundeclared⟩ := mem_extraNames.mp hk
    exact hundeclared (hdeclared k hkeys)
  have hpayload : validationPayload contract payload strip = payload := by
    unfold validationPayload
    rw [if_neg]
    rintro ⟨_, hin, hundeclared⟩
    rw [Bool.not_eq_true', ← Bool.not_eq_true, Dict.contains_eq_true] at hundeclared
    exact hundeclared (hdeclared _ (Dict.contains_eq_true.mp hin))
  have hfields : validatedFields contract payload = contract.fields.entries := by
    unfold validatedFields
    rw [hextra]
    simp
  simp only [validateContractPayload_eq_ok hresolve, hpayload, hfields, hextra, or_true, true_and]
  exact ⟨fun ⟨_, h, _⟩ => h, fun h => ⟨_, h, rfl⟩⟩

theorem suits_of_accepted (hresolve : resolveContract c ref = some contract)
    (h : validateContractPayload c ref payload subject hint strip = .ok n)
    (hf : f ∈ requiredFields contract) : ∃ u, suits c f.2 u = true := by
  obtain ⟨hfield, hrequired⟩ := mem_requiredFields.mp hf
  obtain ⟨haccepted, -, -⟩ := (validateContractPayload_eq_ok hresolve).mp h
  have haccept := haccepted f (List.mem_append_left _ hfield)
  unfold contractFieldIsRequired at hrequired
  rw [Bool.and_eq_true, Bool.not_eq_true'] at hrequired
  unfold Accepted outcome at haccept
  cases hgiven : given (validationPayload contract payload strip) f with
  | none =>
    rw [hgiven] at haccept
    rw [hrequired.1] at haccept
    cases haccept
  | some u =>
    rw [hgiven] at haccept
    exact ⟨u, normalizeContractField_isOk.mp haccept⟩

theorem accepted_example_iff (hreads : ReadsPlaceholders c.rt)
    (hx : contractInputExample c.config contract = .ok x)
    (hpossible : ∀ f ∈ requiredFields contract, ∃ u, suits c f.2 u = true)
    (hf : f ∈ contract.fields.entries) : Accepted c (x.getD ∅) f ↔ exampleSuits c f = true := by
  by_cases hrequired : contractFieldIsRequired f.2 = true
  · have hmem := mem_requiredFields.mpr ⟨hf, hrequired⟩
    obtain ⟨u, hu⟩ := hpossible f hmem
    obtain ⟨v, hv, hget⟩ := get?_required hx hmem
    rw [← exampleFieldValue_suits hf hreads hrequired hu]
    unfold Accepted outcome given
    rw [hget, Option.some_or, Option.map_some]
    dsimp only
    rw [normalizeContractField_isOk, hv]
    simp
  · have habsent : (x.getD ∅).get? f.1 = none := by
      refine get?_not_required hx ?_
      intro hname
      obtain ⟨g, hg, hgf⟩ := List.mem_map.mp hname
      have hsame := List.inj_on_of_nodup_map contract.fields.nodup
        (mem_requiredFields.mp hg).1 hf hgf
      exact hrequired (hsame ▸ (mem_requiredFields.mp hg).2)
    unfold Accepted outcome given exampleSuits
    rw [habsent, Option.none_or]
    cases hdefault : f.2.default with
    | some d =>
      dsimp only [Option.map_some]
      exact normalizeContractField_isOk
    | none =>
      unfold contractFieldIsRequired at hrequired
      rw [hdefault] at hrequired
      have hoptional : f.2.optional = true := by simpa using hrequired
      simp [hoptional]

/-- The example of a contract that accepts some payload is accepted where it suits the
declared fields. -/
theorem example_accepted_iff (hresolve : resolveContract c ref = some contract)
    (haccepts : ∃ payload subject hint strip n,
      validateContractPayload c ref payload subject hint strip = .ok n)
    (hreads : ReadsPlaceholders c.rt) :
    (∃ x n, contractInputExample c.config contract = .ok x ∧
      validateContractPayload c ref (x.getD ∅) subject hint strip = .ok n) ↔
        ∀ f ∈ contract.fields.entries, exampleSuits c f = true := by
  obtain ⟨payload, subject', hint', strip', n', haccepted⟩ := haccepts
  have hpossible : ∀ f ∈ requiredFields contract, ∃ u, suits c f.2 u = true :=
    fun f hf => suits_of_accepted hresolve haccepted hf
  have hdeclared : ∀ x, contractInputExample c.config contract = .ok x →
      ∀ k ∈ (x.getD ∅).keys, k ∈ contract.fields.keys := by
    intro x hx k hk
    by_contra hundeclared
    have hnone : (x.getD ∅).get? k = none := by
      refine get?_not_required hx ?_
      intro hname
      obtain ⟨g, hg, rfl⟩ := List.mem_map.mp hname
      exact hundeclared (List.mem_map_of_mem (mem_requiredFields.mp hg).1)
    exact Dict.get?_eq_none.mp hnone hk
  constructor
  case mp =>
    rintro ⟨x, n, hx, hn⟩ f hf
    have hall := (validate_declared hresolve (hdeclared x hx)).mp ⟨n, hn⟩
    exact (accepted_example_iff hreads hx hpossible hf).mp (hall f hf)
  case mpr =>
    intro hsuits
    obtain ⟨x, hx⟩ : ∃ x, contractInputExample c.config contract = .ok x := by
      refine contractInputExample_isOk ?_
      intro f hf
      obtain ⟨hfield, hrequired⟩ := mem_requiredFields.mp hf
      obtain ⟨u, hu⟩ := hpossible f hf
      obtain ⟨v, hv, _⟩ := (exampleFieldValue_suits hfield hreads hrequired hu).mpr
        (hsuits f hfield)
      exact ⟨v, hv⟩
    obtain ⟨n, hn⟩ := (@validate_declared c contract ref (x.getD ∅) subject hint strip hresolve
      (hdeclared x hx)).mpr fun f hf =>
        (accepted_example_iff hreads hx hpossible hf).mpr (hsuits f hf)
    exact ⟨x, n, hx, hn⟩

end Examples

theorem newYearRuntime_reads : ReadsPlaceholders newYearRuntime where
  date := by decide
  datetime := by
    refine ⟨{ moment := newYear }, newYear, ?_, Timestamps.ensureUtc_utc (.inl rfl)⟩
    simp [newYearRuntime]

/-- A number among the values of a vocabulary, after other values. -/
def gradeSchema (others : List Value) : PropertySchema where
  type := .int
  enum := some (others ++ [.int 1])

theorem contractInputExample_oneField {config : CoreConfig} {name : String}
    {schema : PropertySchema} {h : schema.jsonSchema = none ∧ schema.enumRef = none} {v : Value}
    (hrequired : contractFieldIsRequired schema = true)
    (hv : exampleFieldValue config name schema = .ok v) :
    contractInputExample config (oneField name schema h) = .ok (some (Dict.ofList [(name, v)])) := by
  have hsorted : sortedFields (oneField name schema h) = [(name, schema)] := by
    simp [sortedFields, oneField]
  unfold contractInputExample
  rw [hsorted]
  simp [oneField, hrequired, hv, bind, Except.bind, pure, Except.pure, Except.map]

theorem example_accepted_iff_grade :
    ∃ x n, contractInputExample {} (oneField "grade" (gradeSchema [])) = .ok x ∧
      validateContractPayload newYearContext (.inline (oneField "grade" (gradeSchema [])))
        (x.getD ∅) "Input" none false = .ok n := by
  refine (@example_accepted_iff newYearContext (oneField "grade" (gradeSchema []))
    (.inline (oneField "grade" (gradeSchema []))) "Input" none false rfl ?_
    newYearRuntime_reads).mpr ?_
  · exact ⟨Dict.ofList [("grade", .int 1)], "Input", none, false, _,
      validate_oneField.mpr ⟨.int 1, by decide, rfl⟩⟩
  · intro f hf
    obtain rfl := List.mem_singleton.mp hf
    decide

/-- The example takes the first value of a vocabulary, which is not of the type of its field. -/
theorem first_of_vocabulary_refused :
    (∃ n, validateContractPayload newYearContext (.inline (oneField "grade" (gradeSchema [.str "A"])))
      (Dict.ofList [("grade", .int 1)]) "Input" none false = .ok n) ∧
    contractInputExample {} (oneField "grade" (gradeSchema [.str "A"])) =
      .ok (some (Dict.ofList [("grade", .str "A")])) ∧
    ∀ n, validateContractPayload newYearContext
      (.inline (oneField "grade" (gradeSchema [.str "A"]))) (Dict.ofList [("grade", .str "A")])
      "Input" none false ≠ .ok n := by
  refine ⟨⟨_, validate_oneField.mpr ⟨.int 1, by decide, rfl⟩⟩,
    contractInputExample_oneField rfl rfl, ?_⟩
  intro n hn
  obtain ⟨w, hw, _⟩ := validate_oneField.mp hn
  have hrefused : normalizeContractField newYearContext "grade" (.str "A")
      (gradeSchema [.str "A"]) = .error (.valueError "must be an int") := rfl
  rw [hrefused] at hw
  cases hw

end Cruxible.Contracts
