import Cruxible.Contracts

/-!
# Replaying a normalized payload

A payload is compared with the vocabulary of its fields as it is spelled, and then
normalized: an integer becomes a float and a datetime its text in UTC. The normalized
payload is compared again when it is replayed.
-/
namespace Cruxible.Contracts
open JsonValue PythonDict Fallible PropertyValidation JsonSchemas
open AssertionState (Properties)
open Timestamps (newYear Moment Datetime ensureUtc ensureUtc_utc)
open Value

/-- The other spelling that normalization gives a value, if it gives one. -/
def respelling (rt : TextRuntime) (type : PropertyType) (value : Value) : Option Value :=
  match type, value with
  | .float, .int n => (floatOfInt n).map .float
  | .number, .int n => (floatOfInt n).map .float
  | .datetime, .str s =>
      (parseDatetime rt (.str s)).toOption.map fun m => .str (isoText m)
  | _, _ => none

/-- The normalized spelling of a value is in the vocabulary of its field as well. -/
def StaysInEnum (c : ContractContext) (schema : PropertySchema) (value : Value) : Prop :=
  ∀ allowed, enumValues c.config schema = .ok (some allowed) →
    ∀ w, respelling c.rt schema.type value = some w → allowed.any (fun a => w.pyEq a) = true

section Replays

variable {c : ContractContext} {schema : PropertySchema} {v w : Value}

theorem normalizeTyped_respelling {rt : TextRuntime} {type : PropertyType}
    (h : normalizeTyped rt v type = .ok w) :
    w = (respelling rt type v).getD v ∧ (v ≠ .null → w ≠ .null) := by
  cases type with
  | string | int | integer | bool =>
    simp only [normalizeTyped] at h
    split at h
    · obtain rfl := Except.ok.inj h
      exact ⟨rfl, id⟩
    · cases h
  | float | number =>
    simp only [normalizeTyped] at h
    split at h
    · obtain rfl := Except.ok.inj h
      exact ⟨rfl, id⟩
    · rename_i n
      cases hn : floatOfInt n with
      | none =>
        rw [hn] at h
        cases h
      | some f =>
        rw [hn] at h
        obtain rfl := Except.ok.inj h
        exact ⟨by simp [respelling, hn], by simp⟩
    · cases h
  | date =>
    simp only [normalizeTyped] at h
    split at h
    · split_ifs at h
      obtain rfl := Except.ok.inj h
      exact ⟨rfl, id⟩
    · cases h
  | datetime =>
    simp only [normalizeTyped] at h
    cases v with
    | str s =>
      cases hm : parseDatetime rt (.str s) with
      | ok m =>
        rw [hm] at h
        obtain rfl := Except.ok.inj h
        exact ⟨by simp [respelling, hm, Except.toOption], by simp⟩
      | error e =>
        rw [hm] at h
        cases e <;> cases h
    | null | bool b | int n | float f | array xs | object es => cases h
  | json =>
    simp only [normalizeTyped] at h
    split_ifs at h
    obtain rfl := Except.ok.inj h
    exact ⟨rfl, id⟩

theorem normalizeValue_again (h : normalizeValue c.rt v schema c.config = .ok w) :
    normalizeValue c.rt w schema c.config = .ok w ↔ StaysInEnum c schema v := by
  by_cases hnull : v = .null
  · subst hnull
    have hnull' : w = .null := by
      unfold normalizeValue at h
      rw [if_pos rfl] at h
      split_ifs at h
      exact (Except.ok.inj h).symm
    have hnone : respelling c.rt schema.type .null = none := by
      unfold respelling
      split <;> simp_all
    unfold StaysInEnum
    rw [hnull'] at h ⊢
    simp [h, hnone]
  · unfold normalizeValue at h
    rw [if_neg hnull] at h
    obtain ⟨vocabulary, hvocabulary, h⟩ := bind_eq_ok.mp h
    have htyped : normalizeTyped c.rt v schema.type = .ok w := by
      cases vocabulary with
      | none => exact h
      | some allowed =>
        dsimp only at h
        split_ifs at h
        exact h
    have ⟨hrespelled, hne⟩ := normalizeTyped_respelling htyped
    unfold normalizeValue StaysInEnum
    rw [if_neg (hne hnull), hvocabulary]
    cases vocabulary with
    | none =>
      refine iff_of_true (normalizeTyped_fixed htyped) ?_
      intro allowed hallowed
      cases hallowed
    | some allowed =>
      have hin : allowed.any (fun a => v.pyEq a) = true := by
        dsimp only at h
        split_ifs at h with hany
        exact hany
      have hagain : (if allowed.any (fun a => w.pyEq a) then normalizeTyped c.rt w schema.type
          else .error (.valueError
            ("value must be one of: " ++ ", ".intercalate (allowed.map c.rt.str)))) = .ok w ↔
          allowed.any (fun a => w.pyEq a) = true := by
        rw [normalizeTyped_fixed htyped]
        split_ifs with hany
        · simp [hany]
        · simp [hany]
      refine hagain.trans ?_
      rw [hrespelled]
      cases hother : respelling c.rt schema.type v with
      | none => simp [hin]
      | some u => simp

variable {name : String} {fields : List (String × PropertySchema)}

theorem normalizeContractField_eq_ok :
    normalizeContractField c name v schema = .ok w ↔
      normalizeValue c.rt v schema c.config = .ok w ∧ validateNested c name schema w = .ok () := by
  unfold normalizeContractField
  rw [bind_eq_ok]
  constructor
  · rintro ⟨u, hu, hnested⟩
    obtain ⟨_, hvalid, hw⟩ := bind_eq_ok.mp hnested
    obtain rfl := Except.ok.inj hw
    exact ⟨mapError_eq_ok.mp hu, hvalid⟩
  · rintro ⟨hw, hnested⟩
    exact ⟨w, mapError_eq_ok.mpr hw, bind_eq_ok.mpr ⟨(), hnested, rfl⟩⟩

theorem normalizeContractField_again (h : normalizeContractField c name v schema = .ok w) :
    normalizeContractField c name w schema = .ok w ↔ StaysInEnum c schema v := by
  obtain ⟨hvalue, hnested⟩ := normalizeContractField_eq_ok.mp h
  rw [normalizeContractField_eq_ok, normalizeValue_again hvalue]
  exact and_iff_left hnested

variable {contract : ContractSchema} {payload n : Properties} {strip : Bool}

theorem entries_normalized (hn : (fields.map Prod.fst).Nodup) :
    (Dict.ofList (fields.filterMap (entryOf c payload))).entries =
      fields.filterMap (entryOf c payload) :=
  Dict.entries_ofList (nodup_entries hn)

theorem mem_keys_normalized (hn : (fields.map Prod.fst).Nodup) {k : String} :
    k ∈ (Dict.ofList (fields.filterMap (entryOf c payload))).keys →
      ∃ f ∈ fields, f.1 = k ∧ (entryOf c payload f).isSome = true := by
  unfold Dict.keys
  rw [entries_normalized hn]
  intro hk
  obtain ⟨b, hb, rfl⟩ := List.mem_map.mp hk
  obtain ⟨f, hf, hfb⟩ := List.mem_filterMap.mp hb
  exact ⟨f, hf, (entryOf_eq_some.mp hfb).1.symm, by rw [hfb]; rfl⟩

variable {f : String × PropertySchema}

theorem mem_validatedFields_cases (hf : f ∈ validatedFields contract payload) :
    f ∈ contract.fields.entries ∨ (contract.allowExtra = true ∧
      f.1 ∈ extraNames contract payload ∧ f.2 = extraSchema) := by
  unfold validatedFields at hf
  rcases List.mem_append.mp hf with hf | hf
  · exact .inl hf
  · split_ifs at hf with hallow
    · obtain ⟨k, hk, rfl⟩ := List.mem_map.mp hf
      exact .inr ⟨hallow, hk, rfl⟩
    · cases hf

/-- The metadata that was stripped does not come back. -/
theorem validationPayload_normalized (hn : n = Dict.ofList ((validatedFields contract
      (validationPayload contract payload strip)).filterMap
        (entryOf c (validationPayload contract payload strip)))) :
    validationPayload contract n strip = n := by
  unfold validationPayload
  rw [if_neg]
  rintro ⟨hstrip, hin, hundeclared⟩
  rw [Bool.not_eq_true', ← Bool.not_eq_true, Dict.contains_eq_true] at hundeclared
  rw [Dict.contains_eq_true, hn] at hin
  obtain ⟨f, hf, hname, _⟩ := mem_keys_normalized (nodup_validatedFields _ _) hin
  rcases mem_validatedFields_cases hf with hfield | ⟨_, hextra, _⟩
  · exact hundeclared (hname ▸ List.mem_map_of_mem hfield)
  · have hkeys := (mem_extraNames.mp hextra).1
    rw [hname] at hkeys
    unfold validationPayload at hkeys
    split_ifs at hkeys with hpresent
    · have hgone : (payload.erase sourceMetadataKey).get? sourceMetadataKey = none := by
        rw [Dict.get?_erase, if_pos rfl]
      exact Dict.get?_eq_none.mp hgone hkeys
    · refine hpresent ⟨hstrip, Dict.contains_eq_true.mpr hkeys, ?_⟩
      rw [Bool.not_eq_true', ← Bool.not_eq_true, Dict.contains_eq_true]
      exact hundeclared

theorem get?_validationPayload (h : name ∈ contract.fields.keys) :
    (validationPayload contract payload strip).get? name = payload.get? name := by
  unfold validationPayload
  split_ifs with hstripped
  · rw [Dict.get?_erase, if_neg]
    rintro rfl
    have hundeclared := hstripped.2.2
    rw [Bool.not_eq_true', ← Bool.not_eq_true, Dict.contains_eq_true] at hundeclared
    exact hundeclared h
  · rfl

theorem staysInEnum_extraSchema (v : Value) : StaysInEnum c extraSchema v := by
  intro allowed hallowed
  cases hallowed

theorem isSome_entryOf_extra {k : String} (hk : k ∈ extraNames contract payload)
    (h : Accepted c payload (k, extraSchema)) :
    (entryOf c payload (k, extraSchema)).isSome = true := by
  obtain ⟨v, hv⟩ := Dict.mem_keys.mp (mem_extraNames.mp hk).1
  unfold Accepted at h
  unfold entryOf
  have houtcome : outcome c payload (k, extraSchema) =
      some (normalizeContractField c k v extraSchema) := by
    simp [outcome, given, hv]
  rw [houtcome] at h ⊢
  obtain ⟨w, hw⟩ := h
  rw [hw]
  rfl

theorem extraNames_normalized
    (h : ∀ f ∈ validatedFields contract payload, Accepted c payload f)
    (hextra : contract.allowExtra = true ∨ extraNames contract payload = [])
    (hn : n = Dict.ofList ((validatedFields contract payload).filterMap (entryOf c payload))) :
    extraNames contract n = extraNames contract payload := by
  have hnodup := nodup_validatedFields contract payload
  have hperm : (n.keys.filter fun k => !contract.fields.contains k).Perm
      (payload.keys.filter fun k => !contract.fields.contains k) := by
    refine (List.perm_ext_iff_of_nodup (n.nodup.filter _) (payload.nodup.filter _)).mpr ?_
    intro k
    have hmem : ∀ d : Properties, k ∈ d.keys.filter (fun k => !contract.fields.contains k) ↔
        k ∈ extraNames contract d := by
      intro d
      unfold extraNames
      rw [List.mem_mergeSort]
    refine (hmem n).trans (Iff.trans ?_ (hmem payload).symm)
    rw [mem_extraNames]
    constructor
    · rintro ⟨hk, hundeclared⟩
      rw [hn] at hk
      obtain ⟨f, hf, rfl, _⟩ := mem_keys_normalized hnodup hk
      rcases mem_validatedFields_cases hf with hfield | ⟨_, hextra, _⟩
      · exact absurd (List.mem_map_of_mem hfield) hundeclared
      · exact hextra
    · intro hk
      refine ⟨?_, (mem_extraNames.mp hk).2⟩
      have hallow : contract.allowExtra = true := by
        rcases hextra with hallow | hnil
        · exact hallow
        · rw [hnil] at hk
          cases hk
      have hf : (k, extraSchema) ∈ validatedFields contract payload := by
        unfold validatedFields
        rw [if_pos hallow]
        exact List.mem_append_right _ (List.mem_map.mpr ⟨k, hk, rfl⟩)
      have hsome := isSome_entryOf_extra hk (h _ hf)
      have hget : n.get? k = (entryOf c payload (k, extraSchema)).map Prod.snd := by
        rw [hn]
        exact get?_normalized hnodup hf
      obtain ⟨b, hb⟩ := Option.isSome_iff_exists.mp hsome
      rw [hb] at hget
      exact Dict.mem_keys.mpr ⟨_, hget⟩
  unfold extraNames
  exact List.Perm.eq_of_pairwise (fun a b _ _ => le_antisymm)
    (List.pairwise_mergeSort' _ _) (List.pairwise_mergeSort' _ _)
    (((List.mergeSort_perm _ _).trans hperm).trans (List.mergeSort_perm _ _).symm)

theorem outcome_normalized (hn : (fields.map Prod.fst).Nodup) (hf : f ∈ fields)
    (haccepted : Accepted c payload f) :
    outcome c (Dict.ofList (fields.filterMap (entryOf c payload))) f =
      (entryOf c payload f).map fun b => normalizeContractField c f.1 b.2 f.2 := by
  have hget := @get?_normalized c payload fields hn f hf
  unfold Accepted at haccepted
  cases houtcome : outcome c payload f with
  | some result =>
    rw [houtcome] at haccepted
    obtain ⟨w, rfl⟩ := haccepted
    have hentry : entryOf c payload f = some (f.1, w) := entryOf_eq_some.mpr ⟨rfl, houtcome⟩
    rw [hentry] at hget ⊢
    simp [outcome, given, hget]
  | none =>
    have hentry : entryOf c payload f = none := by
      unfold entryOf
      rw [houtcome]
    have hgiven : given payload f = none := by
      unfold outcome at houtcome
      exact Option.map_eq_none_iff.mp houtcome
    rw [hentry] at hget ⊢
    have hdefault : f.2.default = none := by
      unfold given at hgiven
      exact (Option.or_eq_none_iff.mp hgiven).2
    simp [outcome, given, hget, hdefault]

variable {ref : ContractReference} {subject : String} {hint : Option String}

theorem validate_normalized_iff (hresolve : resolveContract c ref = some contract)
    (h : validateContractPayload c ref payload subject hint strip = .ok n) :
    validateContractPayload c ref n subject hint strip = .ok n ↔
      ∀ f ∈ validatedFields contract (validationPayload contract payload strip), ∀ w,
        outcome c (validationPayload contract payload strip) f = some (.ok w) →
          normalizeContractField c f.1 w f.2 = .ok w := by
  obtain ⟨haccepted, hextra, hn⟩ := (validateContractPayload_eq_ok hresolve).mp h
  have hstripped := validationPayload_normalized hn
  generalize validationPayload contract payload strip = payload at haccepted hextra hn ⊢
  have hnames := extraNames_normalized haccepted hextra hn
  have hfields : validatedFields contract n = validatedFields contract payload := by
    unfold validatedFields
    rw [hnames]
  have hnodup := nodup_validatedFields contract payload
  have houtcome : ∀ f ∈ validatedFields contract payload, outcome c n f =
      (entryOf c payload f).map fun b => normalizeContractField c f.1 b.2 f.2 := by
    intro f hf
    rw [hn]
    exact outcome_normalized hnodup hf (haccepted f hf)
  rw [validateContractPayload_eq_ok hresolve, hstripped, hfields, hnames]
  constructor
  case mp =>
    rintro ⟨hagain, _, hsame⟩ f hf w hw
    have hentry : entryOf c payload f = some (f.1, w) := entryOf_eq_some.mpr ⟨rfl, hw⟩
    have hout := houtcome f hf
    rw [hentry] at hout
    have haccept := hagain f hf
    unfold Accepted at haccept
    rw [hout] at haccept
    obtain ⟨w', hw'⟩ := haccept
    have hget : n.get? f.1 = some w := by
      rw [hn, get?_normalized hnodup hf, hentry]
      rfl
    have hget' : n.get? f.1 = some w' := by
      have hentry' : entryOf c n f = some (f.1, w') :=
        entryOf_eq_some.mpr ⟨rfl, by rw [hout]; exact congrArg some hw'⟩
      conv_lhs => rw [hsame]
      rw [get?_normalized hnodup hf, hentry']
      rfl
    rw [hget, Option.some.injEq] at hget'
    subst hget'
    exact hw'
  case mpr =>
    intro hagain
    have hentry : ∀ f ∈ validatedFields contract payload,
        Accepted c n f ∧ entryOf c n f = entryOf c payload f := by
      intro f hf
      have hout := houtcome f hf
      have haccept := haccepted f hf
      cases hentry : entryOf c payload f with
      | some b =>
        obtain ⟨hname, hb⟩ := entryOf_eq_some.mp hentry
        rw [hentry, Option.map_some, hagain f hf b.2 hb] at hout
        unfold Accepted
        rw [hout]
        exact ⟨⟨b.2, rfl⟩, entryOf_eq_some.mpr ⟨hname, hout⟩⟩
      | none =>
        rw [hentry, Option.map_none] at hout
        unfold Accepted at haccept ⊢
        rw [hout]
        constructor
        · cases hfirst : outcome c payload f with
          | none =>
            rw [hfirst] at haccept
            exact haccept
          | some result =>
            rw [hfirst] at haccept
            obtain ⟨w, rfl⟩ := haccept
            have hsome : entryOf c payload f = some (f.1, w) :=
              entryOf_eq_some.mpr ⟨rfl, hfirst⟩
            rw [hentry] at hsome
            cases hsome
        · unfold entryOf
          rw [hout]
    refine ⟨fun f hf => (hentry f hf).1, hextra, ?_⟩
    rw [hn]
    congr 1
    exact List.filterMap_congr fun f hf => ((hn ▸ hentry f hf).2).symm

/-- Whether a normalized payload can be replayed is decided by the vocabularies of the
declared fields. -/
theorem replay_iff (hresolve : resolveContract c ref = some contract)
    (h : validateContractPayload c ref payload subject hint strip = .ok n) :
    validateContractPayload c ref n subject hint strip = .ok n ↔
      ∀ f ∈ contract.fields.entries, ∀ v, given payload f = some v → StaysInEnum c f.2 v := by
  obtain ⟨haccepted, -, -⟩ := (validateContractPayload_eq_ok hresolve).mp h
  rw [validate_normalized_iff hresolve h]
  have hdeclared : ∀ f ∈ contract.fields.entries,
      given (validationPayload contract payload strip) f = given payload f := by
    intro f hf
    unfold given
    rw [get?_validationPayload (List.mem_map_of_mem hf)]
  have hreplay : ∀ f ∈ validatedFields contract (validationPayload contract payload strip),
      ∀ v, given (validationPayload contract payload strip) f = some v → ∃ w,
        outcome c (validationPayload contract payload strip) f = some (.ok w) ∧
          (normalizeContractField c f.1 w f.2 = .ok w ↔ StaysInEnum c f.2 v) := by
    intro f hf v hv
    have haccept := haccepted f hf
    have houtcome : outcome c (validationPayload contract payload strip) f =
        some (normalizeContractField c f.1 v f.2) := by
      unfold outcome
      rw [hv]
      rfl
    unfold Accepted at haccept
    rw [houtcome] at haccept
    obtain ⟨w, hw⟩ := haccept
    exact ⟨w, by rw [houtcome, hw], normalizeContractField_again hw⟩
  constructor
  case mp =>
    intro hfixed f hf v hv
    rw [← hdeclared f hf] at hv
    have hmem : f ∈ validatedFields contract (validationPayload contract payload strip) :=
      List.mem_append_left _ hf
    obtain ⟨w, hw, hiff⟩ := hreplay f hmem v hv
    exact hiff.mp (hfixed f hmem w hw)
  case mpr =>
    intro hstays f hf w hw
    obtain ⟨v, hv⟩ : ∃ v, given (validationPayload contract payload strip) f = some v := by
      unfold outcome at hw
      obtain ⟨v, hv, _⟩ := Option.map_eq_some_iff.mp hw
      exact ⟨v, hv⟩
    obtain ⟨w', hw', hiff⟩ := hreplay f hf v hv
    rw [hw, Option.some.injEq, Except.ok.injEq] at hw'
    subst hw'
    refine hiff.mpr ?_
    rcases mem_validatedFields_cases hf with hfield | ⟨_, _, hschema⟩
    · exact hstays f hfield v (hdeclared f hfield ▸ hv)
    · rw [hschema]
      exact staysInEnum_extraSchema v

end Replays

/-- A runtime whose parsers are asked about the first day of a year. -/
def newYearRuntime : TextRuntime where
  str := fun
    | .str s => s
    | _ => ""
  dateFromIsoformat := fun s => s = "2026-01-01"
  datetimeFromIsoformat := fun s =>
    if s = "2026-01-01T00:00:00+00:00" then some { moment := newYear } else none
  datetimeFromIsoformat_isoText := by
    intro s d m h hm
    split_ifs at h
    obtain rfl := Option.some.inj h
    rw [ensureUtc_utc (.inl rfl), Option.some.injEq] at hm
    subst hm
    exact ⟨_, if_pos (by decide), ensureUtc_utc (.inl rfl)⟩
  fullmatch := fun pattern text => pattern = text
  normalizeIdentityValue := id

def newYearContext : ContractContext where
  rt := newYearRuntime
  config := {}

/-- A contract of one field, with no nested schema and no shared vocabulary. -/
def oneField (name : String) (schema : PropertySchema)
    (h : schema.jsonSchema = none ∧ schema.enumRef = none := by exact ⟨rfl, rfl⟩) :
    ContractSchema where
  fields := { entries := [(name, schema)], nodup := by simp }
  keyed := by
    intro name' schema' hmem es hes
    obtain ⟨rfl, rfl⟩ := Prod.mk.inj (List.mem_singleton.mp hmem)
    rw [h.1] at hes
    cases hes
  textual := by
    intro name' schema' hmem href
    obtain ⟨rfl, rfl⟩ := Prod.mk.inj (List.mem_singleton.mp hmem)
    rw [h.2] at href
    cases href

theorem validate_oneField {c : ContractContext} {name : String} {schema : PropertySchema}
    {h : schema.jsonSchema = none ∧ schema.enumRef = none} {v : Value} {subject : String} {hint : Option String}
    {n : Properties} :
    validateContractPayload c (.inline (oneField name schema h)) (Dict.ofList [(name, v)]) subject
        hint false = .ok n ↔
      ∃ w, normalizeContractField c name v schema = .ok w ∧ n = Dict.ofList [(name, w)] := by
  have hresolve : resolveContract c (.inline (oneField name schema h)) =
      some (oneField name schema h) := rfl
  rw [validateContractPayload_eq_ok hresolve]
  have hpayload : validationPayload (oneField name schema h) (Dict.ofList [(name, v)]) false =
      Dict.ofList [(name, v)] := by
    simp [validationPayload]
  have hget : (Dict.ofList [(name, v)]).get? name = some v := by
    rw [Dict.get?_ofList (by simp)]
    simp [Bindings.get?]
  have hextra : extraNames (oneField name schema h) (Dict.ofList [(name, v)]) = [] := by
    rw [List.eq_nil_iff_forall_not_mem]
    intro k hk
    obtain ⟨hkeys, hundeclared⟩ := mem_extraNames.mp hk
    unfold Dict.keys at hkeys hundeclared
    rw [Dict.entries_ofList (by simp)] at hkeys
    exact hundeclared hkeys
  have hfields : validatedFields (oneField name schema h) (Dict.ofList [(name, v)]) =
      [(name, schema)] := by
    simp [validatedFields, oneField]
  rw [hpayload, hfields]
  simp only [List.forall_mem_singleton, hextra, or_true, true_and, List.filterMap_cons,
    List.filterMap_nil, Accepted, entryOf, outcome, given, hget, Option.some_or, Option.map_some]
  constructor
  · rintro ⟨⟨w, hw⟩, rfl⟩
    exact ⟨w, hw, by rw [hw]⟩
  · rintro ⟨w, hw, rfl⟩
    exact ⟨⟨w, hw⟩, by rw [hw]⟩

/-- One moment, in the spelling of its vocabulary. -/
def momentSchema (allowed : String) : PropertySchema where
  type := .datetime
  enum := some [.str allowed]

def momentContract (allowed : String) : ContractReference :=
  .inline (oneField "at" (momentSchema allowed))

def momentPayload (text : String) : Properties := Dict.ofList [("at", .str text)]

theorem replay_iff_new_year :
    validateContractPayload newYearContext (momentContract "2026-01-01T00:00:00+00:00")
      (momentPayload "2026-01-01T00:00:00+00:00") "Input" none false =
        .ok (momentPayload "2026-01-01T00:00:00+00:00") := by
  have haccepted : validateContractPayload newYearContext
      (momentContract "2026-01-01T00:00:00+00:00") (momentPayload "2026-01-01T00:00:00+00:00")
      "Input" none false = .ok (momentPayload "2026-01-01T00:00:00+00:00") :=
    validate_oneField.mpr ⟨_, by decide, rfl⟩
  refine (replay_iff rfl haccepted).mpr ?_
  intro f hf v hv allowed hallowed w hw
  obtain rfl := List.mem_singleton.mp hf
  have hgiven : given (momentPayload "2026-01-01T00:00:00+00:00")
      ("at", momentSchema "2026-01-01T00:00:00+00:00") =
        some (.str "2026-01-01T00:00:00+00:00") := rfl
  rw [hgiven] at hv
  obtain rfl := Option.some.inj hv
  obtain rfl := Option.some.inj (Except.ok.inj hallowed)
  obtain rfl := Option.some.inj hw
  rfl

/-- A payload in the abbreviated spelling is accepted, and what it becomes is not. -/
theorem abbreviated_moment_not_replayed :
    validateContractPayload newYearContext (momentContract "2026-01-01T00:00:00Z")
      (momentPayload "2026-01-01T00:00:00Z") "Input" none false =
        .ok (momentPayload "2026-01-01T00:00:00+00:00") ∧
    ∀ n, validateContractPayload newYearContext (momentContract "2026-01-01T00:00:00Z")
      (momentPayload "2026-01-01T00:00:00+00:00") "Input" none false ≠ .ok n := by
  constructor
  · exact validate_oneField.mpr ⟨_, by decide, rfl⟩
  · intro n h
    obtain ⟨w, hw, _⟩ := validate_oneField.mp h
    have hrejected : ∃ m, normalizeContractField newYearContext "at"
        (.str "2026-01-01T00:00:00+00:00") (momentSchema "2026-01-01T00:00:00Z") =
          .error (.valueError m) := ⟨_, rfl⟩
    obtain ⟨m, hm⟩ := hrejected
    rw [hm] at hw
    cases hw

end Cruxible.Contracts
