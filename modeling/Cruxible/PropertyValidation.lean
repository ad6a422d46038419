import Cruxible.Fallible
import Cruxible.Graph
import Cruxible.Timestamps
import Mathlib.Data.List.Sort

/-!
# Configuration schemas and property validation

The part of the configuration that writes consult, and the payload validator
that every entity and relationship write goes through. Text routines of the
language runtime are collected in `TextRuntime`: rendering with `str`, the date
and datetime parsers, regular-expression matching of entity ids, and the
Unicode folding behind declared identities. The validator is written over any
such runtime.
-/
namespace Cruxible.PropertyValidation
open JsonValue PythonDict AssertionState Fallible Cruxible.Graph Timestamps

/-- `isoformat` of a moment in UTC, as a string. -/
def isoText (m : Moment) : String := String.ofList (isoformat m)

/-- Text routines of the language runtime. The datetime parser reads the text that
`isoformat` writes for a moment that it read. -/
structure TextRuntime where
  str : Value → String
  dateFromIsoformat : String → Bool
  datetimeFromIsoformat : String → Option Datetime
  datetimeFromIsoformat_isoText : ∀ {s d m}, datetimeFromIsoformat s = some d →
    ensureUtc d = some m → ∃ e, datetimeFromIsoformat (isoText m) = some e ∧ ensureUtc e = some m
  fullmatch : String → String → Bool
  normalizeIdentityValue : String → String

/-- The refusals of the write path, with the data that their messages carry. -/
inductive CoreError where
  | dataValidation (message : String) (errors : List String)
  | directWriteRefused (kind typeName source policy : String)
  | governedSourceSpoofRefused (source entryPoint : String)
  | terminalLifecycleWriteRefused (kind status writable : String)
  | pendingEdgeWriteRefused (relationshipType fromType fromId toType toId : String)
  | groupApprovedContentWriteRefused (relationshipType groupId : String)
      (changedProperties : List String)
  | config (message : String)
  | entityNotFound (entityType entityId : String)
  | value (message : String)
  | overflow (message : String)
  | keyError (key : String)
  | ownership (message : String) (blockedTypes : List String)
  | relationshipAmbiguity (fromType fromId toType toId relationshipType : String)
  | mutation (message : String)
  | permissionDenied (operation required : String)
  | queryExecution (message : String)
  | entityTypeNotFound (entityType : String)
  | groupNotFound (groupId : String)
  | storageIntegrity (constraint : String)
  | relationshipNotFound (relationshipType : String)
  | queryNotFound (queryName : String)
  | attribute (message : String)
  deriving DecidableEq, Repr

inductive PropertyType where
  | string
  | int
  | integer
  | float
  | number
  | bool
  | date
  | datetime
  | json
  deriving DecidableEq, Repr

structure PropertySchema where
  type : PropertyType := .string
  primaryKey : Bool := false
  optional : Bool := false
  default : Option Value := none
  enum : Option (List Value) := none
  enumRef : Option String := none
  description : Option String := none
  jsonSchema : Option (List (String × Value)) := none

inductive WritePolicy where
  | direct
  | proposalOnly
  | mintOnly
  deriving DecidableEq, Repr

def WritePolicy.text : WritePolicy → String
  | .direct => "direct"
  | .proposalOnly => "proposal_only"
  | .mintOnly => "mint_only"

structure EntityTypeSchema where
  properties : Dict String PropertySchema := ∅
  identityHint : Option (List String) := none
  uniqueBy : Option (List String) := none
  idPattern : Option String := none
  writePolicy : Option WritePolicy := none

/-- `get_primary_key`: the first property marked as primary key. -/
def EntityTypeSchema.getPrimaryKey (s : EntityTypeSchema) : Option String :=
  (s.properties.entries.find? (fun p => p.2.primaryKey)).map Prod.fst

structure RelationshipSchema where
  name : String
  fromEntity : String
  toEntity : String
  properties : Dict String PropertySchema := ∅
  writePolicy : Option WritePolicy := none

structure CoreConfig where
  entityTypes : Dict String EntityTypeSchema := ∅
  relationships : List RelationshipSchema := []
  enums : Dict String (List String) := ∅
  defaultWritePolicy : WritePolicy := .direct

def CoreConfig.getRelationship (c : CoreConfig) (name : String) : Option RelationshipSchema :=
  c.relationships.find? (fun r => r.name = name)

/-- The first magnitude beyond the finite doubles. -/
@[irreducible] def floatLimit : Nat := 2 ^ 1024

/-- `float(n)`: round half to even at 53 significant bits, refusing overflow. -/
def floatOfInt (n : Int) : Option PyFloat :=
  let m := n.natAbs
  let bits := m.log2 + 1
  let magnitude :=
    if bits ≤ 53 then m
    else
      let shift := bits - 53
      let q := m / 2 ^ shift
      let r := m % 2 ^ shift
      let half := 2 ^ (shift - 1)
      (if half < r ∨ (r = half ∧ q % 2 = 1) then q + 1 else q) * 2 ^ shift
  if floatLimit ≤ magnitude then none
  else some (.finite (if n < 0 then -(magnitude : Rat) else (magnitude : Rat)))

/-- The ways in which `normalize_value` can raise. Only `ValueError` is collected by
its callers. -/
inductive NormalizeError where
  | valueError (message : String)
  | overflowError (message : String)
  | attributeError (message : String)
  deriving DecidableEq, Repr

/-- `type(value).__name__`. -/
def typeName : Value → String
  | .null => "NoneType"
  | .bool _ => "bool"
  | .int _ => "int"
  | .float _ => "float"
  | .str _ => "str"
  | .array _ => "list"
  | .object _ => "dict"

/-- `value.replace("Z", "+00:00")`. -/
def replaceZulu (s : String) : String :=
  String.ofList (s.toList.flatMap fun c => if c = 'Z' then zulu else [c])

/-- `parse_datetime` of a value that is not null. -/
def parseDatetime (rt : TextRuntime) : Value → Except NormalizeError Moment
  | .str s =>
      match rt.datetimeFromIsoformat (replaceZulu s) with
      | none => .error (.valueError ("Invalid isoformat string: '" ++ replaceZulu s ++ "'"))
      | some d =>
          match ensureUtc d with
          | some m => .ok m
          | none => .error (.overflowError "date value out of range")
  | v => .error (.attributeError ("'" ++ typeName v ++ "' object has no attribute 'replace'"))

/-- `enum_values`: inline values first, then the shared enum. -/
def enumValues (config : CoreConfig) (schema : PropertySchema) :
    Except NormalizeError (Option (List Value)) :=
  match schema.enum, schema.enumRef with
  | some vs, _ => .ok (some vs)
  | none, some ref =>
      match config.enums.get? ref with
      | some vs => .ok (some (vs.map Value.str))
      | none => .error (.valueError ("enum_ref '" ++ ref ++ "' is not defined"))
  | none, none => .ok none

/-- The per-type part of `normalize_value`. -/
def normalizeTyped (rt : TextRuntime) (value : Value) : PropertyType → Except NormalizeError Value
  | .string =>
      match value with
      | .str _ => .ok value
      | _ => .error (.valueError "must be a string")
  | .int | .integer =>
      match value with
      | .int _ => .ok value
      | _ => .error (.valueError "must be an int")
  | .float | .number =>
      match value with
      | .float _ => .ok value
      | .int n =>
          match floatOfInt n with
          | some f => .ok (.float f)
          | none => .error (.overflowError "int too large to convert to float")
      | _ => .error (.valueError "must be a float")
  | .bool =>
      match value with
      | .bool _ => .ok value
      | _ => .error (.valueError "must be a bool")
  | .date =>
      match value with
      | .str s =>
          if rt.dateFromIsoformat s then .ok value
          else .error (.valueError "must be an ISO date string (YYYY-MM-DD)")
      | _ => .error (.valueError "must be an ISO date string")
  | .datetime =>
      match parseDatetime rt value with
      | .ok m => .ok (.str (isoText m))
      | .error (.valueError _) => .error (.valueError "must be an ISO datetime string")
      | .error e => .error e
  | .json => if value.finite then .ok value else .error (.valueError "must be JSON-serializable")

/-- `normalize_value`. -/
def normalizeValue (rt : TextRuntime) (value : Value) (schema : PropertySchema)
    (config : CoreConfig) : Except NormalizeError Value :=
  if value = .null then
    if schema.optional then .ok .null else .error (.valueError "value may not be null")
  else do
    match ← enumValues config schema with
    | some allowed =>
        if allowed.any (fun a => value.pyEq a) then normalizeTyped rt value schema.type
        else .error (.valueError ("value must be one of: " ++ ", ".intercalate (allowed.map rt.str)))
    | none => normalizeTyped rt value schema.type

structure PropertyValidationResult where
  properties : Properties := ∅
  errors : List String := []

/-- One turn of the schema loop of `validate_property_payload`. -/
def validateProperty (rt : TextRuntime) (config : CoreConfig) (source : Properties)
    (requireRequired : Bool) (primaryKeyName : Option String)
    (acc : PropertyValidationResult) (p : String × PropertySchema) :
    Except CoreError PropertyValidationResult :=
  let (name, schema) := p
  if primaryKeyName = some name then .ok acc
  else
    match source.get? name with
    | none =>
        if requireRequired then
          match schema.default with
          | some d =>
              match normalizeValue rt d schema config with
              | .ok v => .ok { acc with properties := acc.properties.set name v }
              | .error (.valueError m) =>
                  .ok { acc with errors := acc.errors ++ ["property '" ++ name ++ "' default: " ++ m] }
              | .error (.overflowError m) => .error (.overflow m)
              | .error (.attributeError m) => .error (.attribute m)
          | none =>
              if schema.optional then .ok acc
              else .ok { acc with errors :=
                acc.errors ++ ["missing required property '" ++ name ++ "'"] }
        else .ok acc
    | some value =>
        match normalizeValue rt value schema config with
        | .ok v => .ok { acc with properties := acc.properties.set name v }
        | .error (.valueError m) =>
            .ok { acc with errors := acc.errors ++ ["property '" ++ name ++ "': " ++ m] }
        | .error (.overflowError m) => .error (.overflow m)
        | .error (.attributeError m) => .error (.attribute m)

/-- `validate_property_payload`. -/
def validatePropertyPayload (rt : TextRuntime) (config : CoreConfig)
    (schemas : Dict String PropertySchema) (payload : Properties) (requireRequired : Bool)
    (primaryKeyName entityId : Option String) : Except CoreError PropertyValidationResult :=
  let (source, keyErrors) : Properties × List String :=
    match primaryKeyName with
    | none => (payload, [])
    | some pk =>
        match payload.get? pk with
        | none => (payload, [])
        | some supplied =>
            (payload.erase pk,
              match entityId with
              | some i =>
                  if rt.str supplied = i then []
                  else ["property '" ++ pk ++ "': must match entity_id '" ++ i ++ "'"]
              | none => [])
  let extra := (source.keys.filter (fun k => !schemas.contains k)).insertionSort (· ≤ ·)
  let extraErrors := extra.map (fun k => "unexpected property '" ++ k ++ "'")
  schemas.entries.foldlM (validateProperty rt config source requireRequired primaryKeyName)
    { errors := keyErrors ++ extraErrors }

/-- The payload without the primary key, as the schema loop reads it. -/
def payloadSource (payload : Properties) (primaryKeyName : Option String) : Properties :=
  match primaryKeyName with
  | none => payload
  | some pk => payload.erase pk

/-- The value that an accepted payload leaves under one declared name. -/
def validatedValue (rt : TextRuntime) (config : CoreConfig) (source : Properties)
    (requireRequired : Bool) (primaryKeyName : Option String) (name : String)
    (schema : PropertySchema) : Option Value :=
  if primaryKeyName = some name then none
  else
    match source.get? name with
    | some v => (normalizeValue rt v schema config).toOption
    | none =>
        if requireRequired then
          schema.default.bind (fun d => (normalizeValue rt d schema config).toOption)
        else none

/-- A supplied value that the loop accepted has a normal form. -/
def Accepts (rt : TextRuntime) (config : CoreConfig) (source : Properties)
    (primaryKeyName : Option String) (p : String × PropertySchema) : Prop :=
  primaryKeyName ≠ some p.1 → ∀ v, source.get? p.1 = some v →
    ∃ v', normalizeValue rt v p.2 config = .ok v'

section Specification
variable {rt : TextRuntime} {config : CoreConfig} {source : Properties} {requireRequired : Bool}
  {primaryKeyName : Option String} {acc acc' : PropertyValidationResult}

theorem validateProperty_ok {p : String × PropertySchema}
    (h : validateProperty rt config source requireRequired primaryKeyName acc p = .ok acc')
    (he : acc'.errors = []) :
    acc.errors = [] ∧ Accepts rt config source primaryKeyName p ∧
      ∀ k, acc'.properties.get? k =
        if p.1 = k then
          (validatedValue rt config source requireRequired primaryKeyName p.1 p.2).or
            (acc.properties.get? k)
        else acc.properties.get? k := by
  obtain ⟨name, schema⟩ := p
  unfold validateProperty at h
  simp only at h
  by_cases hpk : primaryKeyName = some name
  · rw [if_pos hpk, Except.ok.injEq] at h
    subst h
    refine ⟨he, fun hne => absurd hpk hne, ?_⟩
    intro k
    simp [validatedValue, hpk]
  · rw [if_neg hpk] at h
    cases hs : source.get? name with
    | none =>
      have haccepts : Accepts rt config source primaryKeyName (name, schema) := by
        intro _ v hv
        rw [hs] at hv
        cases hv
      simp only [hs] at h
      cases hreq : requireRequired with
      | false =>
        simp only [hreq, Bool.false_eq_true, if_false, Except.ok.injEq] at h
        subst h
        refine ⟨he, haccepts, ?_⟩
        intro k
        simp [validatedValue, hpk, hs]
      | true =>
        simp only [hreq, if_true] at h
        cases hd : schema.default with
        | none =>
          simp only [hd] at h
          split_ifs at h
          · rw [Except.ok.injEq] at h
            subst h
            refine ⟨he, haccepts, ?_⟩
            intro k
            simp [validatedValue, hpk, hs, hd]
          · rw [Except.ok.injEq] at h
            subst h
            simp at he
        | some d =>
          simp only [hd] at h
          cases hn : normalizeValue rt d schema config with
          | ok v =>
            rw [hn] at h
            simp only [Except.ok.injEq] at h
            subst h
            refine ⟨he, haccepts, ?_⟩
            intro k
            simp [validatedValue, hpk, hs, hd, hn, Dict.get?_set, Except.toOption]
          | error e =>
            rw [hn] at h
            cases e with
            | valueError m =>
              simp only [Except.ok.injEq] at h
              subst h
              simp at he
            | overflowError m | attributeError m => cases h
    | some value =>
      simp only [hs] at h
      cases hn : normalizeValue rt value schema config with
      | ok v =>
        rw [hn] at h
        simp only [Except.ok.injEq] at h
        subst h
        refine ⟨he, ?_, ?_⟩
        · intro _ u hu
          rw [hs, Option.some.injEq] at hu
          exact ⟨v, hu ▸ hn⟩
        · intro k
          simp [validatedValue, hpk, hs, hn, Dict.get?_set, Except.toOption]
      | error e =>
        rw [hn] at h
        cases e with
        | valueError m =>
          simp only [Except.ok.injEq] at h
          subst h
          simp at he
        | overflowError m | attributeError m => cases h

theorem validateProperties_ok {es : List (String × PropertySchema)}
    (hnodup : (es.map Prod.fst).Nodup)
    (h : es.foldlM (validateProperty rt config source requireRequired primaryKeyName) acc =
      .ok acc') (he : acc'.errors = []) :
    acc.errors = [] ∧ (∀ p ∈ es, Accepts rt config source primaryKeyName p) ∧
      ∀ k, acc'.properties.get? k =
        ((Bindings.get? es k).bind
          (validatedValue rt config source requireRequired primaryKeyName k)).or
            (acc.properties.get? k) := by
  induction es generalizing acc with
  | nil =>
    obtain rfl := foldlM_nil_eq_ok.mp h
    exact ⟨he, by simp, fun k => by simp [Bindings.get?]⟩
  | cons p es ih =>
    obtain ⟨name, schema⟩ := p
    rw [List.map_cons, List.nodup_cons] at hnodup
    obtain ⟨mid, hmid, hrest⟩ := foldlM_cons_eq_ok.mp h
    obtain ⟨hmide, hacc, hget⟩ := ih hnodup.2 hrest
    obtain ⟨hstart, hhead, hstep⟩ := validateProperty_ok hmid hmide
    refine ⟨hstart, ?_, ?_⟩
    · intro q hq
      rcases List.mem_cons.mp hq with rfl | hq
      · exact hhead
      · exact hacc q hq
    · intro k
      rw [hget, hstep]
      by_cases hk : name = k
      · subst hk
        have habsent : Bindings.get? es name = none := Bindings.get?_eq_none.mpr hnodup.1
        simp [Bindings.get?, habsent]
      · simp [Bindings.get?, hk]

theorem validatePropertyPayload_ok {schemas : Dict String PropertySchema} {payload : Properties}
    {entityId : Option String} {r : PropertyValidationResult}
    (h : validatePropertyPayload rt config schemas payload requireRequired primaryKeyName entityId =
      .ok r) (he : r.errors = []) :
    (∀ p ∈ schemas.entries,
      Accepts rt config (payloadSource payload primaryKeyName) primaryKeyName p) ∧
    (∀ k, (payloadSource payload primaryKeyName).get? k ≠ none → schemas.get? k ≠ none) ∧
    ∀ k, r.properties.get? k = (schemas.get? k).bind
      (validatedValue rt config (payloadSource payload primaryKeyName) requireRequired
        primaryKeyName k) := by
  obtain ⟨source, keyErrors, hsource, hfold⟩ : ∃ source keyErrors,
      (∀ k, source.get? k = (payloadSource payload primaryKeyName).get? k) ∧
      schemas.entries.foldlM (validateProperty rt config source requireRequired primaryKeyName)
        { errors := keyErrors ++ ((source.keys.filter
          (fun k => !schemas.contains k)).insertionSort (· ≤ ·)).map
            (fun k => "unexpected property '" ++ k ++ "'") } = .ok r := by
    unfold validatePropertyPayload at h
    cases primaryKeyName with
    | none => exact ⟨payload, [], fun _ => rfl, h⟩
    | some pk =>
      cases hp : payload.get? pk with
      | none =>
        refine ⟨payload, [], ?_, by simpa [hp] using h⟩
        intro k
        simp only [payloadSource, Dict.get?_erase]
        split_ifs with hk
        · rw [← hk, hp]
        · rfl
      | some supplied => exact ⟨payload.erase pk, _, fun _ => rfl, by simpa [hp] using h⟩
  have hsame : ∀ p, Accepts rt config source primaryKeyName p ↔
      Accepts rt config (payloadSource payload primaryKeyName) primaryKeyName p := by
    intro p
    simp only [Accepts, hsource]
  have hvalue : ∀ name schema, validatedValue rt config source requireRequired primaryKeyName
      name schema = validatedValue rt config (payloadSource payload primaryKeyName) requireRequired
        primaryKeyName name schema := by
    intro name schema
    simp only [validatedValue, hsource]
  obtain ⟨hstart, hacc, hget⟩ := validateProperties_ok schemas.nodup hfold he
  refine ⟨fun p hp => (hsame p).mp (hacc p hp), ?_, ?_⟩
  · intro k hk hnone
    rw [← hsource] at hk
    obtain ⟨v, hv⟩ := Option.ne_none_iff_exists'.mp hk
    have hmem : k ∈ source.keys.filter (fun k => !schemas.contains k) := by
      rw [List.mem_filter]
      exact ⟨Dict.mem_keys.mpr ⟨v, hv⟩, by simp [Dict.contains, hnone]⟩
    have hnil := (List.append_eq_nil_iff.mp hstart).2
    rw [List.map_eq_nil_iff] at hnil
    have hlen := (List.perm_insertionSort (· ≤ ·)
      (source.keys.filter (fun k => !schemas.contains k))).length_eq
    rw [hnil, List.length_nil] at hlen
    rw [List.length_eq_zero_iff.mp hlen.symm] at hmem
    cases hmem
  · intro k
    rw [hget k]
    change ((schemas.get? k).bind _).or none = _
    rw [Option.or_none]
    congr 1
    funext schema
    exact hvalue k schema

end Specification

theorem replaceZulu_isoText (m : Moment) : replaceZulu (isoText m) = isoText m := by
  have hkeep : ∀ cs : List Char, 'Z' ∉ cs →
      cs.flatMap (fun c => if c = 'Z' then zulu else [c]) = cs := by
    intro cs h
    induction cs with
    | nil => rfl
    | cons c cs ih =>
      rw [List.mem_cons, not_or] at h
      rw [List.flatMap_cons, if_neg (Ne.symm h.1), ih h.2, List.singleton_append]
  unfold replaceZulu isoText
  rw [String.toList_ofList, hkeep _ (abbreviation_not_mem_isoformat m)]

variable {v u : Value} {rt : TextRuntime}

theorem parseDatetime_isoText {m : Moment} (h : parseDatetime rt v = .ok m) :
    parseDatetime rt (.str (isoText m)) = .ok m := by
  cases v with
  | str s =>
    simp only [parseDatetime] at h ⊢
    split at h
    · cases h
    · rename_i d hd
      split at h
      · rename_i m' hm
        obtain rfl := Except.ok.inj h
        obtain ⟨e, he, hutc⟩ := rt.datetimeFromIsoformat_isoText hd hm
        rw [replaceZulu_isoText, he]
        simp only [hutc]
      · cases h
  | null | bool b | int n | float f | array xs | object xs => cases h

theorem normalizeTyped_fixed {type : PropertyType} (h : normalizeTyped rt u type = .ok v) :
    normalizeTyped rt v type = .ok v := by
  cases type with
  | string =>
    cases u with
    | str s =>
      obtain rfl := Except.ok.inj h
      rfl
    | null | bool b | int n | float f | array xs | object xs => cases h
  | int | integer =>
    cases u with
    | int n =>
      obtain rfl := Except.ok.inj h
      rfl
    | null | bool b | str s | float f | array xs | object xs => cases h
  | bool =>
    cases u with
    | bool b =>
      obtain rfl := Except.ok.inj h
      rfl
    | null | int n | str s | float f | array xs | object xs => cases h
  | float | number =>
    cases u with
    | float f =>
      obtain rfl := Except.ok.inj h
      rfl
    | int n =>
      simp only [normalizeTyped] at h
      split at h
      · obtain rfl := Except.ok.inj h
        rfl
      · cases h
    | null | bool b | str s | array xs | object xs => cases h
  | date =>
    cases u with
    | str s =>
      simp only [normalizeTyped] at h
      split_ifs at h with hd
      obtain rfl := Except.ok.inj h
      simp [normalizeTyped, hd]
    | null | bool b | int n | float f | array xs | object xs => cases h
  | datetime =>
    simp only [normalizeTyped] at h
    split at h
    · rename_i m hm
      obtain rfl := Except.ok.inj h
      simp only [normalizeTyped, parseDatetime_isoText hm]
    · cases h
    · cases h
  | json =>
    simp only [normalizeTyped] at h
    split_ifs at h with hf
    obtain rfl := Except.ok.inj h
    simp [normalizeTyped, hf]

variable {config : CoreConfig} {schema : PropertySchema}

theorem normalizeValue_cases (h : normalizeValue rt u schema config = .ok v) :
    (u = .null ∧ v = .null) ∨ normalizeTyped rt u schema.type = .ok v := by
  unfold normalizeValue at h
  split_ifs at h with hnull hopt
  · exact .inl ⟨hnull, (Except.ok.inj h).symm⟩
  · obtain ⟨allowed, -, h⟩ := bind_eq_ok.mp h
    right
    split at h
    · split_ifs at h
      exact h
    · exact h

/-- A normal form is its own normal form wherever it is accepted again. -/
theorem normalizeValue_idem {v' : Value} (hu : normalizeValue rt u schema config = .ok v)
    (hv : normalizeValue rt v schema config = .ok v') : v' = v := by
  rcases normalizeValue_cases hv with ⟨rfl, rfl⟩ | htyped
  · rfl
  · rcases normalizeValue_cases hu with ⟨-, rfl⟩ | hfirst
    · unfold normalizeValue at hv
      rw [if_pos rfl] at hv
      split_ifs at hv
      exact (Except.ok.inj hv).symm
    · rw [normalizeTyped_fixed hfirst] at htyped
      exact (Except.ok.inj htyped).symm

end Cruxible.PropertyValidation
