import Cruxible.FallibleLoops
import Cruxible.PropertyValidation
import Mathlib.Data.List.DropRight

/-!
# Metadata envelopes of entities

The metadata of an entity is stored as one flat mapping. Its lifecycle and actor
slices stand under their own names and everything free-form stands nested under
`extra`. The decoder also takes a mapping without the nesting and folds the keys that
are not its own into `extra`.
-/
namespace Cruxible.MetadataEnvelopes
open JsonValue PythonDict AssertionState PropertyValidation Fallible
open Cruxible.Graph (strip)

/-- How instants are written, and what is read as one, both in UTC. -/
structure TimestampTexts where
  /-- `format_datetime`. -/
  format : Timestamp → String
  parse : Value → Option Timestamp

def invalid (field : String) : CoreError := .value s!"validation error: {field}"

def readText : Value → Option String
  | .str s => some s
  | _ => none

/-- A field that may be absent or null. -/
def readOptional {α : Type} (read : Value → Option α) (es : Bindings String Value)
    (field : String) : Except CoreError (Option α) :=
  match Bindings.get? es field with
  | none | some .null => .ok none
  | some v => match read v with
      | some a => .ok (some a)
      | none => .error (invalid field)

/-- `_nonblank` of a required field. -/
def readNonblank (es : Bindings String Value) (field : String) : Except CoreError String :=
  match Bindings.get? es field with
  | some (.str s) => if strip s = "" then .error (invalid field) else .ok (strip s)
  | _ => .error (invalid field)

def orNull (s : Option String) : Value := s.elim .null .str

def actorTypeText : ActorType → String
  | .humanUser => "human_user"
  | .serviceAccount => "service_account"
  | .system => "system"

def readActorType : Value → Option ActorType
  | .str "human_user" => some .humanUser
  | .str "service_account" => some .serviceAccount
  | .str "system" => some .system
  | _ => none

def actorFields : List String :=
  ["actor_type", "actor_id", "org_id", "operation_id", "timestamp", "request_id"]

variable (t : TimestampTexts)

/-- A context with its null fields left out. -/
def dumpActor (a : GovernedActorContext) : Bindings String Value :=
  [("actor_type", .str (actorTypeText a.actorType)), ("actor_id", .str a.actorId),
    ("org_id", .str a.orgId), ("operation_id", .str a.operationId),
    ("timestamp", .str (t.format a.timestamp))] ++
      (a.requestId.map fun s => ("request_id", Value.str s)).toList

def readRequestId (es : Bindings String Value) : Except CoreError (Option String) :=
  match Bindings.get? es "request_id" with
  | none | some .null => .ok none
  | some _ => (readNonblank es "request_id").map some

def readActor (es : Bindings String Value) : Except CoreError GovernedActorContext := do
  refuseIf (es.any fun e => !actorFields.contains e.1) (invalid "actor_context")
  let actorType ← ((Bindings.get? es "actor_type").bind readActorType).elim
    (.error (invalid "actor_type")) Except.ok
  let actorId ← readNonblank es "actor_id"
  let orgId ← readNonblank es "org_id"
  let operationId ← readNonblank es "operation_id"
  let timestamp ← ((Bindings.get? es "timestamp").bind t.parse).elim
    (.error (invalid "timestamp")) Except.ok
  let requestId ← readRequestId es
  pure { actorType := actorType, actorId := actorId, orgId := orgId, operationId := operationId,
         timestamp := timestamp, requestId := requestId }

def pointerFields : List String := ["claim_id", "entity_type", "entity_id"]

/-- `bool` of an optional text. -/
def truthy (s : Option String) : Bool := s.any (· ≠ "")

/-- `_validate_pointer_shape`. -/
def coherent (p : SupersessionPointer) : Bool :=
  truthy p.entityType == truthy p.entityId &&
    !(truthy p.claimId && truthy p.entityType) &&
    (truthy p.claimId || truthy p.entityType || !p.modelExtra.isEmpty)

def dumpPointer (p : SupersessionPointer) : Bindings String Value :=
  [("claim_id", orNull p.claimId), ("entity_type", orNull p.entityType),
    ("entity_id", orNull p.entityId)] ++ p.modelExtra

/-- The members of an open model that are none of its fields. -/
def unknownMembers (fields : List String) (es : Bindings String Value) : Bindings String Value :=
  es.filter fun e => !fields.contains e.1

def parsePointer (es : Bindings String Value) : Except CoreError SupersessionPointer := do
  let claimId ← readOptional readText es "claim_id"
  let entityType ← readOptional readText es "entity_type"
  let entityId ← readOptional readText es "entity_id"
  let p : SupersessionPointer :=
    { claimId := claimId, entityType := entityType, entityId := entityId,
      modelExtra := unknownMembers pointerFields es }
  refuseIf (coherent p = false) (invalid "supersession pointer")
  pure p

/-- `_tolerate_incoherent_stored_pointer`. -/
def readPointer (es : Bindings String Value) (field : String) : Option SupersessionPointer :=
  match Bindings.get? es field with
  | some (.object ps) => (parsePointer ps).toOption
  | _ => none

def readEntityStatus : Value → Option EntityLifecycleStatus
  | .str "live" => some .live
  | .str "superseded" => some .superseded
  | .str "retired" => some .retired
  | _ => none

def lifecycleFields : List String :=
  ["status", "reason", "effective_from", "effective_until", "closed_at", "closed_by",
    "supersedes", "superseded_by"]

def dumpLifecycle (l : EntityLifecycleState) : Bindings String Value :=
  [("status", .str l.status.text), ("reason", orNull l.reason),
    ("effective_from", orNull (l.effectiveFrom.map t.format)),
    ("effective_until", orNull (l.effectiveUntil.map t.format)),
    ("closed_at", orNull (l.closedAt.map t.format)), ("closed_by", orNull l.closedBy),
    ("supersedes", l.supersedes.elim .null fun p => .object (dumpPointer p)),
    ("superseded_by", l.supersededBy.elim .null fun p => .object (dumpPointer p))] ++ l.modelExtra

/-- The status, `live` where there is none. -/
def readStatus (es : Bindings String Value) : Except CoreError EntityLifecycleStatus :=
  match Bindings.get? es "status" with
  | none => .ok .live
  | some v => (readEntityStatus v).elim (.error (invalid "status")) Except.ok

def readLifecycle (es : Bindings String Value) : Except CoreError EntityLifecycleState := do
  let status ← readStatus es
  let reason ← readOptional readText es "reason"
  let effectiveFrom ← readOptional t.parse es "effective_from"
  let effectiveUntil ← readOptional t.parse es "effective_until"
  let closedAt ← readOptional t.parse es "closed_at"
  let closedBy ← readOptional readText es "closed_by"
  pure { status := status, reason := reason, effectiveFrom := effectiveFrom,
         effectiveUntil := effectiveUntil, closedAt := closedAt, closedBy := closedBy,
         supersedes := readPointer es "supersedes", supersededBy := readPointer es "superseded_by",
         modelExtra := unknownMembers lifecycleFields es }

/-- The names of the slices and of the nested mapping. -/
def ownedKeys : List String := ["lifecycle", "actor_context", "extra"]

/-- `_serialize`, which drops what is not set. -/
def toMetadataDict (m : EntityMetadata) : Properties :=
  let out := m.lifecycle.elim ∅ fun l => Dict.set ∅ "lifecycle" (.object (dumpLifecycle t l))
  let out := m.actorContext.elim out fun a => out.set "actor_context" (.object (dumpActor t a))
  if m.extra.entries = [] then out else out.set "extra" (.object m.extra.entries)

/-- The nested mapping, which may be absent or null. -/
def nestedExtra (payload : Properties) : Except CoreError Properties :=
  match payload.get? "extra" with
  | none | some .null => .ok ∅
  | some (.object es) => .ok (.ofList es)
  | some _ => .error (.value "entity metadata 'extra' must be a mapping")

/-- The keys beside the slices. -/
def siblings (payload : Properties) : Bindings String Value :=
  payload.entries.filter fun e => !ownedKeys.contains e.1

/-- A slice that may be absent or null. -/
def readSlice {α : Type} (read : Bindings String Value → Except CoreError α) (payload : Properties)
    (field : String) : Except CoreError (Option α) :=
  match payload.get? field with
  | none | some .null => .ok none
  | some (.object es) => (read es).map some
  | some _ => .error (invalid field)

/-- `_coerce_mapping` and the validation of the fields. -/
def decodeMapping (payload : Properties) : Except CoreError EntityMetadata := do
  let nested ← nestedExtra payload
  let lifecycle ← readSlice (readLifecycle t) payload "lifecycle"
  let actorContext ← readSlice (readActor t) payload "actor_context"
  pure { lifecycle := lifecycle, actorContext := actorContext,
         extra := (siblings payload).foldl (fun d e => d.set e.1 e.2) nested }

inductive MetadataInput where
  | typed (m : EntityMetadata)
  | json (v : Value)

/-- `from_metadata`. -/
def fromMetadata : MetadataInput → Except CoreError EntityMetadata
  | .typed m => .ok m
  | .json .null => .ok {}
  | .json (.object es) => decodeMapping t (.ofList es)
  | .json _ => .error (.value "entity metadata must be a mapping")

structure EntityLifecycleInput where
  status : EntityLifecycleStatus
  reason : Option String := none

/-- The lifecycle state that an input stands for. -/
def EntityLifecycleInput.state (l : EntityLifecycleInput) : EntityLifecycleState :=
  { status := l.status, reason := l.reason }

/-- `_refuse_terminal_lifecycle`, where the status is a terminal one. -/
def refuseTerminalInput : Option EntityLifecycleInput → Except CoreError Unit
  | some l => refuseIf l.status.terminal (.terminalLifecycleWriteRefused "entity" l.status.text "live")
  | none => .ok ()

/-- `entity_metadata_with_lifecycle`. -/
def entityMetadataWithLifecycle (metadata : Option Properties)
    (lifecycle : Option EntityLifecycleInput) : Except CoreError Properties := do
  refuseTerminalInput lifecycle
  pure (toMetadataDict t
    { lifecycle := lifecycle.map EntityLifecycleInput.state, extra := metadata.getD ∅ })

/-- The mapping with the actor of the write, if there is one. -/
def stampActor (flat : Properties) (actor : Option GovernedActorContext) : Properties :=
  actor.elim flat fun a => flat.set "actor_context" (.object (dumpActor t a))

theorem dropWhile_stripped (cs : List Char) (p : Char → Bool) :
    (((cs.dropWhile p).reverse.dropWhile p).reverse).dropWhile p =
      ((cs.dropWhile p).reverse.dropWhile p).reverse := by
  have hprefix : ((cs.dropWhile p).reverse.dropWhile p).reverse <+: cs.dropWhile p := by
    have hsuffix := List.dropWhile_suffix p (l := (cs.dropWhile p).reverse)
    rw [← List.reverse_prefix, List.reverse_reverse] at hsuffix
    exact hsuffix
  cases hl : ((cs.dropWhile p).reverse.dropWhile p).reverse with
  | nil => rfl
  | cons c rest =>
    have ⟨tail, htail⟩ := hprefix
    rw [hl] at htail
    have hhead := List.head?_dropWhile_not p cs
    rw [← htail] at hhead
    simp only [List.cons_append, List.head?_cons] at hhead
    simp [hhead]

/-- Stripping once is enough. -/
theorem strip_strip (s : String) : strip (strip s) = strip s := by
  unfold strip
  simp only [String.toList_ofList, dropWhile_stripped, List.reverse_reverse,
    List.dropWhile_idempotent]

def NonblankText (s : String) : Prop := strip s = s ∧ s ≠ ""

structure ValidActor (a : GovernedActorContext) : Prop where
  actorId : NonblankText a.actorId
  orgId : NonblankText a.orgId
  operationId : NonblankText a.operationId
  requestId : ∀ s ∈ a.requestId, NonblankText s

structure ValidPointer (p : SupersessionPointer) : Prop where
  coherent : coherent p = true
  members : ∀ e ∈ p.modelExtra, e.1 ∉ pointerFields

structure ValidLifecycle (l : EntityLifecycleState) : Prop where
  supersedes : ∀ p ∈ l.supersedes, ValidPointer p
  supersededBy : ∀ p ∈ l.supersededBy, ValidPointer p
  members : ∀ e ∈ l.modelExtra, e.1 ∉ lifecycleFields

structure ValidMetadata (m : EntityMetadata) : Prop where
  lifecycle : ∀ l ∈ m.lifecycle, ValidLifecycle l
  actorContext : ∀ a ∈ m.actorContext, ValidActor a

variable {es : Bindings String Value} {field : String} {payload d : Properties} {m : EntityMetadata}
  {fields : List String}

theorem unknownMembers_append {extra : Bindings String Value} (hes : ∀ e ∈ es, e.1 ∈ fields)
    (hextra : ∀ e ∈ extra, e.1 ∉ fields) : unknownMembers fields (es ++ extra) = extra := by
  rw [unknownMembers, List.filter_append, List.filter_eq_nil_iff.mpr, List.filter_eq_self.mpr,
    List.nil_append]
  · intro e he
    simpa using hextra e he
  · intro e he
    simpa using hes e he

theorem unknownMembers_unknown : ∀ e ∈ unknownMembers fields es, e.1 ∉ fields := by
  intro e he
  simpa using (List.mem_filter.mp he).2

theorem readOptional_of_get? {α : Type} {read : Value → Option α} {write : α → Value}
    (hread : ∀ a, read (write a) = some a) (hnull : ∀ a, write a ≠ .null) {a : Option α}
    (h : Bindings.get? es field = some (a.elim .null write)) :
    readOptional read es field = .ok a := by
  unfold readOptional
  rw [h]
  cases a with
  | none => rfl
  | some a =>
    simp only [Option.elim_some]
    split
    · next heq => cases heq
    · next heq => exact absurd (Option.some.inj heq) (hnull a)
    · next heq =>
        cases heq
        rw [hread]

theorem readText_of_get? {s : Option String} (h : Bindings.get? es field = some (orNull s)) :
    readOptional readText es field = .ok s := by
  have hwritten : Bindings.get? es field = some (s.elim .null Value.str) := h
  refine readOptional_of_get? ?_ ?_ hwritten
  · exact fun _ => rfl
  · exact fun _ => Value.noConfusion

theorem parsePointer_dump {p : SupersessionPointer} (hp : ValidPointer p) :
    parsePointer (dumpPointer p) = .ok p := by
  have hextra : unknownMembers pointerFields (dumpPointer p) = p.modelExtra :=
    unknownMembers_append (by simp [pointerFields]) hp.members
  have hclaim : readOptional readText (dumpPointer p) "claim_id" = .ok p.claimId :=
    readText_of_get? rfl
  have htype : readOptional readText (dumpPointer p) "entity_type" = .ok p.entityType :=
    readText_of_get? rfl
  have hid : readOptional readText (dumpPointer p) "entity_id" = .ok p.entityId :=
    readText_of_get? rfl
  have hshape : refuseIf (coherent p = false) (invalid "supersession pointer") = .ok () := by
    rw [hp.coherent]
    rfl
  unfold parsePointer
  rw [hclaim, htype, hid, hextra]
  change (refuseIf (coherent p = false) (invalid "supersession pointer") >>= fun _ => pure p) = _
  rw [hshape]
  rfl

theorem readPointer_of_get? {p : Option SupersessionPointer} (hp : ∀ q ∈ p, ValidPointer q)
    (h : Bindings.get? es field = some (p.elim .null fun q => .object (dumpPointer q))) :
    readPointer es field = p := by
  unfold readPointer
  rw [h]
  cases p with
  | none => rfl
  | some q =>
    simp only [Option.elim_some]
    rw [parsePointer_dump (hp q rfl)]
    rfl

theorem readEntityStatus_text (s : EntityLifecycleStatus) :
    readEntityStatus (.str s.text) = some s := by
  cases s <;> rfl

variable {l : EntityLifecycleState} {a : GovernedActorContext}

variable {t} in
theorem readLifecycle_dump (htexts : ∀ w, t.parse (.str (t.format w)) = some w)
    (hl : ValidLifecycle l) : readLifecycle t (dumpLifecycle t l) = .ok l := by
  have hinstant : ∀ {field : String} {w : Option Timestamp},
      Bindings.get? (dumpLifecycle t l) field = some (orNull (w.map t.format)) →
        readOptional t.parse (dumpLifecycle t l) field = .ok w := by
    intro field w h
    have hwritten : Bindings.get? (dumpLifecycle t l) field =
        some (w.elim .null fun v => .str (t.format v)) := by
      rw [h]
      cases w <;> rfl
    refine readOptional_of_get? ?_ ?_ hwritten
    · exact htexts
    · exact fun _ => Value.noConfusion
  have hextra : unknownMembers lifecycleFields (dumpLifecycle t l) = l.modelExtra :=
    unknownMembers_append (by simp [lifecycleFields]) hl.members
  have hreason : readOptional readText (dumpLifecycle t l) "reason" = .ok l.reason :=
    readText_of_get? rfl
  have hfrom : readOptional t.parse (dumpLifecycle t l) "effective_from" = .ok l.effectiveFrom :=
    hinstant rfl
  have huntil : readOptional t.parse (dumpLifecycle t l) "effective_until" = .ok l.effectiveUntil :=
    hinstant rfl
  have hclosed : readOptional t.parse (dumpLifecycle t l) "closed_at" = .ok l.closedAt :=
    hinstant rfl
  have hby : readOptional readText (dumpLifecycle t l) "closed_by" = .ok l.closedBy :=
    readText_of_get? rfl
  have hsupersedes : readPointer (dumpLifecycle t l) "supersedes" = l.supersedes :=
    readPointer_of_get? hl.supersedes rfl
  have hsuperseded : readPointer (dumpLifecycle t l) "superseded_by" = l.supersededBy :=
    readPointer_of_get? hl.supersededBy rfl
  have hstatus : readStatus (dumpLifecycle t l) = .ok l.status := by
    have hget : Bindings.get? (dumpLifecycle t l) "status" = some (.str l.status.text) := rfl
    unfold readStatus
    rw [hget]
    simp only [readEntityStatus_text]
    rfl
  unfold readLifecycle
  rw [hstatus, hreason, hfrom, huntil, hclosed, hby, hsupersedes, hsuperseded, hextra]
  rfl

theorem readActorType_text (a : ActorType) : readActorType (.str (actorTypeText a)) = some a := by
  cases a <;> rfl

theorem readNonblank_of_get? {s : String} (hs : NonblankText s)
    (h : Bindings.get? es field = some (.str s)) : readNonblank es field = .ok s := by
  unfold readNonblank
  rw [h]
  simp only [hs.1, if_neg hs.2]

variable {t} in
theorem readActor_dump (htexts : ∀ w, t.parse (.str (t.format w)) = some w) (ha : ValidActor a) :
    readActor t (dumpActor t a) = .ok a := by
  have hknown : refuseIf ((dumpActor t a).any fun e => !actorFields.contains e.1)
      (invalid "actor_context") = .ok () := by
    rw [refuseIf_eq_ok, Bool.not_eq_true, List.any_eq_false]
    have hkeys : ∀ k ∈ (dumpActor t a).map Prod.fst, k ∈ actorFields := by
      cases hr : a.requestId <;> simp [dumpActor, hr, actorFields]
    intro e he
    simpa using hkeys e.1 (List.mem_map_of_mem he)
  have htype : Bindings.get? (dumpActor t a) "actor_type" =
    some (.str (actorTypeText a.actorType)) := rfl
  have hid : readNonblank (dumpActor t a) "actor_id" = .ok a.actorId :=
    readNonblank_of_get? ha.actorId rfl
  have horg : readNonblank (dumpActor t a) "org_id" = .ok a.orgId :=
    readNonblank_of_get? ha.orgId rfl
  have hoperation : readNonblank (dumpActor t a) "operation_id" = .ok a.operationId :=
    readNonblank_of_get? ha.operationId rfl
  have htime : Bindings.get? (dumpActor t a) "timestamp" = some (.str (t.format a.timestamp)) := rfl
  have hrequest : readRequestId (dumpActor t a) = .ok a.requestId := by
    unfold readRequestId
    cases hr : a.requestId with
    | none =>
      have hnone : Bindings.get? (dumpActor t a) "request_id" = none := by
        simp [dumpActor, hr, Bindings.get?]
      rw [hnone]
    | some s =>
      have hsome : Bindings.get? (dumpActor t a) "request_id" = some (.str s) := by
        simp [dumpActor, hr, Bindings.get?]
      rw [readNonblank_of_get? (ha.requestId s hr) hsome, hsome]
      rfl
  unfold readActor
  rw [hknown, htype, hid, horg, hoperation, htime, hrequest]
  simp only [Option.bind_some, readActorType_text, htexts]
  rfl

theorem siblings_eq_nil (h : ∀ k ∈ payload.keys, k ∈ ownedKeys) : siblings payload = [] := by
  rw [siblings, List.filter_eq_nil_iff]
  intro e he
  simpa using h e.1 (List.mem_map_of_mem he)

/-- A mapping of the slices, as the serializer writes it, with its keys in some order. -/
structure Stored (m : EntityMetadata) (payload : Properties) : Prop where
  owned : ∀ k ∈ payload.keys, k ∈ ownedKeys
  lifecycle : payload.get? "lifecycle" =
    m.lifecycle.map fun l => Value.object (dumpLifecycle t l)
  actorContext : payload.get? "actor_context" =
    m.actorContext.map fun a => Value.object (dumpActor t a)
  extra : payload.get? "extra" =
    if m.extra.entries = [] then none else some (.object m.extra.entries)

theorem stored_toMetadataDict (m : EntityMetadata) : Stored t m (toMetadataDict t m) := by
  constructor
  case owned =>
    intro k hk
    by_contra hother
    simp only [ownedKeys, List.mem_cons, List.not_mem_nil, or_false, not_or] at hother
    obtain ⟨hlifecycle, hactor, hextra⟩ := hother
    obtain ⟨v, hv⟩ := Dict.mem_keys.mp hk
    unfold toMetadataDict at hv
    cases hl : m.lifecycle <;> cases ha : m.actorContext <;>
      by_cases hx : m.extra.entries = [] <;>
      simp [hl, ha, hx, Dict.get?_set, Ne.symm hlifecycle, Ne.symm hactor, Ne.symm hextra] at hv
  case lifecycle =>
    unfold toMetadataDict
    cases m.lifecycle <;> cases m.actorContext <;> by_cases hx : m.extra.entries = [] <;>
      simp [hx, Dict.get?_set]
  case actorContext =>
    unfold toMetadataDict
    cases m.lifecycle <;> cases m.actorContext <;> by_cases hx : m.extra.entries = [] <;>
      simp [hx, Dict.get?_set]
  case extra =>
    unfold toMetadataDict
    cases m.lifecycle <;> cases m.actorContext <;> by_cases hx : m.extra.entries = [] <;>
      simp [hx, Dict.get?_set]

variable {t}

theorem Stored.stamp (h : Stored t m payload) (a : GovernedActorContext) :
    Stored t { m with actorContext := some a } (stampActor t payload (some a)) := by
  constructor
  case owned =>
    intro k hk
    simp only [stampActor, Option.elim_some, Dict.keys_set] at hk
    split_ifs at hk
    · exact h.owned k hk
    · rcases List.mem_append.mp hk with hk | hk
      · exact h.owned k hk
      · rw [List.mem_singleton.mp hk]
        simp [ownedKeys]
  case lifecycle => simp [stampActor, Dict.get?_set, h.lifecycle]
  case actorContext => simp [stampActor]
  case extra => simp [stampActor, Dict.get?_set, h.extra]

/-- Decoding undoes encoding. -/
theorem Stored.decode (htexts : ∀ w, t.parse (.str (t.format w)) = some w) (hm : ValidMetadata m)
    (h : Stored t m payload) : decodeMapping t payload = .ok m := by
  have hextra : nestedExtra payload = .ok m.extra := by
    unfold nestedExtra
    rw [h.extra]
    split_ifs with hempty
    · exact congrArg Except.ok (Dict.ext_entries hempty.symm)
    · exact congrArg Except.ok (Dict.ofList_entries m.extra)
  have hlifecycle : readSlice (readLifecycle t) payload "lifecycle" = .ok m.lifecycle := by
    unfold readSlice
    rw [h.lifecycle]
    cases hl : m.lifecycle with
    | none => rfl
    | some l =>
      simp only [Option.map_some]
      rw [readLifecycle_dump htexts (hm.lifecycle l hl)]
      rfl
  have hactor : readSlice (readActor t) payload "actor_context" = .ok m.actorContext := by
    unfold readSlice
    rw [h.actorContext]
    cases ha : m.actorContext with
    | none => rfl
    | some a =>
      simp only [Option.map_some]
      rw [readActor_dump htexts (hm.actorContext a ha)]
      rfl
  unfold decodeMapping
  rw [hextra, hlifecycle, hactor, siblings_eq_nil h.owned]
  rfl

theorem fromMetadata_entries (d : Properties) :
    fromMetadata t (.json (.object d.entries)) = decodeMapping t d := by
  rw [fromMetadata, Dict.ofList_entries]

theorem nonblank_of_read {s : String} (h : readNonblank es field = .ok s) : NonblankText s := by
  unfold readNonblank at h
  split at h
  · split_ifs at h with hblank
    cases h
    exact ⟨strip_strip _, hblank⟩
  · cases h

theorem validActor_of_read (h : readActor t es = .ok a) : ValidActor a := by
  unfold readActor at h
  simp only [bind_eq_ok, pure_eq_ok] at h
  obtain ⟨-, -, actorType, -, actorId, hid, orgId, horg, operationId, hoperation, timestamp, -,
    requestId, hrequest, rfl⟩ := h
  refine ⟨nonblank_of_read hid, nonblank_of_read horg, nonblank_of_read hoperation, ?_⟩
  intro s hs
  unfold readRequestId at hrequest
  split at hrequest
  · cases hrequest
    cases hs
  · cases hrequest
    cases hs
  · obtain ⟨r, hr, rfl⟩ := map_eq_ok.mp hrequest
    cases hs
    exact nonblank_of_read hr

theorem validPointer_of_read : ∀ p ∈ readPointer es field, ValidPointer p := by
  intro p hp
  unfold readPointer at hp
  split at hp
  · next ps _ =>
      cases hparse : parsePointer ps with
      | error e =>
        rw [hparse] at hp
        cases hp
      | ok q =>
        rw [hparse] at hp
        cases hp
        unfold parsePointer at hparse
        simp only [bind_eq_ok, pure_eq_ok, refuseIf_eq_ok] at hparse
        obtain ⟨claimId, -, entityType, -, entityId, -, -, hshape, rfl⟩ := hparse
        exact ⟨Bool.of_not_eq_false hshape, unknownMembers_unknown⟩
  · cases hp

theorem validLifecycle_of_read (h : readLifecycle t es = .ok l) : ValidLifecycle l := by
  unfold readLifecycle at h
  simp only [bind_eq_ok, pure_eq_ok] at h
  obtain ⟨status, -, reason, -, effectiveFrom, -, effectiveUntil, -, closedAt, -, closedBy, -,
    rfl⟩ := h
  exact ⟨validPointer_of_read, validPointer_of_read, unknownMembers_unknown⟩

theorem readSlice_some {α : Type} {read : Bindings String Value → Except CoreError α} {a : α}
    (h : readSlice read payload field = .ok (some a)) : ∃ es, read es = .ok a := by
  unfold readSlice at h
  split at h
  · cases h
  · cases h
  · next es _ =>
      obtain ⟨b, hb, hsome⟩ := map_eq_ok.mp h
      cases hsome
      exact ⟨es, hb⟩
  · cases h

theorem valid_of_decode (h : decodeMapping t payload = .ok m) : ValidMetadata m := by
  unfold decodeMapping at h
  simp only [bind_eq_ok, pure_eq_ok] at h
  obtain ⟨nested, -, lifecycle, hlifecycle, actorContext, hactor, rfl⟩ := h
  constructor
  case lifecycle =>
    rintro l rfl
    obtain ⟨es, hes⟩ := readSlice_some hlifecycle
    exact validLifecycle_of_read hes
  case actorContext =>
    rintro a rfl
    obtain ⟨es, hes⟩ := readSlice_some hactor
    exact validActor_of_read hes

/-- Decoded as it is, encoded and decoded again, the mapping has all its keys in `extra` and
sets no lifecycle. -/
def Kept (t : TimestampTexts) (d : Properties) : Prop :=
  ∃ m, (fromMetadata t (.json (.object d.entries)) >>= fun m =>
      fromMetadata t (.json (.object (toMetadataDict t m).entries))) = .ok m ∧
    m.lifecycle = none ∧ ∀ k v, d.get? k = some v → m.extra.get? k = some v

/-- None of the keys is one that the envelope owns. -/
def Unowned (d : Properties) : Prop := ∀ k ∈ ownedKeys, k ∉ d.keys

theorem siblings_of_unowned (h : Unowned d) : siblings d = d.entries := by
  rw [siblings, List.filter_eq_self]
  intro e he
  simpa using fun hk => h e.1 hk (List.mem_map_of_mem he)

theorem decode_of_unowned (h : Unowned d) : decodeMapping t d = .ok { extra := d } := by
  have hnone : ∀ k ∈ ownedKeys, d.get? k = none := fun k hk => Dict.get?_eq_none.mpr (h k hk)
  have hextra : nestedExtra d = .ok ∅ := by
    rw [nestedExtra, hnone "extra" (by simp [ownedKeys])]
  have hlifecycle : readSlice (readLifecycle t) d "lifecycle" = .ok none := by
    rw [readSlice, hnone "lifecycle" (by simp [ownedKeys])]
  have hactor : readSlice (readActor t) d "actor_context" = .ok none := by
    rw [readSlice, hnone "actor_context" (by simp [ownedKeys])]
  unfold decodeMapping
  rw [hextra, hlifecycle, hactor, siblings_of_unowned h]
  change Except.ok { extra := Dict.ofList d.entries : EntityMetadata } = _
  rw [Dict.ofList_entries]

theorem extra_of_decode (h : decodeMapping t d = .ok m) :
    ∃ nested, nestedExtra d = .ok nested ∧
      ∀ k ∈ ownedKeys, m.extra.get? k = nested.get? k := by
  unfold decodeMapping at h
  simp only [bind_eq_ok, pure_eq_ok] at h
  obtain ⟨nested, hnested, lifecycle, -, actorContext, -, rfl⟩ := h
  refine ⟨nested, hnested, fun k hk => ?_⟩
  have hbeside : Bindings.get? (siblings d) k = none := by
    rw [Bindings.get?_eq_none]
    intro hmem
    obtain ⟨e, he, rfl⟩ := List.mem_map.mp hmem
    have hother := (List.mem_filter.mp he).2
    simp [hk] at hother
  have hnodup : ((siblings d).map Prod.fst).Nodup :=
    d.nodup.sublist (List.filter_sublist.map Prod.fst)
  rw [Dict.get?_foldl_set _ hnodup, hbeside, Option.none_or]

/-- No mapping has itself among its entries. -/
theorem object_not_mem (es : Bindings String Value) (k : String) : (k, Value.object es) ∉ es := by
  intro hmem
  have hlt := List.sizeOf_lt_of_mem hmem
  simp only [Prod.mk.sizeOf_spec, Value.object.sizeOf_spec] at hlt
  omega

theorem kept_iff (htexts : ∀ w, t.parse (.str (t.format w)) = some w) (d : Properties) :
    Kept t d ↔ Unowned d := by
  constructor
  case mp =>
    rintro ⟨m, hrun, -, hkept⟩ k hk hkey
    obtain ⟨n, hn, hagain⟩ := bind_eq_ok.mp hrun
    rw [fromMetadata_entries] at hn
    rw [fromMetadata_entries,
      (stored_toMetadataDict t n).decode htexts (valid_of_decode hn)] at hagain
    cases hagain
    obtain ⟨nested, hnested, howned⟩ := extra_of_decode hn
    obtain ⟨v, hv⟩ := Dict.mem_keys.mp hkey
    have hin : nested.get? k = some v := (howned k hk).symm.trans (hkept k v hv)
    unfold nestedExtra at hnested
    split at hnested
    · cases hnested
      cases hin
    · cases hnested
      cases hin
    · next es hes =>
        cases hnested
        have hself := (howned "extra" (by simp [ownedKeys])).symm.trans (hkept _ _ hes)
        exact object_not_mem es "extra" (Dict.mem_of_get?_ofList hself)
    · cases hnested
  case mpr =>
    intro h
    have hvalid : ValidMetadata { extra := d } := by
      constructor
      case lifecycle =>
        intro l hl
        cases hl
      case actorContext =>
        intro a ha
        cases ha
    refine ⟨{ extra := d }, bind_eq_ok.mpr ⟨{ extra := d }, ?_, ?_⟩, rfl, fun k v hv => hv⟩
    · rw [fromMetadata_entries, decode_of_unowned h]
    · rw [fromMetadata_entries, (stored_toMetadataDict t _).decode htexts hvalid]

theorem validLifecycle_of_input {lifecycle : Option EntityLifecycleInput} :
    ∀ l ∈ lifecycle.map EntityLifecycleInput.state, ValidLifecycle l := by
  intro l hl
  obtain ⟨input, -, rfl⟩ := Option.map_eq_some_iff.mp hl
  constructor
  case supersedes | supersededBy =>
    intro p hp
    cases hp
  case members =>
    intro e he
    cases he

/-- Envelopes are decoded as they were encoded. Free-form keys of the write channel are kept
whatever they are called, and only its lifecycle input sets a lifecycle; a mapping that is
decoded as it is keeps its keys just if none is one of the envelope's own. -/
theorem metadata_round_trip (htexts : ∀ w, t.parse (.str (t.format w)) = some w) :
    (∀ m : { m : EntityMetadata // ValidMetadata m },
      fromMetadata t (.json (.object (toMetadataDict t m).entries)) = .ok m.val) ∧
    (∀ (metadata : Option Properties) (lifecycle : Option EntityLifecycleInput)
        (actor : Option { a : GovernedActorContext // ValidActor a }),
      (entityMetadataWithLifecycle t metadata lifecycle >>= fun flat =>
        fromMetadata t (.json (.object (stampActor t flat (actor.map Subtype.val)).entries))) =
      refuseTerminalInput lifecycle >>= fun _ =>
        .ok { lifecycle := lifecycle.map EntityLifecycleInput.state,
              actorContext := actor.map Subtype.val, extra := metadata.getD ∅ }) ∧
    ∀ d, Kept t d ↔ Unowned d := by
  refine ⟨fun m => ?_, fun metadata lifecycle actor => ?_, kept_iff htexts⟩
  · rw [fromMetadata_entries]
    exact (stored_toMetadataDict t m).decode htexts m.property
  · unfold entityMetadataWithLifecycle
    cases refuseTerminalInput lifecycle with
    | error e => rfl
    | ok u =>
        have hstored := stored_toMetadataDict t
          { lifecycle := lifecycle.map EntityLifecycleInput.state, extra := metadata.getD ∅ }
        change fromMetadata t (.json (.object (stampActor t (toMetadataDict t
          { lifecycle := lifecycle.map EntityLifecycleInput.state, extra := metadata.getD ∅ })
            (actor.map Subtype.val)).entries)) = _
        rw [fromMetadata_entries]
        cases actor with
        | none =>
            refine hstored.decode htexts ⟨validLifecycle_of_input, ?_⟩
            intro a ha
            cases ha
        | some a =>
            refine (hstored.stamp a.val).decode htexts ⟨validLifecycle_of_input, ?_⟩
            intro b hb
            cases hb
            exact a.property

/-- Counts as strokes. -/
def countTexts : TimestampTexts where
  format w := String.ofList (List.replicate w '|')
  parse v := (readText v).map String.length

theorem countTexts_parse (w : Timestamp) :
    countTexts.parse (.str (countTexts.format w)) = some w := by
  simp [countTexts, readText]

def retiredByHand : Properties := Dict.empty.set "lifecycle" (.object [("status", .str "retired")])

theorem retired_in_extra :
    (entityMetadataWithLifecycle countTexts (some retiredByHand) none >>= fun flat =>
        fromMetadata countTexts (.json (.object (stampActor countTexts flat none).entries))) =
      .ok { extra := retiredByHand } :=
  (metadata_round_trip countTexts_parse).2.1 (some retiredByHand) none none

/-- Decoded as it is, the mapping retires the entity. -/
theorem retired_by_a_key :
    fromMetadata countTexts (.json (.object retiredByHand.entries)) =
      .ok { lifecycle := some { status := .retired } } ∧
    ¬Kept countTexts retiredByHand := by
  refine ⟨by rfl, ?_⟩
  intro h
  exact (kept_iff countTexts_parse retiredByHand).mp h "lifecycle" (by decide)
    (by decide)

end Cruxible.MetadataEnvelopes
