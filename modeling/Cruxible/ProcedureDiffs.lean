import Cruxible.StateDiffs
import Cruxible.FallibleLoops
import Cruxible.Timestamps

/-!
# Diffs of procedures

`diff_procedures` of `service/state_diff.py`. The states of two records with one id are
compared with `==`, and so are their properties, while the artifact is digested as
canonical JSON. A number that is only spelled differently is therefore no change.
-/
namespace Cruxible.ProcedureDiffs
open JsonValue PythonDict Fallible ComparisonStates StateDiffs Timestamps
open AssertionState (Properties)
open Value

/-- `ProcedureRecord`; the definition, the references and the actor contexts are the JSON
of their models without nulls. -/
structure ProcedureRecord where
  procedureId : String
  definition : List (String × Value)
  definitionDigest : String
  status : String := "pending"
  version : Nat := 1
  supersedesProcedureId : Option String := none
  evidenceRefs : List Value := []
  proposedActorContext : Option (List (String × Value)) := none
  proposedAt : Datetime
  resolvedActorContext : Option (List (String × Value)) := none
  resolvedAt : Option Datetime := none
  retiredActorContext : Option (List (String × Value)) := none
  retiredAt : Option Datetime := none
  reason : Option String := none
  acceptanceConfigDigest : Option String := none
  acceptanceLockDigest : Option String := none

/-- What the diff can raise. -/
inductive DiffError where
  | overflow (message : String)
  | assertion (message : String)
  deriving DecidableEq

/-- `format_datetime(ensure_utc(value))`. -/
def formatDatetime (d : Datetime) : Except DiffError Value :=
  match ensureUtc d with
  | some m => .ok (.str (String.ofList (isoformat m)))
  | none => .error (.overflow "date value out of range")

def formatOptional : Option Datetime → Except DiffError (Option Value)
  | none => .ok none
  | some d => (formatDatetime d).map some

/-- The dump of a record without its nulls, its timestamps in UTC. -/
def ProcedureRecord.payload (r : ProcedureRecord) : Except DiffError (List (String × Value)) := do
  let proposedAt ← formatDatetime r.proposedAt
  let resolvedAt ← formatOptional r.resolvedAt
  let retiredAt ← formatOptional r.retiredAt
  .ok ([("procedure_id", some (.str r.procedureId)), ("definition", some (.object r.definition)),
    ("definition_digest", some (.str r.definitionDigest)), ("status", some (.str r.status)),
    ("version", some (.int r.version)),
    ("supersedes_procedure_id", r.supersedesProcedureId.map .str),
    ("evidence_refs", some (.array r.evidenceRefs)),
    ("proposed_actor_context", r.proposedActorContext.map .object),
    ("proposed_at", some proposedAt),
    ("resolved_actor_context", r.resolvedActorContext.map .object), ("resolved_at", resolvedAt),
    ("retired_actor_context", r.retiredActorContext.map .object), ("retired_at", retiredAt),
    ("reason", r.reason.map .str),
    ("acceptance_config_digest", r.acceptanceConfigDigest.map .str),
    ("acceptance_lock_digest", r.acceptanceLockDigest.map .str)].filterMap
      fun f => f.2.map fun v => (f.1, v))

/-- `_procedure_state`. -/
def procedureState (r : ProcedureRecord) : Except DiffError Properties :=
  r.payload.map fun payload => normalizeProperties (Dict.ofList payload)

/-- The states of a list of records by id, of which a later record wins. -/
def procedureStates (records : List ProcedureRecord) :
    Except DiffError (Dict String Properties) := do
  let states ← records.mapM fun r => do
    let state ← procedureState r
    .ok (r.procedureId, state)
  .ok (Dict.ofList states)

structure PresentItem where
  procedureId : String
  state : Properties

structure ChangedItem where
  procedureId : String
  channels : List Channel := [.properties]
  annotationOnly : Bool := false
  properties : PropertyChannel

abbrev ProcedureSection := SectionDiff PresentItem ChangedItem

def changedItem (procedureId : String) (before after : Properties) : ChangedItem where
  procedureId := procedureId
  properties :=
    { delta := propertyDelta after before
      changes := (propertyValueChanges after before).map fun c =>
        { c with
          fromValue := normalizeJsonValue c.fromValue
          toValue := normalizeJsonValue c.toValue } }

/-- One turn of the loop over the ids. -/
def placeProcedure (fromStates toStates : Dict String Properties) (result : ProcedureSection)
    (procedureId : String) : ProcedureSection :=
  match fromStates.get? procedureId, toStates.get? procedureId with
  | none, none => result
  | none, some after =>
      { result with
        counts := { result.counts with added := result.counts.added + 1 }
        added := result.added ++ [{ procedureId, state := after }] }
  | some before, none =>
      { result with
        counts := { result.counts with removed := result.counts.removed + 1 }
        removed := result.removed ++ [{ procedureId, state := before }] }
  | some before, some after =>
      if pyEq (objectOf before) (objectOf after) then
        { result with counts := { result.counts with unchanged := result.counts.unchanged + 1 } }
      else
        { result with
          counts := { result.counts with changed := result.counts.changed + 1 }
          changed := result.changed ++ [changedItem procedureId before after] }

/-- The ids of both sides in order. -/
def sortedIds (fromStates toStates : Dict String Properties) : List String :=
  (fromStates.keys ++ toStates.keys.filter (· ∉ fromStates.keys)).mergeSort

/-- `diff_procedures`. -/
def diffProcedures (fromRecords toRecords : List ProcedureRecord)
    (selector : GraphDiffSelector) : Except DiffError ProcedureSection := do
  let fromStates ← procedureStates fromRecords
  let toStates ← procedureStates toRecords
  let start : ProcedureSection :=
    { counts := { fromTotal := fromRecords.length, toTotal := toRecords.length } }
  let result := (sortedIds fromStates toStates).foldl (placeProcedure fromStates toStates) start
  match result.counts.assertPartition with
  | .error message => .error (.assertion message)
  | .ok () => .ok (applySelector result selector)

/-- The state after the listed changes, in which null stands for no value. -/
def applyChanges (state : Properties) (changes : List ValueChange) : Properties :=
  changes.foldl
    (fun s c => if c.toValue = .null then s.erase c.property else s.set c.property c.toValue) state

/-- One canonical JSON. -/
def SameJson (a b : Properties) : Prop := canonical (objectOf a) = canonical (objectOf b)

instance (a b : Properties) : Decidable (SameJson a b) :=
  inferInstanceAs (Decidable (canonical (objectOf a) = canonical (objectOf b)))

/-- The ids of both sides whose states have one canonical JSON. -/
def sameIds (a b : Dict String Properties) : List String :=
  a.keys.filter fun k => (a.get? k).any fun before => (b.get? k).any fun after =>
    decide (SameJson before after)

/-- A bucket lists its ids once each, and its count is theirs whether the selector wants the
bucket or not. -/
def Reports (wanted : Bool) (listed : List String) (count : Nat) (belongs : String → Prop) : Prop :=
  ∃ ids : List String, ids.Nodup ∧ (∀ i, i ∈ ids ↔ belongs i) ∧ count = ids.length ∧
    listed = if wanted then ids else []

/-- What a section should say of two states: the unchanged ids are those with one canonical
JSON, every other id is reported once, on its side or as changed, and the listed changes lead
from the one state to the other. -/
structure Exact (selector : GraphDiffSelector) (a b : Dict String Properties)
    (result : ProcedureSection) : Prop where
  unchanged : result.counts.unchanged = (sameIds a b).length
  added : Reports (selector.wantsBucket .added) (result.added.map PresentItem.procedureId)
    result.counts.added fun i => i ∈ b.keys ∧ i ∉ a.keys
  removed : Reports (selector.wantsBucket .removed) (result.removed.map PresentItem.procedureId)
    result.counts.removed fun i => i ∈ a.keys ∧ i ∉ b.keys
  changed : Reports (selector.wantsBucket .changed) (result.changed.map ChangedItem.procedureId)
    result.counts.changed fun i => i ∈ a.keys ∧ i ∈ b.keys ∧ i ∉ sameIds a b
  changes : ∀ item ∈ result.changed, ∀ before after, a.get? item.procedureId = some before →
    b.get? item.procedureId = some after →
      SameJson (applyChanges before item.properties.changes) after

/-- The diff of two lists of records ends, and its section is exact. -/
def DiffsExactly (fromRecords toRecords : List ProcedureRecord) (selector : GraphDiffSelector) :
    Prop :=
  ∃ a b result, procedureStates fromRecords = .ok a ∧ procedureStates toRecords = .ok b ∧
    diffProcedures fromRecords toRecords selector = .ok result ∧ Exact selector a b result

/-- The timestamps of a record are still in the calendar when they are read in UTC. -/
structure Dated (r : ProcedureRecord) : Prop where
  proposedAt : (ensureUtc r.proposedAt).isSome = true
  resolvedAt : ∀ d, r.resolvedAt = some d → (ensureUtc d).isSome = true
  retiredAt : ∀ d, r.retiredAt = some d → (ensureUtc d).isSome = true

/-- The two states of a procedure are not equal in Python alone, and no more are the values
of a property when the selector wants the changes. -/
structure Unrespelled (selector : GraphDiffSelector) (before after : Properties) : Prop where
  whole : pyEq (objectOf before) (objectOf after) = true → SameJson before after
  each : selector.wantsBucket .changed = true → ∀ k v w, before.get? k = some v →
    after.get? k = some w → pyEq v w = true → canonical v = canonical w

mutual

theorem normalize_native : ∀ v : Value, finite v = true → keyed v = true →
    normalizeJsonValue v = v
  | .null, _, _ => rfl
  | .bool _, _, _ => rfl
  | .int _, _, _ => rfl
  | .str _, _, _ => rfl
  | .float (.finite _), _, _ => rfl
  | .float .negZero, _, _ => rfl
  | .float .posInf, h, _ => by cases h
  | .float .negInf, h, _ => by cases h
  | .float .nan, h, _ => by cases h
  | .array items, h, h' => by
      rw [normalizeJsonValue, normalize_items items h h']
  | .object entries, h, h' => by
      rw [keyed, Bool.and_eq_true, decide_eq_true_eq] at h'
      rw [normalizeJsonValue, normalize_entries entries h h'.2, Dict.entries_ofList h'.1]

theorem normalize_items : ∀ vs : List Value, finiteItems vs = true → keyedItems vs = true →
    normalizeItems vs = vs
  | [], _, _ => rfl
  | v :: vs, h, h' => by
      rw [finiteItems, Bool.and_eq_true] at h
      rw [keyedItems, Bool.and_eq_true] at h'
      rw [normalizeItems, normalize_native v h.1 h'.1, normalize_items vs h.2 h'.2]

theorem normalize_entries : ∀ es : List (String × Value), finiteEntries es = true →
    keyedEntries es = true → normalizeEntries es = es
  | [], _, _ => rfl
  | (k, v) :: es, h, h' => by
      rw [finiteEntries, Bool.and_eq_true] at h
      rw [keyedEntries, Bool.and_eq_true] at h'
      rw [normalizeEntries, normalize_native v h.1 h'.1, normalize_entries es h.2 h'.2]

end

theorem normalizeJsonValue_idem (v : Value) :
    normalizeJsonValue (normalizeJsonValue v) = normalizeJsonValue v :=
  normalize_native _ (normalized v).2 (keyed_of_plain _ (normalized v).1)

variable {d : Datetime}

theorem formatDatetime_eq_ok {v : Value} (h : formatDatetime d = .ok v) : ∃ t, v = .str t := by
  unfold formatDatetime at h
  split at h
  · exact ⟨_, (Except.ok.inj h).symm⟩
  · cases h

theorem formatOptional_eq_ok {d : Option Datetime} {o : Option Value}
    (h : formatOptional d = .ok o) : ∃ t : Option String, o = t.map .str := by
  cases d with
  | none => exact ⟨none, (Except.ok.inj h).symm⟩
  | some d =>
    obtain ⟨v, hv, rfl⟩ := map_eq_ok.mp h
    obtain ⟨t, rfl⟩ := formatDatetime_eq_ok hv
    exact ⟨some t, rfl⟩

theorem formatDatetime_isOk : (∃ v, formatDatetime d = .ok v) ↔ (ensureUtc d).isSome = true := by
  unfold formatDatetime
  cases ensureUtc d with
  | none => simp
  | some m => simp

theorem formatOptional_isOk {o : Option Datetime} :
    (∃ v, formatOptional o = .ok v) ↔ ∀ d, o = some d → (ensureUtc d).isSome = true := by
  cases o with
  | none => simp [formatOptional]
  | some d =>
    simp only [Option.some.injEq, forall_eq', ← formatDatetime_isOk, formatOptional, map_eq_ok]
    constructor
    · rintro ⟨_, v, hv, _⟩
      exact ⟨v, hv⟩
    · rintro ⟨v, hv⟩
      exact ⟨some v, v, hv, rfl⟩

variable {r : ProcedureRecord} {after before : Properties}

theorem procedureState_isOk : (∃ s, procedureState r = .ok s) ↔ Dated r := by
  constructor
  case mp =>
    rintro ⟨s, hs⟩
    obtain ⟨payload, hpayload, _⟩ := map_eq_ok.mp hs
    obtain ⟨proposedAt, hproposed, hpayload⟩ := bind_eq_ok.mp hpayload
    obtain ⟨resolvedAt, hresolved, hpayload⟩ := bind_eq_ok.mp hpayload
    obtain ⟨retiredAt, hretired, _⟩ := bind_eq_ok.mp hpayload
    exact ⟨formatDatetime_isOk.mp ⟨_, hproposed⟩, formatOptional_isOk.mp ⟨_, hresolved⟩,
      formatOptional_isOk.mp ⟨_, hretired⟩⟩
  case mpr =>
    intro h
    obtain ⟨proposedAt, hproposed⟩ := formatDatetime_isOk.mpr h.proposedAt
    obtain ⟨resolvedAt, hresolved⟩ := formatOptional_isOk.mpr h.resolvedAt
    obtain ⟨retiredAt, hretired⟩ := formatOptional_isOk.mpr h.retiredAt
    unfold procedureState ProcedureRecord.payload
    rw [hproposed, hresolved, hretired]
    exact ⟨_, rfl⟩

theorem payload_noNull {payload : List (String × Value)} (h : r.payload = .ok payload) (k : String)
    : (k, .null) ∉ payload := by
  obtain ⟨proposedAt, hproposed, h⟩ := bind_eq_ok.mp h
  obtain ⟨resolvedAt, hresolved, h⟩ := bind_eq_ok.mp h
  obtain ⟨retiredAt, hretired, h⟩ := bind_eq_ok.mp h
  obtain ⟨t, rfl⟩ := formatDatetime_eq_ok hproposed
  obtain ⟨t', rfl⟩ := formatOptional_eq_ok hresolved
  obtain ⟨t'', rfl⟩ := formatOptional_eq_ok hretired
  obtain rfl := Except.ok.inj h
  intro hmem
  obtain ⟨⟨q, o⟩, hfield, hvalue⟩ := List.mem_filterMap.mp hmem
  cases o with
  | none => cases hvalue
  | some v =>
    obtain rfl : v = .null := (Prod.mk.inj (Option.some.inj hvalue)).2
    simp at hfield

/-- A state holds no null, and its values are normalized. -/
structure Normal (d : Properties) : Prop where
  noNull : ∀ k, d.get? k ≠ some .null
  normalized : ∀ k v, d.get? k = some v → normalizeJsonValue v = v
  plain : plain (objectOf d) = true

theorem normal_procedureState {d : Properties} (h : procedureState r = .ok d) : Normal d := by
  obtain ⟨payload, hpayload, rfl⟩ := map_eq_ok.mp h
  have hvalue : ∀ k v, (normalizeProperties (Dict.ofList payload)).get? k = some v →
      ∃ w, (k, w) ∈ payload ∧ v = normalizeJsonValue w := by
    intro k v hget
    obtain ⟨w, hw, hv⟩ := mem_normalizeEntries (Dict.mem_of_get?_ofList hget)
    exact ⟨w, Dict.mem_of_get?_ofList (Dict.get?_of_mem hw), hv⟩
  constructor
  case noNull =>
    intro k hget
    obtain ⟨w, hw, hnull⟩ := hvalue k _ hget
    rw [normalizeJsonValue_eq_null hnull.symm] at hw
    exact payload_noNull hpayload k hw
  case normalized =>
    intro k v hget
    obtain ⟨w, _, rfl⟩ := hvalue k v hget
    exact normalizeJsonValue_idem w
  case plain => exact plain_normalizeProperties _

variable {records fromRecords toRecords : List ProcedureRecord} {selector : GraphDiffSelector}

theorem procedureStates_eq_ok {d : Dict String Properties} (h : procedureStates records = .ok d) :
    (∀ i s, d.get? i = some s →
      ∃ r ∈ records, r.procedureId = i ∧ procedureState r = .ok s) ∧
    ((records.map ProcedureRecord.procedureId).Nodup →
      d.keys = records.map ProcedureRecord.procedureId ∧
      ∀ r ∈ records, ∃ s, procedureState r = .ok s ∧ d.get? r.procedureId = some s) := by
  obtain ⟨states, hstates, hd⟩ := bind_eq_ok.mp h
  obtain rfl := Except.ok.inj hd
  have hone : ∀ (r : ProcedureRecord) (p : String × Properties),
      (do let state ← procedureState r; .ok (r.procedureId, state)) = Except.ok p →
        p.1 = r.procedureId ∧ procedureState r = .ok p.2 := by
    intro r p hp
    obtain ⟨state, hstate, hp⟩ := bind_eq_ok.mp hp
    obtain rfl := Except.ok.inj hp
    exact ⟨rfl, hstate⟩
  have hkeys : states.map Prod.fst = records.map ProcedureRecord.procedureId :=
    mapM_map_congr hstates fun r _ p hp => (hone r p hp).1
  constructor
  case left =>
    intro i s hget
    have hmem := Dict.mem_of_get?_ofList hget
    obtain ⟨r, hr, hp⟩ := mapM_ok_mem hstates _ hmem
    exact ⟨r, hr, (hone r _ hp).1.symm, (hone r _ hp).2⟩
  case right =>
    intro hnodup
    have hdistinct : (states.map Prod.fst).Nodup := hkeys ▸ hnodup
    have hentries := Dict.entries_ofList hdistinct
    constructor
    · unfold Dict.keys
      rw [hentries, hkeys]
    · intro r hr
      obtain ⟨p, hp, hstate⟩ := mapM_ok_each hstates r hr
      have hget : (Dict.ofList states).get? p.1 = some p.2 :=
        Dict.get?_of_mem (hentries.symm ▸ hp)
      rw [(hone r p hstate).1] at hget
      exact ⟨p.2, (hone r p hstate).2, hget⟩

theorem procedureStates_isOk : (∃ d, procedureStates records = .ok d) ↔ ∀ r ∈ records, Dated r := by
  constructor
  case mp =>
    rintro ⟨d, hd⟩ r hr
    obtain ⟨states, hstates, _⟩ := bind_eq_ok.mp hd
    obtain ⟨p, _, hp⟩ := mapM_ok_each hstates r hr
    obtain ⟨s, hs, _⟩ := bind_eq_ok.mp hp
    exact procedureState_isOk.mp ⟨s, hs⟩
  case mpr =>
    intro h
    have hone : ∀ r ∈ records, ∃ p : String × Properties,
        (do let state ← procedureState r; .ok (r.procedureId, state)) = Except.ok p := by
      intro r hr
      obtain ⟨s, hs⟩ := procedureState_isOk.mpr (h r hr)
      exact ⟨(r.procedureId, s), bind_eq_ok.mpr ⟨s, hs, rfl⟩⟩
    obtain ⟨states, hstates⟩ := mapM_isOk hone
    exact ⟨_, bind_eq_ok.mpr ⟨states, hstates, rfl⟩⟩

theorem get?_applyChanges (names : List String) (value : String → Value) (from' : String → Value)
    (state : Properties) (q : String) :
    (applyChanges state (names.map fun k =>
      { property := k, fromValue := from' k, toValue := value k })).get? q =
        if q ∈ names then (if value q = .null then none else some (value q)) else state.get? q := by
  induction names generalizing state with
  | nil => simp [applyChanges]
  | cons k names ih =>
    have hstep : (if value k = .null then state.erase k else state.set k (value k)).get? q =
        if k = q then (if value q = .null then none else some (value q)) else state.get? q := by
      by_cases hkq : k = q
      · subst hkq
        by_cases hnull : value k = .null
        · simp [hnull, Dict.get?_erase]
        · simp [hnull]
      · by_cases hnull : value k = .null
        · simp [hnull, Dict.get?_erase, hkq]
        · simp [hnull, Dict.get?_set, hkq]
    unfold applyChanges at ih ⊢
    rw [List.map_cons, List.foldl_cons, ih, hstep]
    by_cases hmem : q ∈ names
    · simp [hmem]
    · by_cases hkq : k = q
      · simp [hkq]
      · simp [hmem, hkq, Ne.symm hkq]

/-- The names of the listed changes. -/
def changedNames (before after : Properties) : List String :=
  let delta := propertyDelta after before
  (delta.changed ++ delta.added ++ delta.removed).mergeSort

theorem mem_changedNames {k : String} :
    k ∈ changedNames before after ↔
      (k ∈ after.keys ∧ k ∈ before.keys ∧ pyEq (valueAt after k) (valueAt before k) = false) ∨
      (k ∈ after.keys ∧ k ∉ before.keys) ∨ (k ∈ before.keys ∧ k ∉ after.keys) := by
  unfold changedNames propertyDelta
  simp only [List.mem_mergeSort, List.mem_append, List.mem_filter, decide_eq_true_eq,
    Bool.not_eq_true', and_assoc, or_assoc]

theorem normalize_valueAt {d : Properties} (h : Normal d) (k : String) :
    normalizeJsonValue (valueAt d k) = valueAt d k := by
  unfold valueAt
  cases hk : d.get? k with
  | none => rfl
  | some v => exact h.normalized k v hk

theorem changes_eq (i : String) (hb : Normal before) (ha : Normal after) :
    (changedItem i before after).properties.changes =
      (changedNames before after).map fun k =>
        { property := k, fromValue := valueAt before k, toValue := valueAt after k } := by
  unfold changedItem propertyValueChanges changedNames
  dsimp only
  rw [List.map_map]
  apply List.map_congr_left
  intro k _
  rw [Function.comp_apply]
  dsimp only
  rw [normalize_valueAt hb, normalize_valueAt ha]

theorem sameJson_iff {a b : Properties} :
    SameJson a b ↔ ∀ k, (a.get? k).map canonical = (b.get? k).map canonical := by
  unfold SameJson objectOf
  rw [canonical_object_iff a.nodup b.nodup]
  unfold Matching
  simp only [rel_eq]
  rfl

/-- The listed changes lead to the other state unless they leave out a property that is
spelled differently. -/
theorem applyChanges_sameJson (i : String) (hb : Normal before) (ha : Normal after) :
    SameJson (applyChanges before (changedItem i before after).properties.changes) after ↔
      ∀ k v w, before.get? k = some v → after.get? k = some w → pyEq v w = true →
        canonical v = canonical w := by
  have hsymm : ∀ k, pyEq (valueAt after k) (valueAt before k) =
      pyEq (valueAt before k) (valueAt after k) := by
    intro k
    rw [Bool.eq_iff_iff]
    exact ⟨pyEq_symm _ _ (plain_valueAt ha.plain k) (plain_valueAt hb.plain k),
      pyEq_symm _ _ (plain_valueAt hb.plain k) (plain_valueAt ha.plain k)⟩
  have hafter : ∀ k, (if valueAt after k = .null then none else some (valueAt after k)) =
      after.get? k := by
    intro k
    unfold valueAt
    cases hk : after.get? k with
    | none => simp
    | some w =>
      have hw : w ≠ .null := fun h => ha.noNull k (h ▸ hk)
      simp [hw]
  rw [sameJson_iff, changes_eq i hb ha]
  simp only [get?_applyChanges, hafter]
  apply forall_congr'
  intro k
  cases hbk : before.get? k with
  | none =>
    have hnb : k ∉ before.keys := Dict.get?_eq_none.mp hbk
    cases hak : after.get? k with
    | none => simp
    | some w =>
      have hin : k ∈ changedNames before after :=
        mem_changedNames.mpr (.inr (.inl ⟨Dict.mem_keys.mpr ⟨w, hak⟩, hnb⟩))
      simp [hin]
  | some v =>
    have hkb : k ∈ before.keys := Dict.mem_keys.mpr ⟨v, hbk⟩
    cases hak : after.get? k with
    | none =>
      have hin : k ∈ changedNames before after :=
        mem_changedNames.mpr (.inr (.inr ⟨hkb, Dict.get?_eq_none.mp hak⟩))
      simp [hin]
    | some w =>
      have hka : k ∈ after.keys := Dict.mem_keys.mpr ⟨w, hak⟩
      have hin : k ∈ changedNames before after ↔ pyEq v w = false := by
        rw [mem_changedNames, hsymm]
        unfold valueAt
        rw [hbk, hak]
        simp [hka, hkb]
      by_cases heq : pyEq v w = true
      · have hout : k ∉ changedNames before after := by
          rw [hin, heq]
          decide
        simp [hout, heq]
      · have hmem : k ∈ changedNames before after :=
          hin.mpr (Bool.not_eq_true _ ▸ heq)
        simp [hmem, heq]

section Loop

variable (a b : Dict String Properties)

def addedItem (i : String) : Option PresentItem :=
  match a.get? i, b.get? i with
  | none, some after => some { procedureId := i, state := after }
  | _, _ => none

def removedItem (i : String) : Option PresentItem :=
  match a.get? i, b.get? i with
  | some before, none => some { procedureId := i, state := before }
  | _, _ => none

/-- Equal in Python on both sides. -/
def equalAt (i : String) : Bool :=
  (a.get? i).any fun before => (b.get? i).any fun after => pyEq (objectOf before) (objectOf after)

def differingItem (i : String) : Option ChangedItem :=
  match a.get? i, b.get? i with
  | some before, some after =>
      if pyEq (objectOf before) (objectOf after) then none else some (changedItem i before after)
  | _, _ => none

theorem foldl_placeProcedure (ids : List String) (start : ProcedureSection) :
    ids.foldl (placeProcedure a b) start =
      { start with
        counts := { start.counts with
          unchanged := start.counts.unchanged + (ids.filter (equalAt a b)).length
          added := start.counts.added + (ids.filterMap (addedItem a b)).length
          removed := start.counts.removed + (ids.filterMap (removedItem a b)).length
          changed := start.counts.changed + (ids.filterMap (differingItem a b)).length }
        added := start.added ++ ids.filterMap (addedItem a b)
        removed := start.removed ++ ids.filterMap (removedItem a b)
        changed := start.changed ++ ids.filterMap (differingItem a b) } := by
  induction ids generalizing start with
  | nil => simp
  | cons i ids ih =>
    rw [List.foldl_cons, ih]
    unfold placeProcedure
    cases hbefore : a.get? i with
    | none =>
      cases hafter : b.get? i with
      | none => simp [equalAt, addedItem, removedItem, differingItem, hbefore, hafter]
      | some after =>
        simp [equalAt, addedItem, removedItem, differingItem, hbefore, hafter]
        omega
    | some before =>
      cases hafter : b.get? i with
      | none =>
        simp [equalAt, addedItem, removedItem, differingItem, hbefore, hafter]
        omega
      | some after =>
        by_cases heq : pyEq (objectOf before) (objectOf after) = true
        · simp [equalAt, addedItem, removedItem, differingItem, hbefore, hafter, heq]
          omega
        · simp [equalAt, addedItem, removedItem, differingItem, hbefore, hafter, heq]
          omega

theorem map_filterMap_id {α : Type} {item : String → Option α} {id : α → String}
    (h : ∀ i x, item i = some x → id x = i) (ids : List String) :
    (ids.filterMap item).map id = ids.filter fun i => (item i).isSome := by
  induction ids with
  | nil => rfl
  | cons i ids ih =>
    cases hx : item i with
    | none => simp [hx, ih]
    | some x => simp [hx, ih, h i x hx]

variable {i : String} {x : PresentItem}

theorem addedItem_id (h : addedItem a b i = some x) : x.procedureId = i := by
  unfold addedItem at h
  split at h
  · exact congrArg PresentItem.procedureId (Option.some.inj h).symm
  · cases h

theorem removedItem_id (h : removedItem a b i = some x) : x.procedureId = i := by
  unfold removedItem at h
  split at h
  · exact congrArg PresentItem.procedureId (Option.some.inj h).symm
  · cases h

theorem differingItem_eq_some {x : ChangedItem} :
    differingItem a b i = some x ↔ ∃ before after, a.get? i = some before ∧
      b.get? i = some after ∧ pyEq (objectOf before) (objectOf after) = false ∧
      x = changedItem i before after := by
  unfold differingItem
  cases a.get? i with
  | none => simp
  | some before =>
    cases b.get? i with
    | none => simp
    | some after =>
      by_cases heq : pyEq (objectOf before) (objectOf after) = true
      · simp [heq]
      · dsimp only
        rw [if_neg heq]
        constructor
        · intro h
          exact ⟨before, after, rfl, rfl, Bool.not_eq_true _ ▸ heq, (Option.some.inj h).symm⟩
        · rintro ⟨_, _, hbefore, hafter, _, rfl⟩
          rw [Option.some.inj hbefore, Option.some.inj hafter]

theorem nodup_sortedIds : (sortedIds a b).Nodup := by
  unfold sortedIds
  rw [(List.mergeSort_perm _ _).nodup_iff, List.nodup_append]
  refine ⟨a.nodup, b.nodup.filter _, ?_⟩
  intro i hi j hj heq
  have hout := (List.mem_filter.mp hj).2
  rw [decide_eq_true_eq] at hout
  exact hout (heq ▸ hi)

theorem mem_sortedIds : i ∈ sortedIds a b ↔ i ∈ a.keys ∨ i ∈ b.keys := by
  unfold sortedIds
  rw [List.mem_mergeSort, List.mem_append, List.mem_filter, decide_eq_true_eq]
  by_cases hi : i ∈ a.keys
  · simp [hi]
  · simp [hi]

theorem sum_places (ids : List String) :
    (ids.filter (equalAt a b)).length + (ids.filterMap (removedItem a b)).length +
        (ids.filterMap (differingItem a b)).length =
      (ids.filter fun i => (a.get? i).isSome).length ∧
    (ids.filter (equalAt a b)).length + (ids.filterMap (addedItem a b)).length +
        (ids.filterMap (differingItem a b)).length =
      (ids.filter fun i => (b.get? i).isSome).length := by
  induction ids with
  | nil => exact ⟨rfl, rfl⟩
  | cons i ids ih =>
    cases hbefore : a.get? i with
    | none =>
      cases hafter : b.get? i with
      | none =>
        simpa [equalAt, addedItem, removedItem, differingItem, hbefore, hafter] using ih
      | some after =>
        simp [equalAt, addedItem, removedItem, differingItem, hbefore, hafter] at ih ⊢
        omega
    | some before =>
      cases hafter : b.get? i with
      | none =>
        simp [equalAt, addedItem, removedItem, differingItem, hbefore, hafter] at ih ⊢
        omega
      | some after =>
        by_cases heq : pyEq (objectOf before) (objectOf after) = true
        · simp [equalAt, addedItem, removedItem, differingItem, hbefore, hafter, heq] at ih ⊢
          omega
        · simp [equalAt, addedItem, removedItem, differingItem, hbefore, hafter, heq] at ih ⊢
          omega

theorem length_filter_keys {d : Dict String Properties} (h : ∀ i ∈ d.keys, i ∈ sortedIds a b) :
    ((sortedIds a b).filter fun i => (d.get? i).isSome).length = d.keys.length := by
  apply List.Perm.length_eq
  refine (List.perm_ext_iff_of_nodup ((nodup_sortedIds a b).filter _) d.nodup).mpr ?_
  intro i
  have hkeys : i ∈ d.keys ↔ (d.get? i).isSome = true := by
    rw [Dict.mem_keys, Option.isSome_iff_exists]
  rw [List.mem_filter, ← hkeys]
  exact ⟨fun hi => hi.2, fun hi => ⟨h i hi, hi⟩⟩

/-- The places add up to the records of a side when there is one state for each. -/
theorem assertPartition_fold {m n : Nat} (hm : a.keys.length = m) (hn : b.keys.length = n) :
    ((sortedIds a b).foldl (placeProcedure a b)
      { counts := { fromTotal := m, toTotal := n } }).counts.assertPartition = .ok () := by
  have hfrom := length_filter_keys a b fun i hi => (mem_sortedIds a b).mpr (.inl hi)
  have hto := length_filter_keys a b fun i hi => (mem_sortedIds a b).mpr (.inr hi)
  have ⟨hsum, hsum'⟩ := sum_places a b (sortedIds a b)
  rw [foldl_placeProcedure]
  unfold Counts.assertPartition
  rw [if_neg]
  unfold Counts.fromSum Counts.toSum
  dsimp only
  omega

end Loop

/-- The section that two dictionaries of states give. -/
def sectionOf (selector : GraphDiffSelector) (start : ProcedureSection)
    (a b : Dict String Properties) : ProcedureSection :=
  applySelector ((sortedIds a b).foldl (placeProcedure a b) start) selector

section Exactness

variable {selector : GraphDiffSelector} {m n : Nat} {a b : Dict String Properties}

theorem mem_sameIds {i : String} : i ∈ sameIds a b ↔
    ∃ before after, a.get? i = some before ∧ b.get? i = some after ∧ SameJson before after := by
  unfold sameIds
  rw [List.mem_filter, Dict.mem_keys]
  cases a.get? i with
  | none => simp
  | some before =>
    cases b.get? i with
    | none => simp
    | some after => simp

theorem mem_equalIds {i : String} : i ∈ (sortedIds a b).filter (equalAt a b) ↔
    ∃ before after, a.get? i = some before ∧ b.get? i = some after ∧
      pyEq (objectOf before) (objectOf after) = true := by
  rw [List.mem_filter, mem_sortedIds, Dict.mem_keys, Dict.mem_keys]
  unfold equalAt
  cases a.get? i with
  | none => simp
  | some before =>
    cases b.get? i with
    | none => simp
    | some after => simp

theorem reports_filterMap {α : Type} {item : String → Option α} {id : α → String}
    (hid : ∀ i x, item i = some x → id x = i) {belongs : String → Prop}
    (hbelongs : ∀ i, i ∈ sortedIds a b ∧ (item i).isSome = true ↔ belongs i) (wanted : Bool) :
    Reports wanted ((if wanted then (sortedIds a b).filterMap item else []).map id)
      ((sortedIds a b).filterMap item).length belongs := by
  have hmap := map_filterMap_id hid (sortedIds a b)
  refine ⟨(sortedIds a b).filter fun i => (item i).isSome, (nodup_sortedIds a b).filter _, ?_,
    ?_, ?_⟩
  · intro i
    rw [List.mem_filter]
    exact hbelongs i
  · rw [← hmap, List.length_map]
  · cases wanted with
    | true => exact hmap
    | false => rfl

theorem exact_iff (ha : ∀ i s, a.get? i = some s → Normal s)
    (hb : ∀ i s, b.get? i = some s → Normal s) :
    Exact selector a b (sectionOf selector { counts := { fromTotal := m, toTotal := n } } a b) ↔
      ∀ i before after, a.get? i = some before → b.get? i = some after →
        Unrespelled selector before after := by
  have hsub : sameIds a b ⊆ (sortedIds a b).filter (equalAt a b) := by
    intro i hi
    obtain ⟨before, after, hbefore, hafter, hsame⟩ := mem_sameIds.mp hi
    exact mem_equalIds.mpr ⟨before, after, hbefore, hafter,
      pyEq_of_canonical (ha i before hbefore).plain (hb i after hafter).plain hsame⟩
  have hperm := List.subperm_of_subset (a.nodup.filter _) hsub
  unfold sectionOf
  rw [foldl_placeProcedure]
  constructor
  case mp =>
    intro h i before after hbefore hafter
    have hlength := h.unchanged
    simp only [applySelector, Nat.zero_add] at hlength
    have hsame : pyEq (objectOf before) (objectOf after) = true → SameJson before after := by
      intro heq
      have hin := (hperm.perm_of_length_le (le_of_eq hlength)).mem_iff.mpr
        (mem_equalIds.mpr ⟨before, after, hbefore, hafter, heq⟩)
      obtain ⟨before', after', hbefore', hafter', hsame⟩ := mem_sameIds.mp hin
      rw [hbefore] at hbefore'
      rw [hafter] at hafter'
      rwa [Option.some.inj hbefore', Option.some.inj hafter']
    refine ⟨hsame, fun hwanted k v w hv hw hvw => ?_⟩
    by_cases heq : pyEq (objectOf before) (objectOf after) = true
    · have hk := sameJson_iff.mp (hsame heq) k
      rw [hv, hw] at hk
      exact Option.some.inj hk
    · have hitem : changedItem i before after ∈ (sortedIds a b).filterMap (differingItem a b) :=
        List.mem_filterMap.mpr ⟨i, (mem_sortedIds a b).mpr (.inl (Dict.mem_keys.mpr ⟨_, hbefore⟩)),
          (differingItem_eq_some a b).mpr
            ⟨before, after, hbefore, hafter, Bool.not_eq_true _ ▸ heq, rfl⟩⟩
      have hchanges := h.changes (changedItem i before after)
      simp only [applySelector, hwanted, if_true, List.nil_append] at hchanges
      exact (applyChanges_sameJson i (ha i _ hbefore) (hb i _ hafter)).mp
        (hchanges hitem before after hbefore hafter) k v w hv hw hvw
  case mpr =>
    intro h
    have hsup : (sortedIds a b).filter (equalAt a b) ⊆ sameIds a b := by
      intro i hi
      obtain ⟨before, after, hbefore, hafter, heq⟩ := mem_equalIds.mp hi
      exact mem_sameIds.mpr
        ⟨before, after, hbefore, hafter, (h i before after hbefore hafter).whole heq⟩
    constructor
    case unchanged =>
      simp only [applySelector, Nat.zero_add]
      exact le_antisymm
        (List.subperm_of_subset ((nodup_sortedIds a b).filter _) hsup).length_le hperm.length_le
    case added =>
      simp only [applySelector, Nat.zero_add, List.nil_append]
      apply reports_filterMap fun i x => addedItem_id a b
      intro i
      rw [mem_sortedIds, Dict.mem_keys, Dict.mem_keys]
      unfold addedItem
      cases a.get? i with
      | none | some before =>
        cases b.get? i with
        | none => simp
        | some after => simp
    case removed =>
      simp only [applySelector, Nat.zero_add, List.nil_append]
      apply reports_filterMap fun i x => removedItem_id a b
      intro i
      rw [mem_sortedIds, Dict.mem_keys, Dict.mem_keys]
      unfold removedItem
      cases a.get? i with
      | none | some before =>
        cases b.get? i with
        | none => simp
        | some after => simp
    case changed =>
      simp only [applySelector, Nat.zero_add, List.nil_append]
      apply reports_filterMap
      · intro i x hx
        obtain ⟨before, after, _, _, _, rfl⟩ := (differingItem_eq_some a b).mp hx
        rfl
      · intro i
        have hids : i ∈ sameIds a b ↔ i ∈ (sortedIds a b).filter (equalAt a b) :=
          ⟨fun hi => hsub hi, fun hi => hsup hi⟩
        rw [hids, mem_equalIds, mem_sortedIds, Dict.mem_keys, Dict.mem_keys]
        unfold differingItem
        cases a.get? i with
        | none => simp
        | some before =>
          cases b.get? i with
          | none => simp
          | some after =>
            by_cases heq : pyEq (objectOf before) (objectOf after) = true
            · simp [heq]
            · simp [heq]
    case changes =>
      intro item hitem before after hbefore hafter
      simp only [applySelector, List.nil_append] at hitem
      by_cases hwanted : selector.wantsBucket .changed = true
      · rw [if_pos hwanted] at hitem
        obtain ⟨i, _, hi⟩ := List.mem_filterMap.mp hitem
        obtain ⟨before', after', hbefore', hafter', _, rfl⟩ := (differingItem_eq_some a b).mp hi
        have hbefore : a.get? i = some before := hbefore
        have hafter : b.get? i = some after := hafter
        rw [hbefore] at hbefore'
        rw [hafter] at hafter'
        rw [← Option.some.inj hbefore', ← Option.some.inj hafter']
        exact (applyChanges_sameJson i (ha i _ hbefore) (hb i _ hafter)).mpr
          ((h i before after hbefore hafter).each hwanted)
      · rw [if_neg hwanted] at hitem
        cases hitem

end Exactness

theorem diffProcedures_eq_section {a b : Dict String Properties}
    (hfrom : (fromRecords.map ProcedureRecord.procedureId).Nodup)
    (hto : (toRecords.map ProcedureRecord.procedureId).Nodup)
    (ha : procedureStates fromRecords = .ok a) (hb : procedureStates toRecords = .ok b) :
    diffProcedures fromRecords toRecords selector = .ok (sectionOf selector
      { counts := { fromTotal := fromRecords.length, toTotal := toRecords.length } } a b) := by
  have hm : a.keys.length = fromRecords.length := by
    rw [((procedureStates_eq_ok ha).2 hfrom).1, List.length_map]
  have hn : b.keys.length = toRecords.length := by
    rw [((procedureStates_eq_ok hb).2 hto).1, List.length_map]
  unfold diffProcedures
  rw [ha, hb]
  change (match Counts.assertPartition _ with
    | .error message => Except.error (DiffError.assertion message)
    | .ok () => _) = _
  rw [assertPartition_fold a b hm hn]
  rfl

/-- No procedure of both lists has states that are equal in Python alone. -/
def UnrespelledRecords (fromRecords toRecords : List ProcedureRecord)
    (selector : GraphDiffSelector) : Prop :=
  ∀ r ∈ fromRecords, ∀ s ∈ toRecords, r.procedureId = s.procedureId →
    ∀ before after, procedureState r = .ok before → procedureState s = .ok after →
      Unrespelled selector before after

theorem diffsExactly_iff (hfrom : (fromRecords.map ProcedureRecord.procedureId).Nodup)
    (hto : (toRecords.map ProcedureRecord.procedureId).Nodup) :
    DiffsExactly fromRecords toRecords selector ↔
      (∀ r ∈ fromRecords, Dated r) ∧ (∀ r ∈ toRecords, Dated r) ∧
        UnrespelledRecords fromRecords toRecords selector := by
  have hexact : ∀ a b, procedureStates fromRecords = .ok a → procedureStates toRecords = .ok b →
      (Exact selector a b (sectionOf selector
        { counts := { fromTotal := fromRecords.length, toTotal := toRecords.length } } a b) ↔
        UnrespelledRecords fromRecords toRecords selector) := by
    intro a b ha hb
    have ⟨hafrom, hato⟩ := procedureStates_eq_ok ha
    have ⟨hbfrom, hbto⟩ := procedureStates_eq_ok hb
    have hnormal : ∀ i s, a.get? i = some s → Normal s := by
      intro i s hs
      obtain ⟨r, _, _, hr⟩ := hafrom i s hs
      exact normal_procedureState hr
    have hnormal' : ∀ i s, b.get? i = some s → Normal s := by
      intro i s hs
      obtain ⟨r, _, _, hr⟩ := hbfrom i s hs
      exact normal_procedureState hr
    rw [exact_iff hnormal hnormal']
    constructor
    case mp =>
      intro h r hr s hs hid before after hbefore hafter
      obtain ⟨before', hbefore', hget⟩ := (hato hfrom).2 r hr
      obtain ⟨after', hafter', hget'⟩ := (hbto hto).2 s hs
      rw [hbefore] at hbefore'
      rw [hafter] at hafter'
      rw [← Except.ok.inj hbefore'] at hget
      rw [← Except.ok.inj hafter', ← hid] at hget'
      exact h r.procedureId before after hget hget'
    case mpr =>
      intro h i before after hbefore hafter
      obtain ⟨r, hr, hri, hstate⟩ := hafrom i before hbefore
      obtain ⟨s, hs, hsi, hstate'⟩ := hbfrom i after hafter
      exact h r hr s hs (hri.trans hsi.symm) before after hstate hstate'
  constructor
  case mp =>
    rintro ⟨a, b, result, ha, hb, hdiff, h⟩
    rw [diffProcedures_eq_section hfrom hto ha hb] at hdiff
    rw [← Except.ok.inj hdiff] at h
    exact ⟨procedureStates_isOk.mp ⟨a, ha⟩, procedureStates_isOk.mp ⟨b, hb⟩,
      (hexact a b ha hb).mp h⟩
  case mpr =>
    rintro ⟨hdated, hdated', h⟩
    obtain ⟨a, ha⟩ := procedureStates_isOk.mpr hdated
    obtain ⟨b, hb⟩ := procedureStates_isOk.mpr hdated'
    exact ⟨a, b, _, ha, hb, diffProcedures_eq_section hfrom hto ha hb, (hexact a b ha hb).mpr h⟩

/-- A diff of records with unique ids is exact just when every timestamp stays in the calendar
and no state or listed property is respelled. -/
theorem procedure_diff_exact_iff (fromRecords toRecords : List ProcedureRecord)
    (selector : GraphDiffSelector) (hfrom : (fromRecords.map ProcedureRecord.procedureId).Nodup)
    (hto : (toRecords.map ProcedureRecord.procedureId).Nodup) :
    DiffsExactly fromRecords toRecords selector ↔
      (∀ r ∈ fromRecords ++ toRecords, Dated r) ∧
        UnrespelledRecords fromRecords toRecords selector := by
  rw [diffsExactly_iff hfrom hto, List.forall_mem_append, and_assoc]

/-- A procedure for the cases whose property `open` has a value. -/
def triage (procedureId : String) (isOpen : Value) (definitionDigest : String) :
    ProcedureRecord where
  procedureId := procedureId
  definition := [("name", .str "triage"), ("contract_in", .str "cruxible.EmptyInput"),
    ("steps", .array [.object [("id", .str "cases"), ("query", .str "open_cases"),
      ("params", .object []), ("include_source", .bool false), ("input", .object []),
      ("as", .str "cases")]]),
    ("returns", .str "cases"),
    ("precondition", .object [("entity_type", .str "Case"),
      ("condition", .object [("open", isOpen)])]),
    ("budget", .object [("wall_clock_s", .float (.finite 60)), ("max_provider_calls", .int 0)]),
    ("declared_tier", .str "governed_write")]
  definitionDigest := definitionDigest
  proposedAt :=
    { moment := newYear
      offset := some 0
      offset_range := by simp [dayLength] }

/-- One procedure has another definition, one is gone and one is new. -/
theorem triage_to_triage_iff :
    DiffsExactly [triage "PRC-1" (.int 1) "sha256:1", triage "PRC-2" (.int 1) "sha256:1"]
      [triage "PRC-1" (.int 2) "sha256:2", triage "PRC-3" (.int 1) "sha256:1"] {} := by
  refine (procedure_diff_exact_iff _ _ {} (by decide) (by decide)).mpr ⟨?_, ?_⟩
  · have hdated (i : String) (v : Value) (d : String) : Dated (triage i v d) :=
      ⟨rfl, (fun _ h => by cases h), (fun _ h => by cases h)⟩
    simp [hdated]
  · intro r hr s hs hid before after hbefore hafter
    obtain ⟨rfl, rfl⟩ : r = triage "PRC-1" (.int 1) "sha256:1" ∧
        s = triage "PRC-1" (.int 2) "sha256:2" := by
      simp only [List.mem_cons, List.not_mem_nil, or_false] at hr hs
      rcases hr with rfl | rfl <;> rcases hs with rfl | rfl
      · exact ⟨rfl, rfl⟩
      all_goals exact absurd hid (by decide)
    constructor
    case whole =>
      intro hsame
      cases hbefore
      cases hafter
      exact absurd hsame (by decide +kernel)
    case each =>
      have hspelled : ∀ b ∈ before.entries, ∀ w ∈ after.get? b.1,
          pyEq b.2 w = true → canonical b.2 = canonical w := by
        cases hbefore
        cases hafter
        decide +kernel
      exact fun _ k v w hv hw => hspelled (k, v) (Dict.mem_of_get? hv) w hw

/-- The condition asks for `1` on one side and for `true` on the other, which Python takes for
equal: the definition is not among the changes. -/
theorem condition_of_true_is_no_change : ¬ ∀ fromRecords toRecords selector,
    (fromRecords.map ProcedureRecord.procedureId).Nodup →
    (toRecords.map ProcedureRecord.procedureId).Nodup →
      DiffsExactly fromRecords toRecords selector := by
  intro h
  have hexact := h [triage "PRC-1" (.int 1) "sha256:1"] [triage "PRC-1" (.bool true) "sha256:2"] {}
    (by decide) (by decide)
  rw [diffsExactly_iff (by decide) (by decide)] at hexact
  have hspelled := hexact.2.2 _ List.mem_cons_self _ List.mem_cons_self rfl
  have hdefinition := (hspelled _ _ rfl rfl).each rfl "definition" _ _ rfl rfl rfl
  have hprecondition := canonical_object_get? (by decide) (by decide) hdefinition "precondition"
  have hcondition := canonical_object_get? (by decide) (by decide)
    (Option.some.inj hprecondition) "condition"
  have hopen := canonical_object_get? (by decide) (by decide) (Option.some.inj hcondition) "open"
  cases hopen

end Cruxible.ProcedureDiffs
