import Cruxible.AssertionState
import Cruxible.NumberSpellings
import Mathlib.Data.List.Dedup

/-!
# Comparison states

The states of edges and entities that `graph/diff.py` compares: once as a whole, by the
digest of their canonical JSON, and once in parts, by `==`, to name the channels in
which two of them differ.
-/
namespace Cruxible.ComparisonStates
open JsonValue PythonDict
open AssertionState (Properties)
open Value

mutual

/-- Non-finite floats become objects, since canonical JSON has none. -/
def normalizeJsonValue : Value → Value
  | .float .nan => .object [("non_finite", .str "nan")]
  | .float .posInf => .object [("non_finite", .str "inf")]
  | .float .negInf => .object [("non_finite", .str "-inf")]
  | .array items => .array (normalizeItems items)
  | .object entries => .object (Dict.ofList (normalizeEntries entries)).entries
  | v => v

def normalizeItems : List Value → List Value
  | [] => []
  | v :: vs => normalizeJsonValue v :: normalizeItems vs

def normalizeEntries : List (String × Value) → List (String × Value)
  | [] => []
  | (k, v) :: es => (k, normalizeJsonValue v) :: normalizeEntries es

end

def normalizeProperties (d : Properties) : Properties := Dict.ofList (normalizeEntries d.entries)

variable {es : List (String × Value)} {k : String} {a b : Properties}

theorem mem_normalizeEntries {v : Value} (h : (k, v) ∈ normalizeEntries es) :
    ∃ w, (k, w) ∈ es ∧ v = normalizeJsonValue w := by
  induction es with
  | nil => cases h
  | cons e es ih =>
    have ⟨q, w⟩ := e
    rcases List.mem_cons.mp h with heq | hmem
    · have ⟨hk, hv⟩ := Prod.mk.inj heq
      exact ⟨w, hk ▸ List.mem_cons_self, hv⟩
    · have ⟨w', hw, hv⟩ := ih hmem
      exact ⟨w', List.mem_cons_of_mem _ hw, hv⟩

theorem plainEntries_of_mem (h : ∀ k v, (k, v) ∈ es → plain v = true) : plainEntries es = true := by
  induction es with
  | nil => rfl
  | cons e es ih =>
    have ⟨k, v⟩ := e
    rw [plainEntries, Bool.and_eq_true]
    exact ⟨h k v List.mem_cons_self, ih fun q w hw => h q w (List.mem_cons_of_mem _ hw)⟩

theorem plain_ofList (h : ∀ k v, (k, v) ∈ es → plain v = true) :
    plain (.object (Dict.ofList es).entries) = true := by
  rw [plain, Bool.and_eq_true, decide_eq_true_eq]
  refine ⟨(Dict.ofList es).nodup, plainEntries_of_mem ?_⟩
  intro k v hv
  exact h k v (Dict.mem_of_get?_ofList (Dict.get?_of_mem hv))

mutual

theorem normalized : ∀ v : Value,
    plain (normalizeJsonValue v) = true ∧ finite (normalizeJsonValue v) = true
  | .null => ⟨rfl, rfl⟩
  | .bool _ => ⟨rfl, rfl⟩
  | .int _ => ⟨rfl, rfl⟩
  | .str _ => ⟨rfl, rfl⟩
  | .float (.finite _) => ⟨rfl, rfl⟩
  | .float .negZero => ⟨rfl, rfl⟩
  | .float .posInf => by decide
  | .float .negInf => by decide
  | .float .nan => by decide
  | .array items => by
      rw [normalizeJsonValue, plain, finite]
      exact normalized_items items
  | .object entries => by
      rw [normalizeJsonValue, finite, finiteEntries_iff]
      refine ⟨plain_ofList fun k v h => (normalized_entries entries k v h).1, ?_⟩
      intro k v hmem
      have hget := Dict.get?_of_mem hmem
      exact (normalized_entries entries k v (Dict.mem_of_get?_ofList hget)).2

theorem normalized_items : ∀ vs : List Value,
    plainItems (normalizeItems vs) = true ∧ finiteItems (normalizeItems vs) = true
  | [] => ⟨rfl, rfl⟩
  | v :: vs => by
      have ⟨hplain, hfinite⟩ := normalized v
      have ⟨hplains, hfinites⟩ := normalized_items vs
      rw [normalizeItems, plainItems, finiteItems, hplain, hfinite, hplains, hfinites]
      exact ⟨rfl, rfl⟩

theorem normalized_entries : ∀ (es : List (String × Value)) (k : String) (v : Value),
    (k, v) ∈ normalizeEntries es → plain v = true ∧ finite v = true
  | [], _, _, h => by cases h
  | (q, w) :: es, k, v, h => by
      rcases List.mem_cons.mp h with heq | hmem
      · rw [(Prod.mk.inj heq).2]
        exact normalized w
      · exact normalized_entries es k v hmem

end

theorem plain_normalizeProperties (d : Properties) :
    plain (.object (normalizeProperties d).entries) = true :=
  plain_ofList fun k v h => (normalized_entries d.entries k v h).1

/-- `model_dump(mode="json", exclude_none=True)` of a model. -/
structure Dump where
  fields : Properties
  noNull : ∀ k, fields.get? k ≠ some .null

/-- The dump of a review or lifecycle state, whose status is never null. -/
structure AxisDump extends Dump where
  status : fields.get? "status" ≠ none

/-- What the comparison reads of an edge: its properties, the dumps of its review,
lifecycle and provenance, and the keys of its evidence references, one for each. -/
structure EdgeContent where
  properties : Properties
  review : AxisDump
  lifecycle : AxisDump
  groupOverride : Bool
  provenance : Option Dump
  evidenceRefKeys : List String

/-- What the comparison reads of an entity. -/
structure EntityContent where
  properties : Properties
  lifecycle : Option AxisDump
  actorContext : Option Dump
  extra : Properties

structure EdgeState where
  properties : Properties
  review : Properties
  lifecycle : Properties
  groupOverride : Bool
  provenance : Option Properties
  evidenceRefKeys : List String

structure EntityState where
  properties : Properties
  lifecycle : Option Properties
  actorContext : Option Properties
  extra : Properties

def relationshipComparisonState (e : EdgeContent) : EdgeState where
  properties := normalizeProperties e.properties
  review := normalizeProperties e.review.fields
  lifecycle := normalizeProperties e.lifecycle.fields
  groupOverride := e.groupOverride
  provenance := e.provenance.map fun d => normalizeProperties d.fields
  evidenceRefKeys := e.evidenceRefKeys.mergeSort

def entityComparisonState (e : EntityContent) : EntityState where
  properties := normalizeProperties e.properties
  lifecycle := e.lifecycle.map fun d => normalizeProperties d.fields
  actorContext := e.actorContext.map fun d => normalizeProperties d.fields
  extra := normalizeProperties e.extra

def objectOf (d : Properties) : Value := .object d.entries

def optionalObject (d : Option Properties) : Value := (d.map objectOf).getD .null

def EdgeState.json (s : EdgeState) : Value := .object [
  ("properties", objectOf s.properties),
  ("review", objectOf s.review),
  ("lifecycle", objectOf s.lifecycle),
  ("annotations", .object [
    ("group_override", .bool s.groupOverride),
    ("provenance", optionalObject s.provenance),
    ("evidence_ref_keys", .array (s.evidenceRefKeys.map .str))])]

def EntityState.json (s : EntityState) : Value := .object [
  ("properties", objectOf s.properties),
  ("lifecycle", optionalObject s.lifecycle),
  ("annotations", .object [
    ("actor_context", optionalObject s.actorContext),
    ("extra", objectOf s.extra)])]

/-- `hash` stands for the `sha256` of a canonical text. -/
def stateDigest (hash : Value → String) (state : Value) : String := hash (canonical state)

/-- What the channels read of a state; a missing part reads as empty. -/
structure Parts where
  properties : Properties
  review : Properties := ∅
  lifecycle : Properties
  provenance : Properties := ∅
  evidenceRefKeys : List String := []
  groupOverride : Option Bool := none
  otherAnnotations : Properties := ∅

def EdgeState.parts (s : EdgeState) : Parts where
  properties := s.properties
  review := s.review
  lifecycle := s.lifecycle
  provenance := s.provenance.getD ∅
  evidenceRefKeys := s.evidenceRefKeys
  groupOverride := some s.groupOverride

def EntityState.parts (s : EntityState) : Parts where
  properties := s.properties
  lifecycle := s.lifecycle.getD ∅
  otherAnnotations := Dict.ofList [("actor_context", optionalObject s.actorContext),
    ("extra", objectOf s.extra)]

/-- `d.get(k)`. -/
def valueAt (d : Properties) (k : String) : Value := (d.get? k).getD .null

def unionKeys (a b : Properties) : List String := a.keys ++ b.keys.filter (· ∉ a.keys)

structure PropertyDelta where
  added : List String
  removed : List String
  changed : List String
  unchanged : List String

structure ValueChange where
  property : String
  fromValue : Value
  toValue : Value

def propertyDelta (proposed current : Properties) : PropertyDelta where
  added := (proposed.keys.filter (· ∉ current.keys)).mergeSort
  removed := (current.keys.filter (· ∉ proposed.keys)).mergeSort
  changed := ((proposed.keys.filter (· ∈ current.keys)).filter fun k =>
    !pyEq (valueAt proposed k) (valueAt current k)).mergeSort
  unchanged := ((proposed.keys.filter (· ∈ current.keys)).filter fun k =>
    pyEq (valueAt proposed k) (valueAt current k)).mergeSort

/-- With the added and the removed properties. -/
def propertyValueChanges (proposed current : Properties) : List ValueChange :=
  let delta := propertyDelta proposed current
  (delta.changed ++ delta.added ++ delta.removed).mergeSort.map fun k =>
    { property := k, fromValue := valueAt current k, toValue := valueAt proposed k }

structure PropertyChannel where
  delta : PropertyDelta
  changes : List ValueChange

def propertyChannel (fromProperties toProperties : Properties) : Option PropertyChannel :=
  let delta := propertyDelta toProperties fromProperties
  if delta.added = [] ∧ delta.removed = [] ∧ delta.changed = [] then none
  else some {
    delta := delta
    changes := (propertyValueChanges toProperties fromProperties).map fun c =>
      { c with fromValue := normalizeJsonValue c.fromValue
               toValue := normalizeJsonValue c.toValue } }

/-- `_scalar_changes`, the names in `skip` left out. -/
def scalarChanges (fromState toState : Properties) (skip : List String) : List ValueChange :=
  (((unionKeys fromState toState).filter (· ∉ skip)).mergeSort.filter fun k =>
    !pyEq (valueAt fromState k) (valueAt toState k)).map fun k =>
      { property := k, fromValue := valueAt fromState k, toValue := valueAt toState k }

structure AxisTransition where
  fromStatus : Value
  toStatus : Value

/-- `_transition`. -/
def transition (fromState toState : Properties) : Option AxisTransition :=
  if pyEq (valueAt fromState "status") (valueAt toState "status") then none
  else some { fromStatus := valueAt fromState "status", toStatus := valueAt toState "status" }

structure EvidenceSummary where
  added : List String
  removed : List String
  fromCount : Nat
  toCount : Nat

structure AnnotationChannel where
  provenanceStampsChanged : List String
  evidence : EvidenceSummary
  groupOverride : Option (Option Bool × Option Bool)
  otherChanges : List ValueChange

def annotationChannel (a b : Parts) : Option AnnotationChannel :=
  let stamps := ((unionKeys a.provenance b.provenance).filter fun k =>
    !pyEq (valueAt a.provenance k) (valueAt b.provenance k)).mergeSort
  let fromEvidence := a.evidenceRefKeys.dedup
  let toEvidence := b.evidenceRefKeys.dedup
  let evidence : EvidenceSummary := {
    added := (toEvidence.filter (· ∉ fromEvidence)).mergeSort
    removed := (fromEvidence.filter (· ∉ toEvidence)).mergeSort
    fromCount := fromEvidence.length
    toCount := toEvidence.length }
  let others := scalarChanges a.otherAnnotations b.otherAnnotations []
  if stamps = [] ∧ evidence.added = [] ∧ evidence.removed = [] ∧
      a.groupOverride = b.groupOverride ∧ others = [] then none
  else some {
    provenanceStampsChanged := stamps
    evidence := evidence
    groupOverride := if a.groupOverride = b.groupOverride then none
      else some (a.groupOverride, b.groupOverride)
    otherChanges := others }

inductive Channel where
  | properties
  | reviewTransition
  | lifecycleTransition
  | annotations
  deriving DecidableEq

/-- `CHANGE_CHANNELS`. -/
def changeChannels : List Channel :=
  [.properties, .reviewTransition, .lifecycleTransition, .annotations]

structure ChangeBody where
  properties : Option PropertyChannel
  reviewTransition : Option AxisTransition
  reviewChanges : List ValueChange
  lifecycleTransition : Option AxisTransition
  lifecycleChanges : List ValueChange
  annotations : Option AnnotationChannel

def ChangeBody.has (b : ChangeBody) : Channel → Bool
  | .properties => b.properties.isSome
  | .reviewTransition => b.reviewTransition.isSome || !b.reviewChanges.isEmpty
  | .lifecycleTransition => b.lifecycleTransition.isSome || !b.lifecycleChanges.isEmpty
  | .annotations => b.annotations.isSome

def ChangeBody.channels (b : ChangeBody) : List Channel := changeChannels.filter b.has

def ChangeBody.annotationOnly (b : ChangeBody) : Bool := b.channels == [.annotations]

/-- `_changed_channels`; entities have no review axis. -/
def changedChannels (a b : Parts) (reviewAxis : Bool) : ChangeBody where
  properties := propertyChannel a.properties b.properties
  reviewTransition := if reviewAxis then transition a.review b.review else none
  reviewChanges := if reviewAxis then scalarChanges a.review b.review ["status"] else []
  lifecycleTransition := transition a.lifecycle b.lifecycle
  lifecycleChanges := scalarChanges a.lifecycle b.lifecycle ["status"]
  annotations := annotationChannel a b

variable {xs : List String} {d : Properties} {reviewAxis : Bool}

theorem sort_eq_nil : xs.mergeSort = [] ↔ xs = [] := by
  rw [← List.length_eq_zero_iff, ← List.length_eq_zero_iff, List.length_mergeSort]

theorem filter_eq_nil {test : String → Bool} : xs.filter test = [] ↔ ∀ k ∈ xs, test k = false := by
  rw [List.filter_eq_nil_iff]
  apply forall₂_congr
  intro k _
  exact Bool.not_eq_true (test k) ▸ Iff.rfl

theorem mem_unionKeys : k ∈ unionKeys a b ↔ k ∈ a.keys ∨ k ∈ b.keys := by
  unfold unionKeys
  rw [List.mem_append, List.mem_filter, decide_eq_true_eq]
  by_cases hk : k ∈ a.keys
  · simp [hk]
  · simp [hk]

theorem valueAt_of_not_mem (h : k ∉ d.keys) : valueAt d k = .null := by
  unfold valueAt
  rw [Dict.get?_eq_none.mpr h]
  rfl

theorem plain_valueAt (h : plain (objectOf d) = true) (k : String) :
    plain (valueAt d k) = true := by
  unfold valueAt
  cases hk : d.get? k with
  | none => rfl
  | some v =>
    unfold objectOf at h
    rw [plain, Bool.and_eq_true] at h
    exact plainEntries_mem h.2 (Dict.mem_of_get? hk)

variable (ha : plain (objectOf a) = true) (hb : plain (objectOf b) = true)

include ha hb in
/-- Objects up to the spelling of numbers, as two mappings are compared in Python. -/
theorem respelled_objectOf_iff :
    Respelled (objectOf a) (objectOf b) ↔
      (∀ k, k ∈ a.keys ↔ k ∈ b.keys) ∧ ∀ k, pyEq (valueAt a k) (valueAt b k) = true := by
  have hvalue : ∀ k, (pyEq (valueAt a k) (valueAt b k) = true ↔
      Respelled (valueAt a k) (valueAt b k)) := fun k =>
    pyEq_iff_respelled _ _ (plain_valueAt ha k) (plain_valueAt hb k)
  unfold objectOf
  rw [respelled_object_iff a.nodup b.nodup]
  constructor
  case mp =>
    intro h
    refine ⟨h.keys, fun k => ?_⟩
    rw [hvalue]
    by_cases hk : k ∈ a.keys
    · have ⟨x, hx⟩ := Dict.mem_keys.mp hk
      have ⟨y, hy, hxy⟩ := h.some hx
      have hy' : b.get? k = some y := hy
      unfold valueAt
      rw [hx, hy']
      exact hxy
    · have hk' : k ∉ b.keys := fun hb => hk ((h.keys k).mpr hb)
      rw [valueAt_of_not_mem hk, valueAt_of_not_mem hk']
      exact Respelled.refl _
  case mpr =>
    intro ⟨hkeys, hvalues⟩ k
    change Option.Rel Respelled (a.get? k) (b.get? k)
    have hk := (hvalue k).mp (hvalues k)
    cases hx : a.get? k with
    | none =>
      have hna : k ∉ a.keys := Dict.get?_eq_none.mp hx
      have hnb : k ∉ b.keys := fun h => hna ((hkeys k).mpr h)
      rw [Dict.get?_eq_none.mpr hnb]
      exact .none
    | some x =>
      have ⟨y, hy⟩ := Dict.mem_keys.mp ((hkeys k).mp (Dict.mem_keys.mpr ⟨x, hx⟩))
      unfold valueAt at hk
      rw [hx, hy] at hk
      rw [hy]
      exact .some hk

/-- No mapping has null under a key that the other lacks. -/
def NullFree (a b : Properties) : Prop :=
  ∀ k, (a.get? k = some .null → b.get? k ≠ none) ∧ (b.get? k = some .null → a.get? k ≠ none)

section
include ha hb

theorem respelled_of_values (hnull : NullFree a b) :
    Respelled (objectOf a) (objectOf b) ↔ ∀ k, pyEq (valueAt a k) (valueAt b k) = true := by
  rw [respelled_objectOf_iff ha hb]
  constructor
  case mp => exact fun h => h.2
  case mpr =>
    intro h
    refine ⟨fun k => ?_, h⟩
    rw [← not_iff_not, ← Dict.get?_eq_none, ← Dict.get?_eq_none]
    have hk := h k
    unfold valueAt at hk
    constructor
    · intro hna
      rw [hna, Option.getD_none, pyEq_null] at hk
      cases hb' : b.get? k with
      | none => rfl
      | some y =>
        rw [hb', Option.getD_some] at hk
        exact absurd hna ((hnull k).2 (hk ▸ hb'))
    · intro hnb
      cases ha' : a.get? k with
      | none => rfl
      | some x =>
        rw [ha', hnb, Option.getD_some, Option.getD_none] at hk
        have hx := plain_valueAt ha k
        unfold valueAt at hx
        rw [ha', Option.getD_some] at hx
        have hnull' := pyEq_null.mp (pyEq_symm x .null hx rfl hk)
        exact absurd hnb ((hnull k).1 (hnull' ▸ ha'))

theorem propertyChannel_eq_none :
    propertyChannel a b = none ↔ Respelled (objectOf a) (objectOf b) := by
  have hdelta : propertyChannel a b = none ↔ (propertyDelta b a).added = [] ∧
      (propertyDelta b a).removed = [] ∧ (propertyDelta b a).changed = [] := by
    unfold propertyChannel
    dsimp only
    split_ifs with h
    · simp [h]
    · simp [h]
  rw [hdelta, respelled_objectOf_iff ha hb]
  unfold propertyDelta
  dsimp only
  rw [sort_eq_nil, sort_eq_nil, sort_eq_nil, filter_eq_nil, filter_eq_nil, filter_eq_nil]
  have hsymm : ∀ k, pyEq (valueAt b k) (valueAt a k) = pyEq (valueAt a k) (valueAt b k) := by
    intro k
    rw [Bool.eq_iff_iff]
    exact ⟨pyEq_symm _ _ (plain_valueAt hb k) (plain_valueAt ha k),
      pyEq_symm _ _ (plain_valueAt ha k) (plain_valueAt hb k)⟩
  simp only [decide_eq_false_iff_not, not_not, List.mem_filter, decide_eq_true_eq,
    Bool.not_eq_false', hsymm]
  constructor
  case mp =>
    intro ⟨hadded, hremoved, hchanged⟩
    refine ⟨fun k => ⟨hremoved k, hadded k⟩, fun k => ?_⟩
    by_cases hk : k ∈ b.keys
    · exact hchanged k ⟨hk, hadded k hk⟩
    · have hk' : k ∉ a.keys := fun h => hk (hremoved k h)
      rw [valueAt_of_not_mem hk, valueAt_of_not_mem hk']
      exact pyEq_null.mpr rfl
  case mpr =>
    intro ⟨hkeys, hvalues⟩
    exact ⟨fun k hk => (hkeys k).mpr hk, fun k hk => (hkeys k).mp hk, fun k _ => hvalues k⟩

end

theorem differing_eq_nil :
    ((unionKeys a b).filter fun k => !pyEq (valueAt a k) (valueAt b k)) = [] ↔
      ∀ k, pyEq (valueAt a k) (valueAt b k) = true := by
  rw [filter_eq_nil]
  simp only [mem_unionKeys, Bool.not_eq_false']
  constructor
  case mp =>
    intro h k
    by_cases hin : k ∈ a.keys ∨ k ∈ b.keys
    · exact h k hin
    · rw [not_or] at hin
      rw [valueAt_of_not_mem hin.1, valueAt_of_not_mem hin.2]
      exact pyEq_null.mpr rfl
  case mpr => exact fun h k _ => h k

theorem scalarChanges_eq_nil {skip : List String} :
    scalarChanges a b skip = [] ↔ ∀ k, k ∉ skip → pyEq (valueAt a k) (valueAt b k) = true := by
  unfold scalarChanges
  rw [List.map_eq_nil_iff, filter_eq_nil]
  simp only [List.mem_mergeSort, List.mem_filter, mem_unionKeys, decide_eq_true_eq,
    Bool.not_eq_false']
  constructor
  case mp =>
    intro h k hk
    by_cases hin : k ∈ a.keys ∨ k ∈ b.keys
    · exact h k ⟨hin, hk⟩
    · rw [not_or] at hin
      rw [valueAt_of_not_mem hin.1, valueAt_of_not_mem hin.2]
      exact pyEq_null.mpr rfl
  case mpr =>
    intro h k hk
    exact h k hk.2

theorem transition_eq_none :
    transition a b = none ↔ pyEq (valueAt a "status") (valueAt b "status") = true := by
  unfold transition
  split_ifs with h
  · simp [h]
  · simp [h]

include ha hb in
theorem axis_unchanged (hnull : NullFree a b) :
    (transition a b = none ∧ scalarChanges a b ["status"] = []) ↔
      Respelled (objectOf a) (objectOf b) := by
  rw [respelled_of_values ha hb hnull, transition_eq_none, scalarChanges_eq_nil]
  constructor
  case mp =>
    intro ⟨hstatus, hothers⟩ k
    by_cases hk : k = "status"
    · rw [hk]
      exact hstatus
    · exact hothers k (by simpa using hk)
  case mpr =>
    intro h
    exact ⟨h "status", fun k _ => h k⟩

theorem annotationChannel_eq_none {a b : Parts} (ha : plain (objectOf a.provenance) = true)
    (hb : plain (objectOf b.provenance) = true) (hnull : NullFree a.provenance b.provenance)
    (ha' : plain (objectOf a.otherAnnotations) = true)
    (hb' : plain (objectOf b.otherAnnotations) = true)
    (hnull' : NullFree a.otherAnnotations b.otherAnnotations) :
    annotationChannel a b = none ↔ Respelled (objectOf a.provenance) (objectOf b.provenance) ∧
      (∀ k, k ∈ a.evidenceRefKeys ↔ k ∈ b.evidenceRefKeys) ∧ a.groupOverride = b.groupOverride ∧
      Respelled (objectOf a.otherAnnotations) (objectOf b.otherAnnotations) := by
  have hstamps : (((unionKeys a.provenance b.provenance).filter fun k =>
      !pyEq (valueAt a.provenance k) (valueAt b.provenance k)).mergeSort = []) ↔
      Respelled (objectOf a.provenance) (objectOf b.provenance) := by
    rw [respelled_of_values ha hb hnull, sort_eq_nil]
    exact differing_eq_nil
  have hothers : scalarChanges a.otherAnnotations b.otherAnnotations [] = [] ↔
      Respelled (objectOf a.otherAnnotations) (objectOf b.otherAnnotations) := by
    rw [respelled_of_values ha' hb' hnull', scalarChanges_eq_nil]
    simp
  have hadded : ((b.evidenceRefKeys.dedup.filter (· ∉ a.evidenceRefKeys.dedup)).mergeSort = []) ↔
      ∀ k ∈ b.evidenceRefKeys, k ∈ a.evidenceRefKeys := by
    rw [sort_eq_nil, filter_eq_nil]
    simp only [List.mem_dedup, decide_eq_false_iff_not, not_not]
  have hremoved : ((a.evidenceRefKeys.dedup.filter (· ∉ b.evidenceRefKeys.dedup)).mergeSort = []) ↔
      ∀ k ∈ a.evidenceRefKeys, k ∈ b.evidenceRefKeys := by
    rw [sort_eq_nil, filter_eq_nil]
    simp only [List.mem_dedup, decide_eq_false_iff_not, not_not]
  rw [← hstamps, ← hothers]
  unfold annotationChannel
  dsimp only
  split_ifs with h
  case pos =>
    rw [hadded, hremoved] at h
    have ⟨hs, ha, hr, hg, ho⟩ := h
    exact ⟨fun _ => ⟨hs, fun k => ⟨hr k, ha k⟩, hg, ho⟩, fun _ => rfl⟩
  case neg =>
    rw [hadded, hremoved] at h
    constructor
    · intro hsome
      cases hsome
    · intro ⟨hs, hkeys, hg, ho⟩
      exact absurd ⟨hs, fun k => (hkeys k).mpr, fun k => (hkeys k).mp, hg, ho⟩ h

/-- What two states have in common when no channel tells them apart: everything but
the spelling of their numbers, how often an evidence reference occurs, and whether an
empty part is there. -/
structure Alike (a b : Parts) (reviewAxis : Bool) : Prop where
  properties : Respelled (objectOf a.properties) (objectOf b.properties)
  review : reviewAxis = true → Respelled (objectOf a.review) (objectOf b.review)
  lifecycle : Respelled (objectOf a.lifecycle) (objectOf b.lifecycle)
  provenance : Respelled (objectOf a.provenance) (objectOf b.provenance)
  evidence : ∀ k, k ∈ a.evidenceRefKeys ↔ k ∈ b.evidenceRefKeys
  groupOverride : a.groupOverride = b.groupOverride
  otherAnnotations : Respelled (objectOf a.otherAnnotations) (objectOf b.otherAnnotations)

/-- The parts of normalized states. -/
structure Parts.Comparable (a b : Parts) : Prop where
  plain : ∀ p ∈ [a, b], ∀ d ∈ [p.properties, p.review, p.lifecycle, p.provenance,
    p.otherAnnotations], Value.plain (objectOf d) = true
  review : NullFree a.review b.review
  lifecycle : NullFree a.lifecycle b.lifecycle
  provenance : NullFree a.provenance b.provenance
  otherAnnotations : NullFree a.otherAnnotations b.otherAnnotations

theorem has_eq_false {a b : Parts} (h : a.Comparable b) :
    (∀ c ∈ changeChannels, (changedChannels a b reviewAxis).has c = false) ↔
      Alike a b reviewAxis := by
  have hpa := h.plain a (by simp)
  have hpb := h.plain b (by simp)
  have hproperties := propertyChannel_eq_none (hpa a.properties (by simp))
    (hpb b.properties (by simp))
  have hreview := axis_unchanged (hpa a.review (by simp)) (hpb b.review (by simp)) h.review
  have hlifecycle := axis_unchanged (hpa a.lifecycle (by simp)) (hpb b.lifecycle (by simp))
    h.lifecycle
  have hannotations := annotationChannel_eq_none (hpa a.provenance (by simp))
    (hpb b.provenance (by simp)) h.provenance (hpa a.otherAnnotations (by simp))
    (hpb b.otherAnnotations (by simp)) h.otherAnnotations
  have haxis : ∀ (t : Option AxisTransition) (cs : List ValueChange),
      (t.isSome || !cs.isEmpty) = false ↔ t = none ∧ cs = [] := by
    intro t cs
    cases t with
    | none => simp
    | some t => simp
  have hall : (∀ c ∈ changeChannels, (changedChannels a b reviewAxis).has c = false) ↔
      propertyChannel a.properties b.properties = none ∧
      (reviewAxis = true → transition a.review b.review = none ∧
        scalarChanges a.review b.review ["status"] = []) ∧
      (transition a.lifecycle b.lifecycle = none ∧
        scalarChanges a.lifecycle b.lifecycle ["status"] = []) ∧
      annotationChannel a b = none := by
    unfold changeChannels changedChannels
    simp only [List.forall_mem_cons, List.not_mem_nil, false_implies, implies_true, and_true,
      ChangeBody.has, haxis, Option.isSome_eq_false_iff, Option.isNone_iff_eq_none]
    cases reviewAxis with
    | false => simp
    | true => simp
  rw [hall, hproperties, hreview, hlifecycle, hannotations]
  constructor
  case mp =>
    intro ⟨hp, hr, hl, hs, he, hg, ho⟩
    exact ⟨hp, hr, hl, hs, he, hg, ho⟩
  case mpr =>
    intro ⟨hp, hr, hl, hs, he, hg, ho⟩
    exact ⟨hp, hr, hl, hs, he, hg, ho⟩

theorem channels_eq_nil {a b : Parts} (h : a.Comparable b) :
    (changedChannels a b reviewAxis).channels = [] ↔ Alike a b reviewAxis := by
  rw [← has_eq_false h]
  unfold ChangeBody.channels
  rw [List.filter_eq_nil_iff]
  simp only [Bool.not_eq_true]

theorem normalizeJsonValue_eq_null {v : Value} (h : normalizeJsonValue v = .null) : v = .null := by
  cases v with
  | null => rfl
  | bool b => cases h
  | int n => cases h
  | str s => cases h
  | array items => cases h
  | object entries => cases h
  | float f =>
    cases f with
    | finite q => cases h
    | negZero => cases h
    | posInf => cases h
    | negInf => cases h
    | nan => cases h

theorem Dump.normalized_noNull (d : Dump) (k : String) :
    (normalizeProperties d.fields).get? k ≠ some .null := by
  intro h
  have ⟨w, hw, hnull⟩ := mem_normalizeEntries (Dict.mem_of_get?_ofList h)
  apply d.noNull k
  rw [normalizeJsonValue_eq_null hnull.symm] at hw
  exact Dict.get?_of_mem hw

theorem nullFree_of (ha : ∀ k, a.get? k ≠ some .null) (hb : ∀ k, b.get? k ≠ some .null) :
    NullFree a b :=
  fun k => ⟨fun h => absurd h (ha k), fun h => absurd h (hb k)⟩

theorem get?_empty_ne_null (k : String) : (∅ : Properties).get? k ≠ some .null := by
  intro h
  cases h

theorem optional_noNull (d : Option Dump) (k : String) :
    ((d.map fun d => normalizeProperties d.fields).getD ∅).get? k ≠ some .null := by
  cases d with
  | none => exact get?_empty_ne_null k
  | some d => exact d.normalized_noNull k

theorem plain_optional (d : Option Dump) :
    plain (objectOf ((d.map fun d => normalizeProperties d.fields).getD ∅)) = true := by
  cases d with
  | none => rfl
  | some d => exact plain_normalizeProperties d.fields

theorem relationship_comparable (e f : EdgeContent) :
    (relationshipComparisonState e).parts.Comparable (relationshipComparisonState f).parts where
  plain := by
    have hone : ∀ e : EdgeContent, ∀ d ∈ [(relationshipComparisonState e).parts.properties,
        (relationshipComparisonState e).parts.review,
        (relationshipComparisonState e).parts.lifecycle,
        (relationshipComparisonState e).parts.provenance,
        (relationshipComparisonState e).parts.otherAnnotations], plain (objectOf d) = true := by
      intro e
      simp only [List.forall_mem_cons, List.not_mem_nil, false_implies, implies_true, and_true]
      exact ⟨plain_normalizeProperties _, plain_normalizeProperties _,
        plain_normalizeProperties _, plain_optional _, rfl⟩
    intro p hp
    rcases List.mem_pair.mp hp with rfl | rfl
    · exact hone e
    · exact hone f
  review := nullFree_of e.review.normalized_noNull f.review.normalized_noNull
  lifecycle := nullFree_of e.lifecycle.normalized_noNull f.lifecycle.normalized_noNull
  provenance := nullFree_of (optional_noNull e.provenance) (optional_noNull f.provenance)
  otherAnnotations := nullFree_of get?_empty_ne_null get?_empty_ne_null

theorem plain_optionalObject (d : Option Dump) :
    plain (optionalObject (d.map fun d => normalizeProperties d.fields)) = true := by
  cases d with
  | none => rfl
  | some d => exact plain_normalizeProperties d.fields

theorem lifecycle_noNull (e : EntityContent) (k : String) :
    (entityComparisonState e).parts.lifecycle.get? k ≠ some .null := by
  have h := optional_noNull (e.lifecycle.map AxisDump.toDump) k
  rwa [Option.map_map] at h

theorem plain_lifecycle (e : EntityContent) :
    plain (objectOf (entityComparisonState e).parts.lifecycle) = true := by
  have h := plain_optional (e.lifecycle.map AxisDump.toDump)
  rwa [Option.map_map] at h

theorem otherAnnotations_keys (e : EntityContent) (k : String) :
    (entityComparisonState e).parts.otherAnnotations.get? k ≠ none ↔
      k = "actor_context" ∨ k = "extra" := by
  rw [ne_eq, Dict.get?_eq_none, not_not]
  change k ∈ ["actor_context", "extra"] ↔ _
  simp

theorem plain_otherAnnotations (e : EntityContent) :
    plain (objectOf (entityComparisonState e).parts.otherAnnotations) = true := by
  apply plain_ofList
  intro k v hv
  rcases List.mem_pair.mp hv with heq | heq
  · rw [(Prod.mk.inj heq).2]
    exact plain_optionalObject e.actorContext
  · rw [(Prod.mk.inj heq).2]
    exact plain_normalizeProperties e.extra

theorem entity_comparable (e f : EntityContent) :
    (entityComparisonState e).parts.Comparable (entityComparisonState f).parts where
  plain := by
    have hone : ∀ e : EntityContent, ∀ d ∈ [(entityComparisonState e).parts.properties,
        (entityComparisonState e).parts.review, (entityComparisonState e).parts.lifecycle,
        (entityComparisonState e).parts.provenance,
        (entityComparisonState e).parts.otherAnnotations], plain (objectOf d) = true := by
      intro e
      simp only [List.forall_mem_cons, List.not_mem_nil, false_implies, implies_true, and_true]
      exact ⟨plain_normalizeProperties _, rfl, plain_lifecycle e, rfl, plain_otherAnnotations e⟩
    intro p hp
    rcases List.mem_pair.mp hp with rfl | rfl
    · exact hone e
    · exact hone f
  review := nullFree_of get?_empty_ne_null get?_empty_ne_null
  lifecycle := nullFree_of (lifecycle_noNull e) (lifecycle_noNull f)
  provenance := nullFree_of get?_empty_ne_null get?_empty_ne_null
  otherAnnotations := by
    have hkeys : ∀ e f : EntityContent, ∀ k,
        (entityComparisonState e).parts.otherAnnotations.get? k = some .null →
        (entityComparisonState f).parts.otherAnnotations.get? k ≠ none := by
      intro e f k hk
      rw [otherAnnotations_keys f, ← otherAnnotations_keys e, hk]
      exact Option.some_ne_none _
    exact fun k => ⟨hkeys e f k, hkeys f e k⟩

end Cruxible.ComparisonStates
