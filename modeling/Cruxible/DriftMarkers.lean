import Cruxible.EdgeChanges
import Cruxible.PythonEquality
import Cruxible.Runs
import Mathlib.Data.List.Dedup

/-!
# The drift marker over a sequence of writes

A group approval fixes the content of an edge. Each later write compares the edge
with what it held before the write and carries the approved values of the marker
forward. The marker keeps no value for a property that the approved content does
not have, so a write that changes such a property once more takes the value in
between for the approved one. Every other write leaves the marker exact.
-/
namespace Cruxible.DriftMarkers
open JsonValue PythonDict AssertionState AppendOnly Fallible Cruxible.Graph PropertyValidation
open GraphOperations GroupDrift DirectWrites GovernedWrites EdgeChanges Runs

/-- Absent equals only absent, and present values compare with `==`. -/
def Alike (a b : Option Value) : Prop := diverges a b = false

def PlainOption (a : Option Value) : Prop := ∀ v, a = some v → v.plain = true

/-- The values of a mapping hold no `nan`. -/
def PlainProperties (p : Properties) : Prop := ∀ k, PlainOption (p.get? k)

theorem plainProperties_of_entries {p : Properties}
    (h : ∀ b ∈ p.entries, b.2.plain = true) : PlainProperties p :=
  fun k v hv => h (k, v) (Dict.mem_of_get? hv)

theorem Alike.refl {a : Option Value} (ha : PlainOption a) : Alike a a := by
  cases a with
  | none => rfl
  | some v => simp [Alike, diverges, Value.pyEq_refl v (ha v rfl)]

variable {b : Option Value} {a : RelationshipWrite} {e : EdgeData} {r : RelationshipInstance}
  {d : GroupContentDrift} {c : Call}

theorem Alike.symm {a : Option Value} (ha : PlainOption a) (hb : PlainOption b) (h : Alike a b) :
    Alike b a := by
  cases a with
  | none =>
    cases b with
    | none => rfl
    | some w => simp [Alike, diverges] at h
  | some v =>
    cases b with
    | none => simp [Alike, diverges] at h
    | some w =>
      have hvw : v.pyEq w = true := by simpa [Alike, diverges] using h
      simp [Alike, diverges, Value.pyEq_symm v w (ha v rfl) (hb w rfl) hvw]

theorem Alike.trans {a c : Option Value} (h : Alike a b) (h' : Alike b c) : Alike a c := by
  cases a with
  | none =>
    cases b with
    | none => exact h'
    | some w => simp [Alike, diverges] at h
  | some u =>
    cases b with
    | none => simp [Alike, diverges] at h
    | some v =>
      cases c with
      | none => simp [Alike, diverges] at h'
      | some w =>
        have huv : u.pyEq v = true := by simpa [Alike, diverges] using h
        have hvw : v.pyEq w = true := by simpa [Alike, diverges] using h'
        simp [Alike, diverges, Value.pyEq_trans u v w huv hvw]

theorem diverges_congr {x a : Option Value} (ha : PlainOption a) (hb : PlainOption b)
    (h : Alike a b) : diverges x a = diverges x b := by
  cases hxa : diverges x a with
  | false =>
    have hxb : Alike x b := Alike.trans hxa h
    exact Eq.symm hxb
  | true =>
    cases hxb : diverges x b with
    | true => rfl
    | false =>
      have hback : Alike x a := Alike.trans hxb (h.symm ha hb)
      rw [Alike, hxa] at hback
      cases hback

theorem mem_sorted_names {names : List String} {k : String} : k ∈ sorted names ↔ k ∈ names :=
  (List.perm_insertionSort _ _).mem_iff

/-- The names that a write changes are those whose value diverges. -/
theorem mem_contentChange {incoming existing : RelationshipInstance} {k : String} :
    k ∈ contentChange incoming existing ↔
      diverges (incoming.properties.get? k) (existing.properties.get? k) = true := by
  simp only [contentChange, propertyDelta, mem_sorted_names, List.mem_append, List.mem_filter,
    Dict.mem_keys, Dict.contains, differs, diverges]
  cases hi : incoming.properties.get? k with
  | none | some a =>
    cases he : existing.properties.get? k <;> simp

theorem get?_approvedValuesOf (stored : Properties) (changed : List String) (k : String) :
    (approvedValuesOf stored changed).get? k = if k ∈ changed then stored.get? k else none := by
  have hfold : ∀ (names : List String) (d : Properties),
      ((names.filterMap fun name => (stored.get? name).map fun v => (name, v)).foldl
        (fun d b => d.set b.1 b.2) d).get? k =
      if k ∈ names then (stored.get? k).or (d.get? k) else d.get? k := by
    intro names
    induction names with
    | nil => simp
    | cons n names ih =>
      intro d
      cases hn : stored.get? n with
      | none =>
        rw [List.filterMap_cons_none (by simp [hn]), ih]
        by_cases hk : k = n
        · rw [hk, hn]
          simp
        · simp [hk]
      | some v =>
        rw [List.filterMap_cons_some (b := (n, v)) (by simp [hn]), List.foldl_cons, ih,
          Dict.get?_set]
        by_cases hk : k = n
        · rw [hk, hn]
          simp
        · simp [hk, Ne.symm hk]
  have hall := hfold changed Dict.empty
  have hempty : (Dict.empty : Properties).get? k = none := rfl
  rw [hempty, Option.or_none] at hall
  exact hall

/-- The row that a read of the edge shows. -/
def row (e : EdgeData) : RelationshipInstance where
  relationshipType := e.relationshipType
  fromType := (splitNodeId e.fromNode).1
  fromId := (splitNodeId e.fromNode).2
  toType := (splitNodeId e.toNode).1
  toId := (splitNodeId e.toNode).2
  edgeKey := some e.key
  claimId := some e.claimId
  properties := e.properties
  metadata := e.metadata

def marker (e : EdgeData) : Option GroupApprovalDrift := e.metadata.assertion.groupApprovalDrift

/-- What `stamp_group_approval_drift` makes of the edge it finds. -/
def stampedEdge (drift : Option GroupContentDrift) (c : Call) (e : EdgeData) : EdgeData :=
  match drift.bind fun d => recomputedDrift (row e) d c.receiptId c.actorContext c.now with
  | none => e
  | some marker => { e with metadata := { e.metadata with assertion :=
      { e.metadata.assertion with groupApprovalDrift := marker } } }

/-- A direct write of validated content: the update, and then the marker. -/
def writtenEdge (r : RelationshipInstance) (a : RelationshipWrite) (c : Call) (e : EdgeData) :
    EdgeData :=
  stampedEdge (groupContentDrift r (row e)) c (updatedEdge r a e)

/-- The approval that an edge stands under. -/
structure Approval where
  groupId : String
  content : Properties

def groupOf (e : EdgeData) : Option String := e.metadata.provenance.bind provenanceGroupId

/-- The marker says how the edge differs from the approved content, and no more. -/
structure Exact (approval : Approval) (e : EdgeData) : Prop where
  group : groupOf e = some approval.groupId
  missing : marker e = none ↔ ∀ k, Alike (e.properties.get? k) (approval.content.get? k)
  sameGroup : ∀ m, marker e = some m → m.groupId = approval.groupId
  listed : ∀ m, marker e = some m → ∀ k,
    k ∈ m.changedProperties ↔ ¬ Alike (e.properties.get? k) (approval.content.get? k)
  approved : ∀ m, marker e = some m → ∀ k ∈ m.changedProperties,
    Alike (m.approvedValues.get? k) (approval.content.get? k)
  onlyListed : ∀ m, marker e = some m → ∀ k, k ∉ m.changedProperties →
    m.approvedValues.get? k = none

/-- Property values as far as the marker depends on them. -/
structure Plain (approval : Approval) (e : EdgeData) : Prop where
  content : PlainProperties approval.content
  current : PlainProperties e.properties
  recorded : ∀ m, marker e = some m → PlainProperties m.approvedValues

/-- The write changes no property that the approved content lacks and the edge
already has. -/
def LeavesAdditions (approval : Approval) (stored incoming : Properties) : Prop :=
  ∀ k, approval.content.get? k = none → stored.get? k ≠ none →
    Alike (incoming.get? k) (stored.get? k)

theorem marker_updatedEdge (r : RelationshipInstance) (a : RelationshipWrite) (e : EdgeData) :
    marker (updatedEdge r a e) = marker e := rfl

variable {groupId : String}

theorem groupOf_updatedEdge (h : groupOf e = some groupId) :
    groupOf (updatedEdge r a e) = some groupId := by
  have ⟨p, hp, hgroup⟩ := Option.bind_eq_some_iff.mp h
  simp only [groupOf, updatedEdge, updatedMetadata, hp, backfillProvenanceOnTouch,
    stampProvenanceModified, Option.bind_some]
  exact hgroup

theorem groupContentDrift_eq (h : groupOf e = some groupId) :
    groupContentDrift r (row e) =
      if contentChange r (row e) = [] then none
      else some { groupId := groupId, changedProperties := contentChange r (row e),
                  approvedValues := approvedValuesOf e.properties (contentChange r (row e)) } := by
  have ⟨p, hp, hgroup⟩ := Option.bind_eq_some_iff.mp h
  have hp' : (row e).metadata.provenance = some p := hp
  simp only [groupContentDrift, hp', Option.bind_eq_bind, Option.bind_some, hgroup]
  rfl

/-- The approved values as the recompute puts them together. -/
def carriedValues (previous : Option GroupApprovalDrift) (d : GroupContentDrift) : Properties :=
  match previous with
  | some p => d.approvedValues.update p.approvedValues
  | none => d.approvedValues

def carriedNames (previous : Option GroupApprovalDrift) (d : GroupContentDrift) : List String :=
  match previous with
  | some p => (d.changedProperties ++ p.changedProperties).dedup
  | none => d.changedProperties.dedup

def firstSeen (now : Timestamp) : Option GroupApprovalDrift → Option Timestamp
  | some p => (p.firstDetectedAt.or p.detectedAt).or (some now)
  | none => some now

/-- Where nothing diverges a marker is cleared. -/
def cleared : Option GroupApprovalDrift → Option (Option GroupApprovalDrift)
  | none => none
  | some _ => some none

/-- The names that the recompute reports. -/
def divergentNames (e : EdgeData) (d : GroupContentDrift) : List String :=
  sorted ((carriedNames (marker e) d).filter fun name =>
    diverges (e.properties.get? name) ((carriedValues (marker e) d).get? name))

theorem recomputedDrift_eq (hgroup : ∀ m, marker e = some m → m.groupId = d.groupId)
    (receiptId : Option String) (actorContext : Option GovernedActorContext) (now : Timestamp) :
    (divergentNames e d = [] ∧ marker e = none ∧
      recomputedDrift (row e) d receiptId actorContext now = none) ∨
    (divergentNames e d = [] ∧ recomputedDrift (row e) d receiptId actorContext now = some none) ∨
    (divergentNames e d ≠ [] ∧ ∃ m,
      recomputedDrift (row e) d receiptId actorContext now = some (some m) ∧
      m.groupId = d.groupId ∧ m.changedProperties = divergentNames e d ∧
      m.approvedValues = Dict.ofList ((carriedValues (marker e) d).entries.filter
        fun b => b.1 ∈ divergentNames e d)) := by
  have hrow : (row e).metadata.assertion.groupApprovalDrift = marker e := rfl
  have hprops : (row e).properties = e.properties := rfl
  have hcarried : (marker e).filter (fun p => p.groupId = d.groupId) = marker e := by
    cases hm : marker e with
    | none => rfl
    | some m => simp [hgroup m hm]
  have hdef : recomputedDrift (row e) d receiptId actorContext now =
      if divergentNames e d = [] then cleared (marker e)
      else some (some
        { groupId := d.groupId, changedProperties := divergentNames e d
          approvedValues := Dict.ofList ((carriedValues (marker e) d).entries.filter
            fun b => b.1 ∈ divergentNames e d)
          firstDetectedAt := firstSeen now (marker e)
          detectedAt := some now, receiptId := receiptId, actorContext := actorContext }) := by
    simp only [recomputedDrift, hrow, hprops, hcarried]
    rfl
  rw [hdef]
  by_cases hnil : divergentNames e d = []
  · rw [if_pos hnil]
    cases hm : marker e with
    | none => exact .inl ⟨hnil, rfl, rfl⟩
    | some m => exact .inr (.inl ⟨hnil, rfl⟩)
  · refine .inr (.inr ⟨hnil, ?_⟩)
    rw [if_neg hnil]
    exact ⟨_, rfl, rfl, rfl, rfl⟩

variable {approval : Approval}

theorem exact_stamped (c : Call) (hgroup : groupOf e = some approval.groupId)
    (hd : d.groupId = approval.groupId)
    (hprevious : ∀ m, marker e = some m → m.groupId = approval.groupId)
    (hcontent : PlainProperties approval.content)
    (hplain : PlainProperties (carriedValues (marker e) d))
    (hcarried : ∀ k ∈ carriedNames (marker e) d,
      Alike ((carriedValues (marker e) d).get? k) (approval.content.get? k))
    (hrest : ∀ k, k ∉ carriedNames (marker e) d →
      Alike (e.properties.get? k) (approval.content.get? k)) :
    Exact approval (stampedEdge (some d) c e) := by
  have hmem : ∀ k, k ∈ divergentNames e d ↔
      ¬ Alike (e.properties.get? k) (approval.content.get? k) := by
    intro k
    rw [divergentNames, mem_sorted_names, List.mem_filter]
    by_cases hk : k ∈ carriedNames (marker e) d
    · rw [diverges_congr (hplain k) (hcontent k) (hcarried k hk)]
      simp [hk, Alike]
    · simp [hk, hrest k hk]
  have hnone : divergentNames e d = [] ↔
      ∀ k, Alike (e.properties.get? k) (approval.content.get? k) := by
    rw [List.eq_nil_iff_forall_not_mem]
    exact forall_congr' fun k => by rw [hmem k, not_not]
  have hsame : ∀ m, marker e = some m → m.groupId = d.groupId :=
    fun m hm => (hprevious m hm).trans hd.symm
  have hcases := recomputedDrift_eq hsame c.receiptId c.actorContext c.now
  rcases hcases with ⟨hnil, hm, hdrift⟩ | ⟨hnil, hdrift⟩ | ⟨hsome, m, hdrift, hid, hnames, hvalues⟩
  · have hedge : stampedEdge (some d) c e = e := by simp [stampedEdge, hdrift]
    rw [hedge]
    refine ⟨hgroup, ⟨fun _ => hnone.mp hnil, fun _ => hm⟩, ?_, ?_, ?_, ?_⟩
    all_goals
      intro m' hm'
      rw [hm] at hm'
      cases hm'
  · have hmarker : marker (stampedEdge (some d) c e) = none := by
      simp [marker, stampedEdge, hdrift]
    have hkept : groupOf (stampedEdge (some d) c e) = groupOf e ∧
        (stampedEdge (some d) c e).properties = e.properties := by
      simp [stampedEdge, hdrift, groupOf]
    refine ⟨hkept.1.trans hgroup, ?_, ?_, ?_, ?_, ?_⟩
    · rw [hkept.2]
      exact ⟨fun _ => hnone.mp hnil, fun _ => hmarker⟩
    all_goals
      intro m' hm'
      rw [hmarker] at hm'
      cases hm'
  · have hmarker : marker (stampedEdge (some d) c e) = some m := by
      simp [marker, stampedEdge, hdrift]
    have hkept : groupOf (stampedEdge (some d) c e) = groupOf e ∧
        (stampedEdge (some d) c e).properties = e.properties := by
      simp [stampedEdge, hdrift, groupOf]
    have hread : ∀ k, m.approvedValues.get? k =
        if k ∈ divergentNames e d then (carriedValues (marker e) d).get? k else none := by
      intro k
      have hfilter := Dict.get?_ofList_filter (carriedValues (marker e) d)
        (fun name => decide (name ∈ divergentNames e d)) k
      rw [hvalues, hfilter]
      simp
    refine ⟨hkept.1.trans hgroup, ?_, ?_, ?_, ?_, ?_⟩
    · rw [hmarker, hkept.2, ← hnone]
      simp [hsome]
    · intro m' hm'
      rw [hmarker] at hm'
      rw [← Option.some.inj hm', hid, hd]
    · intro m' hm' k
      rw [hmarker] at hm'
      rw [← Option.some.inj hm', hkept.2, hnames]
      exact hmem k
    · intro m' hm' k hk
      rw [hmarker] at hm'
      rw [← Option.some.inj hm', hnames] at hk
      have hcand : k ∈ carriedNames (marker e) d :=
        (List.mem_filter.mp (mem_sorted_names.mp hk)).1
      rw [← Option.some.inj hm', hread, if_pos hk]
      exact hcarried k hcand
    · intro m' hm' k hk
      rw [hmarker] at hm'
      rw [← Option.some.inj hm', hnames] at hk
      rw [← Option.some.inj hm', hread, if_neg hk]

theorem plain_approvedValuesOf {stored : Properties} (h : PlainProperties stored)
    (changed : List String) : PlainProperties (approvedValuesOf stored changed) := by
  intro k v hv
  rw [get?_approvedValuesOf] at hv
  split_ifs at hv
  exact h k v hv

theorem plain_carriedValues {previous : Option GroupApprovalDrift}
    (hd : PlainProperties d.approvedValues)
    (hprevious : ∀ m, previous = some m → PlainProperties m.approvedValues) :
    PlainProperties (carriedValues previous d) := by
  intro k v hv
  cases previous with
  | none => exact hd k v hv
  | some m =>
    rw [carriedValues, Dict.get?_update] at hv
    cases hm : m.approvedValues.get? k with
    | none =>
      rw [hm, Option.none_or] at hv
      exact hd k v hv
    | some u =>
      rw [hm, Option.some_or] at hv
      exact hprevious m rfl k v (hm.trans hv)

variable (hp : Plain approval e) (he : Exact approval e) (hr : PlainProperties r.properties)

section
include hp he hr

theorem plain_written : Plain approval (writtenEdge r a c e) := by
  have hprops : (writtenEdge r a c e).properties = r.properties := by
    unfold writtenEdge stampedEdge
    split <;> rfl
  refine ⟨hp.content, by rw [hprops]; exact hr, ?_⟩
  intro m hm
  unfold writtenEdge stampedEdge at hm
  rw [groupContentDrift_eq he.group] at hm
  by_cases hnil : contentChange r (row e) = []
  · rw [if_pos hnil] at hm
    exact hp.recorded m hm
  · rw [if_neg hnil, Option.bind_some] at hm
    set d : GroupContentDrift :=
      { groupId := approval.groupId, changedProperties := contentChange r (row e)
        approvedValues := approvedValuesOf e.properties (contentChange r (row e)) }
    have hsame : ∀ m, marker (updatedEdge r a e) = some m → m.groupId = approval.groupId :=
      he.sameGroup
    rcases recomputedDrift_eq (d := d) hsame c.receiptId c.actorContext c.now with
      ⟨-, -, hdrift⟩ | ⟨-, hdrift⟩ | ⟨-, m', hdrift, -, -, hvalues⟩
    · rw [hdrift] at hm
      exact hp.recorded m hm
    · rw [hdrift] at hm
      cases hm
    · rw [hdrift] at hm
      have hmm : m' = m := Option.some.inj hm
      rw [← hmm, hvalues]
      intro k v hv
      have hread := Dict.get?_ofList_filter (carriedValues (marker (updatedEdge r a e)) d)
        (fun name => decide (name ∈ divergentNames (updatedEdge r a e) d)) k
      rw [hread] at hv
      split_ifs at hv
      exact plain_carriedValues (plain_approvedValuesOf hp.current _) hp.recorded k v hv

theorem exact_written (hleaves : LeavesAdditions approval e.properties r.properties) :
    Exact approval (writtenEdge r a c e) := by
  have hgroup := groupOf_updatedEdge (r := r) (a := a) he.group
  have hchanged : ∀ k, k ∈ contentChange r (row e) ↔
      ¬ Alike (r.properties.get? k) (e.properties.get? k) := by
    intro k
    rw [mem_contentChange, Alike, Bool.not_eq_false]
    rfl
  unfold writtenEdge
  rw [groupContentDrift_eq he.group]
  by_cases hnil : contentChange r (row e) = []
  · have hsame : ∀ k, Alike (r.properties.get? k) (e.properties.get? k) := by
      intro k
      by_contra hk
      have hmem := (hchanged k).mpr hk
      rw [hnil] at hmem
      cases hmem
    have hagree : ∀ k, Alike (r.properties.get? k) (approval.content.get? k) ↔
        Alike (e.properties.get? k) (approval.content.get? k) := by
      intro k
      constructor
      · exact fun h => ((hsame k).symm (hr k) (hp.current k)).trans h
      · exact fun h => (hsame k).trans h
    rw [if_pos hnil]
    refine ⟨hgroup, ?_, he.sameGroup, ?_, he.approved, he.onlyListed⟩
    · exact he.missing.trans (forall_congr' fun k => (hagree k).symm)
    · intro m hm k
      exact (he.listed m hm k).trans (not_congr (hagree k).symm)
  · rw [if_neg hnil]
    set d : GroupContentDrift :=
      { groupId := approval.groupId, changedProperties := contentChange r (row e)
        approvedValues := approvedValuesOf e.properties (contentChange r (row e)) } with hd
    have hbefore : ∀ k, d.approvedValues.get? k =
        if k ∈ contentChange r (row e) then e.properties.get? k else none :=
      get?_approvedValuesOf e.properties _
    apply exact_stamped c hgroup rfl he.sameGroup hp.content
    · exact plain_carriedValues (plain_approvedValuesOf hp.current _) hp.recorded
    · intro k hk
      rw [marker_updatedEdge] at hk ⊢
      cases hm : marker e with
      | none =>
        rw [hm, carriedNames, List.mem_dedup] at hk
        rw [carriedValues, hbefore k, if_pos hk]
        exact he.missing.mp hm k
      | some m =>
        rw [hm, carriedNames, List.mem_dedup, List.mem_append] at hk
        rw [carriedValues, Dict.get?_update, hbefore k]
        by_cases hlisted : k ∈ m.changedProperties
        · have happroved := he.approved m hm k hlisted
          have hdiffers := (he.listed m hm k).mp hlisted
          cases hv : m.approvedValues.get? k with
          | some v =>
            rw [Option.some_or]
            rw [hv] at happroved
            exact happroved
          | none =>
            have habsent : approval.content.get? k = none := by
              rw [hv] at happroved
              cases hc : approval.content.get? k with
              | none => rfl
              | some w => simp [hc, Alike, diverges] at happroved
            have hstored : e.properties.get? k ≠ none := by
              intro hnone
              rw [hnone, habsent] at hdiffers
              exact hdiffers rfl
            have hunchanged : k ∉ contentChange r (row e) := by
              rw [hchanged k, not_not]
              exact hleaves k habsent hstored
            rw [if_neg hunchanged, habsent]
            rfl
        · have hk' : k ∈ contentChange r (row e) := hk.resolve_right hlisted
          have halike : Alike (e.properties.get? k) (approval.content.get? k) := by
            by_contra hnot
            exact hlisted ((he.listed m hm k).mpr hnot)
          rw [he.onlyListed m hm k hlisted, Option.none_or, if_pos hk']
          exact halike
    · intro k hk
      rw [marker_updatedEdge] at hk
      have hunchanged : Alike (r.properties.get? k) (e.properties.get? k) := by
        by_contra hnot
        apply hk
        cases hm : marker e with
        | none => exact List.mem_dedup.mpr ((hchanged k).mpr hnot)
        | some m =>
          exact List.mem_dedup.mpr (List.mem_append_left _ ((hchanged k).mpr hnot))
      have hagrees : Alike (e.properties.get? k) (approval.content.get? k) := by
        cases hm : marker e with
        | none => exact he.missing.mp hm k
        | some m =>
          by_contra hnot
          apply hk
          rw [hm]
          exact List.mem_dedup.mpr (List.mem_append_right _ ((he.listed m hm k).mpr hnot))
      exact hunchanged.trans hagrees

end

theorem leavesAdditions_of_exact (he : Exact approval e)
    (hafter : Exact approval (writtenEdge r a c e)) :
    LeavesAdditions approval e.properties r.properties := by
  intro k habsent hstored
  by_contra hdiffers
  have ⟨u, hu⟩ := Option.ne_none_iff_exists'.mp hstored
  have hchanged : k ∈ contentChange r (row e) := by
    rw [mem_contentChange]
    rw [Alike, Bool.not_eq_false] at hdiffers
    exact hdiffers
  have hnil : contentChange r (row e) ≠ [] := List.ne_nil_of_mem hchanged
  set d : GroupContentDrift :=
    { groupId := approval.groupId, changedProperties := contentChange r (row e)
      approvedValues := approvedValuesOf e.properties (contentChange r (row e)) } with hd
  have hwritten : writtenEdge r a c e = stampedEdge (some d) c (updatedEdge r a e) := by
    unfold writtenEdge
    rw [groupContentDrift_eq he.group, if_neg hnil]
  have hbefore : d.approvedValues.get? k = some u := by
    rw [hd, get?_approvedValuesOf, if_pos hchanged, hu]
  have hcarried : (carriedValues (marker (updatedEdge r a e)) d).get? k = some u := by
    rw [marker_updatedEdge]
    cases hm : marker e with
    | none => exact hbefore
    | some m =>
      have hlisted : k ∈ m.changedProperties := by
        rw [he.listed m hm k, hu, habsent]
        simp [Alike, diverges]
      have happroved := he.approved m hm k hlisted
      have hnone : m.approvedValues.get? k = none := by
        rw [habsent] at happroved
        cases hv : m.approvedValues.get? k with
        | none => rfl
        | some v => simp [hv, Alike, diverges] at happroved
      rw [carriedValues, Dict.get?_update, hnone, Option.none_or]
      exact hbefore
  have hdivergent : k ∈ divergentNames (updatedEdge r a e) d := by
    rw [divergentNames, mem_sorted_names, List.mem_filter, hcarried]
    constructor
    · rw [marker_updatedEdge]
      cases marker e with
      | none => exact List.mem_dedup.mpr hchanged
      | some m => exact List.mem_dedup.mpr (List.mem_append_left _ hchanged)
    · rw [Alike, Bool.not_eq_false, hu] at hdiffers
      exact hdiffers
  have hsame : ∀ m, marker (updatedEdge r a e) = some m → m.groupId = d.groupId := he.sameGroup
  rcases recomputedDrift_eq hsame c.receiptId c.actorContext c.now with
    ⟨hempty, _⟩ | ⟨hempty, _⟩ | ⟨_, m, hdrift, _, hnames, hvalues⟩
  · rw [hempty] at hdivergent
    cases hdivergent
  · rw [hempty] at hdivergent
    cases hdivergent
  · have hmarker : marker (writtenEdge r a c e) = some m := by
      rw [hwritten]
      simp [marker, stampedEdge, hdrift]
    have hread : m.approvedValues.get? k = some u := by
      have hfilter := Dict.get?_ofList_filter (carriedValues (marker (updatedEdge r a e)) d)
        (fun name => decide (name ∈ divergentNames (updatedEdge r a e) d)) k
      rw [hvalues, hfilter, if_pos (by simpa using hdivergent), hcarried]
    have happroved := hafter.approved m hmarker k (hnames ▸ hdivergent)
    rw [hread, habsent] at happroved
    simp [Alike, diverges] at happroved
include hp he hr in
theorem exact_written_iff :
    Exact approval (writtenEdge r a c e) ↔ LeavesAdditions approval e.properties r.properties := by
  constructor
  · exact leavesAdditions_of_exact he
  · exact exact_written hp he hr

end Cruxible.DriftMarkers
