import Cruxible.CanonicalJson
import Cruxible.FallibleLoops
import Cruxible.GroupDrift
import Cruxible.Groupings

/-!
# Uniqueness checks

A uniqueness check groups the entities of a type by the tuple of the listed properties, in a
dictionary. A list or an object cannot be hashed, so one such value aborts the check, and a
boolean is the same key as the number that it counts as.
-/
namespace Cruxible.UniquenessChecks
open JsonValue AssertionState PythonDict Cruxible.Graph Groupings Fallible

structure UniquenessQualityCheck where
  name : String
  severity : String := "warning"
  entityType : String
  properties : List String

/-- `EvaluationFinding` of a uniqueness check, with its detail. -/
structure Finding where
  severity : String
  message : String
  checkName : String
  entityType : String
  properties : List String
  values : List Value
  entityIds : List String

/-- What hashing and equality see of a value. Two `nan` are one key only as one object,
as those of one JSON parser are. -/
inductive HashKey where
  | number (q : Rat)
  | posInf
  | negInf
  | nan (object : Nat)
  | text (s : String)
  | absent
  deriving DecidableEq

def hashKey (object : Nat) : Value → Except String HashKey
  | .null => .ok .absent
  | .bool b => .ok (.number (if b then 1 else 0))
  | .int n => .ok (.number n)
  | .float (.finite q) => .ok (.number q)
  | .float .negZero => .ok (.number 0)
  | .float .posInf => .ok .posInf
  | .float .negInf => .ok .negInf
  | .float .nan => .ok (.nan object)
  | .str s => .ok (.text s)
  | .array _ => .error "unhashable type: 'list'"
  | .object _ => .error "unhashable type: 'dict'"

/-- An entity with the values of the listed properties. -/
structure Row where
  entityId : String
  values : List Value
  deriving DecidableEq

def property (e : EntityInstance) (name : String) : Option Value :=
  match e.properties.get? name with
  | some .null => none
  | v => v

/-- An entity is skipped if one of the properties is absent or null. -/
def row (check : UniquenessQualityCheck) (e : EntityInstance) : Option Row :=
  (check.properties.mapM (property e)).map fun values => ⟨e.entityId, values⟩

/-- The key of a row, given which object a `nan` is at each entity and place. -/
def Row.key (nanObject : String → Nat → Nat) (r : Row) : Except String (List HashKey) :=
  r.values.zipIdx.mapM fun v => hashKey (nanObject r.entityId v.2) v.1

def finding (repr : List String → String) (check : UniquenessQualityCheck) (members : List Row) :
    Option Finding :=
  if members.length < 2 then none
  else
    let sortedIds := GroupDrift.sorted (members.map Row.entityId)
    some {
      severity := check.severity
      message := "Quality check '" ++ check.name ++ "' failed: " ++ toString sortedIds.length ++
        " " ++ check.entityType ++ " entities share " ++ repr check.properties
      checkName := check.name
      entityType := check.entityType
      properties := check.properties
      values := (members.head?.map Row.values).getD []
      entityIds := sortedIds }

/-- `_run_uniqueness_quality_check` on what `list_entities` returned. -/
def runUniquenessQualityCheck (nanObject : String → Nat → Nat) (repr : List String → String)
    (check : UniquenessQualityCheck) (entities : List EntityInstance)
    (qualitySummary : Dict String Nat) :
    Except String (List Finding × Dict String Nat) := do
  let rows := entities.filterMap (row check)
  let keyed ← rows.mapM fun r => (r.key nanObject).map fun k => (k, r)
  let findings := (group keyed).entries.filterMap fun e => finding repr check e.2
  return (findings, findings.foldl
    (fun d f => d.set f.checkName ((d.get? f.checkName).getD 0 + 1)) qualitySummary)

/-- A maximal set of two or more rows that agree, by its ids in order. -/
structure SharedSet {κ : Type} (rows : List Row) (f : Row → κ) (ids : List String) : Prop where
  sorted : ids.Pairwise (· < ·)
  several : 2 ≤ ids.length
  listed : ∀ i ∈ ids, ∃ r ∈ rows, r.entityId = i
  agree : ∀ r ∈ rows, r.entityId ∈ ids → ∀ s ∈ rows, s.entityId ∈ ids ↔ f r = f s

mutual

/-- A value with every number written in one way. -/
def oneNumeral : Value → Value
  | .int n => .float (.finite n)
  | .float .negZero => .float (.finite 0)
  | .array items => .array (oneNumeralItems items)
  | .object entries => .object (oneNumeralEntries entries)
  | v => v

def oneNumeralItems : List Value → List Value
  | [] => []
  | v :: vs => oneNumeral v :: oneNumeralItems vs

def oneNumeralEntries : List (String × Value) → List (String × Value)
  | [] => []
  | (k, v) :: es => (k, oneNumeral v) :: oneNumeralEntries es

end

/-- Rows with equal JSON values have one form. -/
def jsonForm (r : Row) : List Value := r.values.map fun v => (oneNumeral v).canonical

/-- The check completes, with one finding for each set of entities that share their values. -/
def Exact (nanObject : String → Nat → Nat) (repr : List String → String)
    (check : UniquenessQualityCheck) (entities : List EntityInstance)
    (qualitySummary : Dict String Nat) : Prop :=
  ∃ findings summary,
    runUniquenessQualityCheck nanObject repr check entities qualitySummary =
        .ok (findings, summary) ∧
      (findings.map Finding.entityIds).Nodup ∧
      ∀ ids, ids ∈ findings.map Finding.entityIds ↔
        SharedSet (entities.filterMap (row check)) jsonForm ids

section Sets

variable {κ μ : Type} {rows : List Row} {f : Row → κ} {g : Row → μ} {ids : List String} {r s : Row}
  (hrows : (rows.map Row.entityId).Nodup)

include hrows in
theorem eq_of_entityId (hr : r ∈ rows) (hs : s ∈ rows) (h : r.entityId = s.entityId) : r = s :=
  List.inj_on_of_nodup_map hrows hr hs h

/-- The ids of the rows with one value. -/
def classIds [DecidableEq κ] (rows : List Row) (f : Row → κ) (q : κ) : List String :=
  GroupDrift.sorted ((rows.filter fun r => f r = q).map Row.entityId)

variable {q : κ}

theorem mem_classIds [DecidableEq κ] {i : String} :
    i ∈ classIds rows f q ↔ ∃ r ∈ rows, f r = q ∧ r.entityId = i := by
  unfold classIds GroupDrift.sorted
  rw [List.mem_insertionSort]
  simp [and_assoc]

section
include hrows

theorem entityId_mem_classIds [DecidableEq κ] (hr : r ∈ rows) :
    r.entityId ∈ classIds rows f q ↔ f r = q := by
  rw [mem_classIds]
  constructor
  · rintro ⟨s, hs, hq, hid⟩
    rwa [← eq_of_entityId hrows hs hr hid]
  · exact fun hq => ⟨r, hr, hq, rfl⟩

theorem classIds_sorted [DecidableEq κ] : (classIds rows f q).Pairwise (· < ·) := by
  have hnodup : (classIds rows f q).Nodup := by
    unfold classIds GroupDrift.sorted
    rw [(List.perm_insertionSort _ _).nodup_iff]
    exact hrows.sublist (List.filter_sublist.map _)
  have hle : (classIds rows f q).Pairwise (· ≤ ·) := List.pairwise_insertionSort _ _
  exact hle.imp₂ (fun _ _ hle hne => lt_of_le_of_ne hle hne) hnodup

theorem sharedSet_classIds [DecidableEq κ] (hseveral : 2 ≤ (rows.filter fun r => f r = q).length) :
    SharedSet rows f (classIds rows f q) where
  sorted := classIds_sorted hrows
  several := by
    unfold classIds GroupDrift.sorted
    rwa [List.length_insertionSort, List.length_map]
  listed i hi := by
    obtain ⟨r, hr, -, hid⟩ := mem_classIds.mp hi
    exact ⟨r, hr, hid⟩
  agree r hr hrq s hs := by
    rw [entityId_mem_classIds hrows hr] at hrq
    rw [entityId_mem_classIds hrows hs, hrq, eq_comm]

theorem SharedSet.eq_classIds [DecidableEq κ] (h : SharedSet rows f ids) (hr : r ∈ rows)
    (hrids : r.entityId ∈ ids) : ids = classIds rows f (f r) := by
  refine h.sorted.eq_of_mem_iff (classIds_sorted hrows) ?_
  intro i
  rw [mem_classIds]
  constructor
  · intro hi
    obtain ⟨s, hs, rfl⟩ := h.listed i hi
    exact ⟨s, hs, ((h.agree r hr hrids s hs).mp hi).symm, rfl⟩
  · rintro ⟨s, hs, hfs, rfl⟩
    exact (h.agree r hr hrids s hs).mpr hfs.symm

end

theorem two_le_length {α : Type} {xs : List α} {x y : α} (hx : x ∈ xs) (hy : y ∈ xs)
    (hne : x ≠ y) : 2 ≤ xs.length := by
  match xs with
  | [] => cases hx
  | [z] => exact absurd ((List.mem_singleton.mp hx).trans (List.mem_singleton.mp hy).symm) hne
  | _ :: _ :: zs => exact Nat.le_add_left 2 zs.length

include hrows in
theorem agree_of_sharedSets [DecidableEq κ] (h : ∀ ids, SharedSet rows f ids → SharedSet rows g ids)
    (hr : r ∈ rows) (hs : s ∈ rows) (hf : f r = f s) : g r = g s := by
  by_cases hne : r = s
  · rw [hne]
  · have hclass := h _ (sharedSet_classIds hrows (q := f s) (two_le_length
      (List.mem_filter.mpr ⟨hr, decide_eq_true hf⟩) (List.mem_filter.mpr ⟨hs, decide_eq_true rfl⟩)
      hne))
    have hrids := (entityId_mem_classIds (f := f) hrows hr).mpr hf
    exact (hclass.agree r hr hrids s hs).mp ((entityId_mem_classIds hrows hs).mpr rfl)

theorem SharedSet.congr (h : ∀ r ∈ rows, ∀ s ∈ rows, f r = f s ↔ g r = g s)
    (hf : SharedSet rows f ids) : SharedSet rows g ids where
  sorted := hf.sorted
  several := hf.several
  listed := hf.listed
  agree r hr hrids s hs := (hf.agree r hr hrids s hs).trans (h r hr s hs)

/-- The sets of rows that agree, each once. -/
def sharedSets [DecidableEq κ] (rows : List Row) (f : Row → κ) : List (List String) :=
  (firstKeys (rows.map fun r => (f r, r))).filterMap fun q =>
    if (rows.filter fun r => f r = q).length < 2 then none else some (classIds rows f q)

section
include hrows

theorem mem_sharedSets [DecidableEq κ] : ids ∈ sharedSets rows f ↔ SharedSet rows f ids := by
  unfold sharedSets
  rw [List.mem_filterMap]
  constructor
  · rintro ⟨q, -, hq⟩
    split_ifs at hq with hfew
    obtain rfl := Option.some.inj hq
    exact sharedSet_classIds hrows (not_lt.mp hfew)
  · intro h
    obtain ⟨i, hi⟩ := List.exists_mem_of_length_pos (Nat.zero_lt_of_lt h.several)
    obtain ⟨r, hr, rfl⟩ := h.listed i hi
    have hids := h.eq_classIds hrows hr hi
    have hseveral := h.several
    rw [hids, classIds, GroupDrift.sorted, List.length_insertionSort, List.length_map] at hseveral
    refine ⟨f r, mem_firstKeys.mpr ?_, ?_⟩
    · simp only [List.map_map, List.mem_map, Function.comp_apply]
      exact ⟨r, hr, rfl⟩
    · rw [if_neg (not_lt.mpr hseveral), hids]

theorem nodup_sharedSets [DecidableEq κ] : (sharedSets rows f).Nodup := by
  refine (nodup_firstKeys _).filterMap ?_
  intro q q' ids hq hq'
  rw [Option.mem_def] at hq hq'
  split_ifs at hq hq' with hfew hfew'
  have hids := (Option.some.inj hq).trans (Option.some.inj hq').symm
  obtain ⟨r, hr⟩ := List.exists_mem_of_length_pos (Nat.zero_lt_of_lt (not_lt.mp hfew))
  obtain ⟨hr, hrq⟩ := List.mem_filter.mp hr
  have hmem : r.entityId ∈ classIds rows f q := mem_classIds.mpr ⟨r, hr, of_decide_eq_true hrq, rfl⟩
  rw [hids, entityId_mem_classIds hrows hr] at hmem
  exact (of_decide_eq_true hrq).symm.trans hmem

end

end Sets

theorem entries_group {κ α : Type} [DecidableEq κ] (es : List (κ × α)) :
    (group es).entries = (firstKeys es).map fun q => (q, members es q) := by
  rw [← keys_group, Dict.keys, List.map_map]
  refine (List.map_id _).symm.trans (List.map_congr_left ?_)
  intro e he
  have hmembers := getD_group es e.1
  rw [Dict.get?_of_mem (show (e.1, e.2) ∈ (group es).entries from he), Option.getD_some] at hmembers
  simp [← hmembers]

variable {nanObject : String → Nat → Nat}

/-- The key of a row whose values can all be hashed. -/
def keyOf (nanObject : String → Nat → Nat) (r : Row) : List HashKey :=
  (r.key nanObject).toOption.getD []

theorem keyed_eq_ok {rows : List Row} {out : List (List HashKey × Row)} :
    (rows.mapM fun r => (r.key nanObject).map fun k => (k, r)) = .ok out ↔
      (∀ r ∈ rows, r.key nanObject = .ok (keyOf nanObject r)) ∧
        out = rows.map fun r => (keyOf nanObject r, r) := by
  induction rows generalizing out with
  | nil =>
    rw [List.mapM_nil, pure_eq_ok]
    simp [eq_comm]
  | cons r rows ih =>
    simp only [mapM_cons_eq_ok, ih]
    cases hr : r.key nanObject with
    | error e => simp [Except.map, hr]
    | ok k =>
      have hk : keyOf nanObject r = k := by rw [keyOf, hr]; rfl
      simp [Except.map, hr, hk]

theorem findings_entityIds (repr : List String → String) (check : UniquenessQualityCheck)
    (rows : List Row) :
    ((group (rows.map fun r => (keyOf nanObject r, r))).entries.filterMap
      fun e => finding repr check e.2).map Finding.entityIds =
        sharedSets rows (keyOf nanObject) := by
  have hmembers : ∀ q, members (rows.map fun r => (keyOf nanObject r, r)) q =
      rows.filter fun r => keyOf nanObject r = q := by
    intro q
    simp [members, List.filter_map, Function.comp_def]
  rw [entries_group, List.filterMap_map, List.map_filterMap]
  refine List.filterMap_congr ?_
  intro q _
  simp only [Function.comp_apply, hmembers, finding, classIds]
  split_ifs <;> rfl

theorem nodup_entityIds {g : EntityGraph} {t : String} (hg : WellFormed g) :
    (((g.nodes.entries.map Prod.snd).filter fun e => e.entityType = t).map
      EntityInstance.entityId).Nodup := by
  have hnodes : (g.nodes.entries.map Prod.snd).map EntityInstance.nodeId = g.nodes.keys := by
    rw [List.map_map]
    refine List.map_congr_left ?_
    intro e he
    exact hg.keyed e.1 e.2 (Dict.get?_of_mem he)
  refine List.Nodup.of_map (makeNodeId t) ?_
  have htyped : (((g.nodes.entries.map Prod.snd).filter fun e => e.entityType = t).map
      EntityInstance.entityId).map (makeNodeId t) =
      ((g.nodes.entries.map Prod.snd).filter fun e => e.entityType = t).map
        EntityInstance.nodeId := by
    rw [List.map_map]
    refine List.map_congr_left ?_
    intro e he
    rw [← of_decide_eq_true (List.mem_filter.mp he).2]
    rfl
  rw [htyped]
  have hall : ((g.nodes.entries.map Prod.snd).map EntityInstance.nodeId).Nodup := by
    rw [hnodes]
    exact g.nodes.nodup
  exact hall.sublist (List.filter_sublist.map _)

theorem row_entityId {check : UniquenessQualityCheck} {e : EntityInstance} {r : Row}
    (h : row check e = some r) : r.entityId = e.entityId := by
  obtain ⟨values, -, rfl⟩ := Option.map_eq_some_iff.mp h
  rfl

theorem rows_entityIds_sublist (check : UniquenessQualityCheck) (entities : List EntityInstance) :
    ((entities.filterMap (row check)).map Row.entityId).Sublist
      (entities.map EntityInstance.entityId) := by
  induction entities with
  | nil => exact List.Sublist.refl _
  | cons e entities ih =>
    cases he : row check e with
    | none =>
      rw [List.filterMap_cons_none he]
      exact ih.cons _
    | some r =>
      rw [List.filterMap_cons_some he, List.map_cons, List.map_cons, row_entityId he]
      exact ih.cons_cons _

/-- The check reports the sets of entities that share their values exactly where all values can
be hashed and no two of them are one key without being one JSON value. -/
theorem uniqueness_exact_iff {g : EntityGraph} {check : UniquenessQualityCheck}
    {entities : List EntityInstance} (nanObject : String → Nat → Nat)
    (repr : List String → String) (qualitySummary : Dict String Nat) (hg : WellFormed g)
    (hlist : entities.Perm
      ((g.nodes.entries.map Prod.snd).filter fun e => e.entityType = check.entityType)) :
    Exact nanObject repr check entities qualitySummary ↔
      ∀ r ∈ entities.filterMap (row check), (∃ k, r.key nanObject = .ok k) ∧
        ∀ s ∈ entities.filterMap (row check),
          r.key nanObject = s.key nanObject ↔ jsonForm r = jsonForm s := by
  have hrows : ((entities.filterMap (row check)).map Row.entityId).Nodup := by
    have hids := (hlist.map EntityInstance.entityId).nodup_iff.mpr (nodup_entityIds hg)
    exact hids.sublist (rows_entityIds_sublist check entities)
  have hrun : ∀ {findings summary},
      runUniquenessQualityCheck nanObject repr check entities qualitySummary =
          .ok (findings, summary) →
        (∀ r ∈ entities.filterMap (row check), r.key nanObject = .ok (keyOf nanObject r)) ∧
          findings.map Finding.entityIds =
            sharedSets (entities.filterMap (row check)) (keyOf nanObject) := by
    intro findings summary h
    obtain ⟨keyed, hkeyed, h⟩ := bind_eq_ok.mp h
    obtain ⟨hkeys, rfl⟩ := keyed_eq_ok.mp hkeyed
    obtain ⟨rfl, -⟩ := Prod.mk.inj (Except.ok.inj h)
    exact ⟨hkeys, findings_entityIds repr check _⟩
  constructor
  case mp =>
    rintro ⟨findings, summary, hok, -, hexact⟩
    obtain ⟨hkeys, hids⟩ := hrun hok
    have hsets : ∀ ids, SharedSet (entities.filterMap (row check)) (keyOf nanObject) ids ↔
        SharedSet (entities.filterMap (row check)) jsonForm ids := by
      intro ids
      rw [← hexact, hids, mem_sharedSets hrows]
    intro r hr
    refine ⟨⟨keyOf nanObject r, hkeys r hr⟩, ?_⟩
    intro s hs
    rw [hkeys r hr, hkeys s hs, Except.ok.injEq]
    constructor
    · exact agree_of_sharedSets hrows (fun ids => (hsets ids).mp) hr hs
    · exact agree_of_sharedSets hrows (fun ids => (hsets ids).mpr) hr hs
  case mpr =>
    intro h
    have hkeys : ∀ r ∈ entities.filterMap (row check),
        r.key nanObject = .ok (keyOf nanObject r) := by
      intro r hr
      obtain ⟨⟨k, hk⟩, -⟩ := h r hr
      rw [hk, keyOf, hk]
      rfl
    have hagree : ∀ r ∈ entities.filterMap (row check), ∀ s ∈ entities.filterMap (row check),
        keyOf nanObject r = keyOf nanObject s ↔ jsonForm r = jsonForm s := by
      intro r hr s hs
      rw [← (h r hr).2 s hs, hkeys r hr, hkeys s hs, Except.ok.injEq]
    have hok : ∃ findings summary,
        runUniquenessQualityCheck nanObject repr check entities qualitySummary =
          .ok (findings, summary) :=
      ⟨_, _, bind_eq_ok.mpr ⟨_, keyed_eq_ok.mpr ⟨hkeys, rfl⟩, rfl⟩⟩
    obtain ⟨findings, summary, hok⟩ := hok
    refine ⟨findings, summary, hok, ?_, ?_⟩
    · rw [(hrun hok).2]
      exact nodup_sharedSets hrows
    · intro ids
      rw [(hrun hok).2, mem_sharedSets hrows]
      constructor
      · exact SharedSet.congr hagree
      · exact SharedSet.congr fun r hr s hs => (hagree r hr s hs).symm

def labelled (entityId : String) (value : Value) : EntityInstance where
  entityType := "Service"
  entityId := entityId
  properties := Dict.ofList [("label", value)]

def labelledGraph (a b : Value) : EntityGraph where
  nodes := Dict.ofList
    [(makeNodeId "Service" "a", labelled "a" a), (makeNodeId "Service" "b", labelled "b" b)]

def labelCheck : UniquenessQualityCheck where
  name := "labels"
  entityType := "Service"
  properties := ["label"]

theorem wellFormed_labelledGraph (a b : Value) : WellFormed (labelledGraph a b) :=
  (WellFormed.empty.setNode (d := labelled "a" a) rfl).setNode (d := labelled "b" b) rfl

theorem uniqueness_exact_iff_texts :
    Exact (fun _ _ => 0) (fun _ => "") labelCheck
      [labelled "a" (.str "x"), labelled "b" (.str "x")] ∅ := by
  refine (@uniqueness_exact_iff _ labelCheck [labelled "a" (.str "x"), labelled "b" (.str "x")]
    (fun _ _ => 0) (fun _ => "") ∅ (wellFormed_labelledGraph (.str "x") (.str "x"))
    (List.Perm.refl _)).mpr ?_
  have hrows : ([labelled "a" (.str "x"), labelled "b" (.str "x")].filterMap (row labelCheck)) =
      [⟨"a", [.str "x"]⟩, ⟨"b", [.str "x"]⟩] := rfl
  intro r hr
  rw [hrows] at hr ⊢
  have htext : r.key (fun _ _ => 0) = .ok [.text "x"] ∧ jsonForm r = [.str "x"] := by
    rcases List.mem_cons.mp hr with rfl | hr
    · exact ⟨rfl, rfl⟩
    · obtain rfl := List.mem_singleton.mp hr
      exact ⟨rfl, rfl⟩
  refine ⟨⟨_, htext.1⟩, ?_⟩
  intro s hs
  rcases List.mem_cons.mp hs with rfl | hs
  · exact iff_of_true htext.1 htext.2
  · obtain rfl := List.mem_singleton.mp hs
    exact iff_of_true htext.1 htext.2

/-- One list aborts the check, and `true` is reported as a duplicate of `1`. -/
theorem labels_are_not_exact :
    ¬Exact (fun _ _ => 0) (fun _ => "") labelCheck
        [labelled "a" (.array []), labelled "b" (.array [])] ∅ ∧
      ¬Exact (fun _ _ => 0) (fun _ => "") labelCheck
        [labelled "a" (.bool true), labelled "b" (.int 1)] ∅ := by
  constructor
  · rintro ⟨findings, summary, hok, -⟩
    have herror : runUniquenessQualityCheck (fun _ _ => 0) (fun _ => "") labelCheck
        [labelled "a" (.array []), labelled "b" (.array [])] ∅ =
          .error "unhashable type: 'list'" := rfl
    rw [herror] at hok
    cases hok
  · rintro ⟨findings, summary, hok, -, hexact⟩
    have hids : findings.map Finding.entityIds = [["a", "b"]] := by
      have hrun := congrArg (fun x => x.toOption.map fun p => p.1.map Finding.entityIds) hok
      exact Option.some.inj (hrun.symm.trans (by decide +kernel))
    have hshared := (hexact ["a", "b"]).mp (by rw [hids]; exact List.mem_singleton_self _)
    have hagree := hshared.agree ⟨"a", [.bool true]⟩ (by decide +kernel) (by decide)
      ⟨"b", [.int 1]⟩ (by decide +kernel)
    exact absurd (hagree.mp (by decide)) (by decide +kernel)

end Cruxible.UniquenessChecks
