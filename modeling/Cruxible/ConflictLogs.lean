import Cruxible.CappedLogs
import Cruxible.Graph
import Mathlib.Data.List.Induction

/-!
# The log of pending conflicts

`service/mutations.py`: a direct write on a tuple that an open group proposes appends a
record to the group's analysis state. The log is read from the stored JSON, truncated
for each tuple and written back beside a summary of its counts. Whatever else a
proposer has left under the two keys is read as leniently as the source reads it.
-/
namespace Cruxible.ConflictLogs
open JsonValue PythonDict AssertionState CappedLogs
open Cruxible.Graph (blank)

/-- A conflict record, or any other object in the log. -/
abbrev Record := List (String × Value)

/-- `identity_tuple`. -/
abbrev Tuple := String × String × String × String × String

def conflictsKey : String := "direct_write_conflicts"

def summaryKey : String := "direct_write_conflict_summary"

def maxRecordsPerTuple : Nat := 20

def reviewHint : String := "live_state_changed_since_proposal"

def textAt (r : Record) (key : String) : Option String :=
  match r.lookup key with
  | some (.str s) => some s
  | _ => none

/-- `relationship_type`, or its alias where the name is absent. -/
def relationshipTypeOf (r : Record) : Option String :=
  if (r.lookup "relationship_type").isSome then textAt r "relationship_type"
  else textAt r "relationship"

/-- The validation library's verdict on the fields of a relationship that a conflict
record leaves out or gives as null or an integer: `edge_key`, `properties` and
`metadata`. -/
structure RecordReader where
  accepts : Option Value → Option Value → Option Value → Bool
  accepts_null : accepts (some .null) none none = true
  accepts_int : ∀ k, accepts (some (.int k)) none none = true

def claimIdOk (r : Record) : Bool :=
  match r.lookup "claim_id" with
  | none | some .null => true
  | some (.str s) => !blank s
  | _ => false

/-- `_record_identity`. -/
def recordIdentity (reader : RecordReader) (r : Record) : Option Tuple := do
  let relationshipType ← relationshipTypeOf r
  let fromType ← textAt r "from_type"
  let fromId ← textAt r "from_id"
  let toType ← textAt r "to_type"
  let toId ← textAt r "to_id"
  if claimIdOk r && reader.accepts (r.lookup "edge_key") (r.lookup "properties")
      (r.lookup "metadata") then
    some (fromType, fromId, toType, toId, relationshipType)
  else none

/-- A conflict: the interaction, with the persisted edge if there is one. The claim id
of a persisted edge is not blank. -/
structure Conflict where
  tuple : Tuple
  receiptId : Option String
  edgeKey : Option Int
  claimId : Option String
  claimId_ok : claimId.all (fun c => !blank c) = true
  detectedAt : String
  source : String
  sourceRef : String
  actorContext : Option Value

def textOrNull : Option String → Value
  | some s => .str s
  | none => .null

def intOrNull : Option Int → Value
  | some k => .int k
  | none => .null

/-- `_direct_write_conflict_record`. -/
def directWriteConflictRecord (c : Conflict) : Record :=
  [("relationship_type", .str c.tuple.2.2.2.2),
    ("from_type", .str c.tuple.1),
    ("from_id", .str c.tuple.2.1),
    ("to_type", .str c.tuple.2.2.1),
    ("to_id", .str c.tuple.2.2.2.1),
    ("receipt_id", textOrNull c.receiptId),
    ("edge_key", intOrNull c.edgeKey),
    ("claim_id", textOrNull c.claimId),
    ("detected_at", .str c.detectedAt),
    ("source", .str c.source),
    ("source_ref", .str c.sourceRef)] ++
  (c.actorContext.map fun a => ("actor_context", a)).toList

theorem recordIdentity_conflict (reader : RecordReader) (c : Conflict) :
    recordIdentity reader (directWriteConflictRecord c) = some c.tuple := by
  have hclaim : claimIdOk (directWriteConflictRecord c) = true := by
    have hlook : (directWriteConflictRecord c).lookup "claim_id" = some (textOrNull c.claimId) := by
      simp [directWriteConflictRecord, List.lookup_cons]
    have hok := c.claimId_ok
    unfold claimIdOk
    rw [hlook]
    cases hc : c.claimId with
    | none => rfl
    | some s =>
      rw [hc] at hok
      simpa [textOrNull] using hok
  have hedge : (directWriteConflictRecord c).lookup "edge_key" = some (intOrNull c.edgeKey) := by
    simp [directWriteConflictRecord, List.lookup_cons]
  have hproperties : (directWriteConflictRecord c).lookup "properties" = none := by
    cases ha : c.actorContext <;> simp [directWriteConflictRecord, List.lookup_cons, ha]
  have hmetadata : (directWriteConflictRecord c).lookup "metadata" = none := by
    cases ha : c.actorContext <;> simp [directWriteConflictRecord, List.lookup_cons, ha]
  have haccepts : reader.accepts (some (intOrNull c.edgeKey)) none none = true := by
    cases c.edgeKey with
    | none => exact reader.accepts_null
    | some k => exact reader.accepts_int k
  unfold recordIdentity
  rw [hclaim, hedge, hproperties, hmetadata, haccepts]
  simp [directWriteConflictRecord, relationshipTypeOf, textAt, List.lookup_cons]

def record? : Value → Option Record
  | .object entries => some entries
  | _ => none

/-- The records that the state holds; what is no object is passed over. -/
def existingRecords (state : Properties) : List Record :=
  match state.get? conflictsKey with
  | some (.array items) => items.filterMap record?
  | _ => []

/-- `isinstance(value, int)`; a boolean is an integer. -/
def int? : Value → Option Int
  | .int n => some n
  | .bool b => some (if b then 1 else 0)
  | _ => none

def summaryField (state : Properties) (key : String) : Option Value :=
  match state.get? summaryKey with
  | some (.object entries) => entries.lookup key
  | _ => none

/-- The dropped count of the previous summary. -/
def previouslyDropped (state : Properties) : Int :=
  ((summaryField state "dropped_record_count").bind int?).getD 0

/-- What one merge appends, and the group that it finds. -/
structure Merge where
  members : List Tuple
  memberCount : Nat
  conflicts : List Conflict

def Merge.records (m : Merge) : List Record := m.conflicts.map directWriteConflictRecord

/-- The summary of a retained log. -/
def conflictSummary (reader : RecordReader) (m : Merge) (retained : List Record) (dropped : Int) :
    Record :=
  let memberIdentities := m.members.dedup
  let conflicted := memberIdentities.filter fun t =>
    decide (some t ∈ retained.map (recordIdentity reader))
  let memberCount := if memberIdentities.isEmpty then m.memberCount else memberIdentities.length
  [("conflicted_member_count", .int conflicted.length),
    ("member_count", .int memberCount),
    ("coverage", .str (if 0 < memberCount ∧ memberCount ≤ conflicted.length then "full"
      else "partial")),
    ("last_receipt_id", ((m.conflicts.getLast?.bind Conflict.receiptId).map Value.str).getD .null),
    ("review_hint", .str reviewHint),
    ("record_count", .int retained.length),
    ("dropped_record_count", .int dropped)]

/-- `_merge_direct_write_conflict_state`: the state that is stored. -/
def mergeConflicts (reader : RecordReader) (state : Properties) (m : Merge) : Properties :=
  let log := existingRecords state ++ m.records
  let bounded := boundedLog (recordIdentity reader) maxRecordsPerTuple log
  let dropped := (bounded.2 : Int) + previouslyDropped state
  (state.set conflictsKey (.array (bounded.1.map .object))).set summaryKey
    (.object (conflictSummary reader m bounded.1 dropped))

theorem existingRecords_merge (reader : RecordReader) (state : Properties) (m : Merge) :
    existingRecords (mergeConflicts reader state m) =
      (boundedLog (recordIdentity reader) maxRecordsPerTuple
        (existingRecords state ++ m.records)).1 := by
  unfold existingRecords mergeConflicts
  rw [Dict.get?_set_of_ne _ _ (by decide), Dict.get?_set_self]
  simp only [List.filterMap_map]
  have hround : record? ∘ Value.object = some := rfl
  rw [hround, List.filterMap_some]
  rfl

theorem summaryField_merge (reader : RecordReader) (state : Properties) (m : Merge) :
    summaryField (mergeConflicts reader state m) "record_count" =
        some (.int (existingRecords (mergeConflicts reader state m)).length) ∧
      previouslyDropped (mergeConflicts reader state m) =
        (boundedLog (recordIdentity reader) maxRecordsPerTuple
          (existingRecords state ++ m.records)).2 + previouslyDropped state := by
  have hsummary : (mergeConflicts reader state m).get? summaryKey = some (.object
      (conflictSummary reader m (boundedLog (recordIdentity reader) maxRecordsPerTuple
        (existingRecords state ++ m.records)).1 ((boundedLog (recordIdentity reader)
          maxRecordsPerTuple (existingRecords state ++ m.records)).2 + previouslyDropped state))) :=
    Dict.get?_set_self _ _ _
  constructor
  · rw [existingRecords_merge]
    unfold summaryField
    rw [hsummary]
    simp [conflictSummary, List.lookup_cons]
  · unfold previouslyDropped summaryField
    rw [hsummary]
    simp [conflictSummary, List.lookup_cons, int?]
    rfl

/-- The records of a tuple, in order. -/
abbrev recordsOf (reader : RecordReader) (t : Tuple) (records : List Record) : List Record :=
  ofKey (recordIdentity reader) t records

/-- What is in the log before the first merge, and every record that a merge appends. -/
def history (state : Properties) (merges : List Merge) : List Record :=
  existingRecords state ++ merges.flatMap Merge.records

/-- The records of the log that name a tuple. -/
def identified (reader : RecordReader) (records : List Record) : List Record :=
  records.filter fun r => (recordIdentity reader r).isSome

/-- The state after a run of merges keeps, of the whole history, the first record of
each tuple and its most recent ones, and counts the others. -/
structure Accounts (reader : RecordReader) (start : Properties) (merges : List Merge)
    (state : Properties) : Prop where
  kept : ∀ t, recordsOf reader t (existingRecords state) =
    capped maxRecordsPerTuple (recordsOf reader t (history start merges))
  chronological : (existingRecords state).Sublist (history start merges)
  covered : ∀ t, recordsOf reader t (history start merges) ≠ [] →
    recordsOf reader t (existingRecords state) ≠ []
  recordCount : summaryField state "record_count" = some (.int (existingRecords state).length)
  total : ((existingRecords state).length : Int) + previouslyDropped state =
    (identified reader (existingRecords start)).length + previouslyDropped start +
      (merges.flatMap Merge.records).length
  fresh : start.get? conflictsKey = none → start.get? summaryKey = none →
    ((existingRecords state).length : Int) + previouslyDropped state =
      (merges.flatMap Merge.records).length

theorem identified_records (reader : RecordReader) (merges : List Merge) :
    identified reader (merges.flatMap Merge.records) = merges.flatMap Merge.records := by
  unfold identified
  rw [List.filter_eq_self]
  intro r hr
  have ⟨m, _, hm⟩ := List.mem_flatMap.mp hr
  have ⟨c, _, hc⟩ := List.mem_map.mp hm
  rw [← hc, recordIdentity_conflict]
  rfl

theorem retains_merge {reader : RecordReader} {start state : Properties} {merges : List Merge}
    {dropped : Nat} (h : Retains (recordIdentity reader) maxRecordsPerTuple (history start merges)
      (existingRecords state) dropped)
    (hdropped : previouslyDropped state = dropped + previouslyDropped start) (m : Merge) :
    ∃ d, Retains (recordIdentity reader) maxRecordsPerTuple (history start (merges ++ [m]))
        (existingRecords (mergeConflicts reader state m)) d ∧
      previouslyDropped (mergeConflicts reader state m) = d + previouslyDropped start := by
  have hhistory : history start (merges ++ [m]) = history start merges ++ m.records := by
    simp [history, List.flatMap_append]
  have hstep := h.append (by decide) m.records
  rw [← existingRecords_merge, ← hhistory] at hstep
  refine ⟨_, hstep, ?_⟩
  rw [(summaryField_merge reader state m).2, hdropped]
  push_cast
  omega

theorem retains_run (reader : RecordReader) (start : Properties) (first : Merge)
    (rest : List Merge) :
    ∃ d, Retains (recordIdentity reader) maxRecordsPerTuple (history start (first :: rest))
        (existingRecords ((first :: rest).foldl (mergeConflicts reader) start)) d ∧
      previouslyDropped ((first :: rest).foldl (mergeConflicts reader) start) =
        d + previouslyDropped start := by
  induction rest using List.reverseRecOn with
  | nil =>
    have hfirst : history start [first] = existingRecords start ++ first.records := by
      simp [history]
    have hstart : Retains (recordIdentity reader) maxRecordsPerTuple _ _ _ :=
      retains_boundedLog (by decide) (existingRecords start ++ first.records)
    have hdropped := (summaryField_merge reader start first).2
    rw [← existingRecords_merge, ← hfirst] at hstart
    rw [← hfirst] at hdropped
    exact ⟨_, hstart, hdropped⟩
  | append_singleton rest m ih =>
    have ⟨d, hretains, hdropped⟩ := ih
    rw [← List.cons_append, List.foldl_append]
    exact retains_merge hretains hdropped m

theorem summary_of_run (reader : RecordReader) (start : Properties) (first : Merge)
    (rest : List Merge) :
    summaryField ((first :: rest).foldl (mergeConflicts reader) start) "record_count" =
      some (.int (existingRecords ((first :: rest).foldl (mergeConflicts reader) start)).length) := by
  cases rest using List.reverseRecOn with
  | nil => exact (summaryField_merge reader start first).1
  | append_singleton rest m =>
    rw [← List.cons_append, List.foldl_append]
    exact (summaryField_merge reader _ m).1

theorem total_of_run (reader : RecordReader) (start : Properties) (first : Merge)
    (rest : List Merge) :
    ((existingRecords ((first :: rest).foldl (mergeConflicts reader) start)).length : Int) +
        previouslyDropped ((first :: rest).foldl (mergeConflicts reader) start) =
      (identified reader (existingRecords start)).length + previouslyDropped start +
        ((first :: rest).flatMap Merge.records).length := by
  have ⟨d, hretains, hdropped⟩ := retains_run reader start first rest
  have hcount := hretains.counted
  have hsplit : (history start (first :: rest)).filter
      (fun r => (recordIdentity reader r).isSome) =
      identified reader (existingRecords start) ++ (first :: rest).flatMap Merge.records := by
    have happended := identified_records reader (first :: rest)
    unfold identified at happended ⊢
    rw [history, List.filter_append, happended]
  rw [hsplit, List.length_append] at hcount
  rw [hdropped]
  omega

/-- Any number of merges, one at least, from any analysis state. -/
theorem conflict_log_accounts (reader : RecordReader) (start : Properties) (first : Merge)
    (rest : List Merge) :
    Accounts reader start (first :: rest)
      ((first :: rest).foldl (mergeConflicts reader) start) := by
  have ⟨d, hretains, hdropped⟩ := retains_run reader start first rest
  have htotal := total_of_run reader start first rest
  constructor
  case kept => exact hretains.kept
  case chronological => exact hretains.ordered
  case covered =>
    intro t hne hnil
    have hkept : recordsOf reader t _ = capped maxRecordsPerTuple _ := hretains.kept t
    have hhead := capped_head? maxRecordsPerTuple
      (recordsOf reader t (history start (first :: rest)))
    rw [hnil] at hkept
    rw [← hkept] at hhead
    exact hne (List.head?_eq_none_iff.mp hhead.symm)
  case recordCount => exact summary_of_run reader start first rest
  case total => exact htotal
  case fresh =>
    intro hlog hsummary
    have hrecords : existingRecords start = [] := by
      unfold existingRecords
      rw [hlog]
    have hnone : previouslyDropped start = 0 := by
      unfold previouslyDropped summaryField
      rw [hsummary]
      rfl
    rw [hrecords, hnone] at htotal
    simpa [identified] using htotal

/-- The verdict on values of the declared types, without coercions. -/
def strictReader : RecordReader where
  accepts edgeKey properties metadata :=
    (edgeKey.all fun v => v = .null || (int? v).isSome) &&
      (properties.toList ++ metadata.toList).all fun v => (record? v).isSome
  accepts_null := rfl
  accepts_int := fun _ => rfl

def servicePair : Tuple := ("Service", "a", "Service", "b", "depends_on")

/-- The edge between two services is written once more. -/
def writtenAgain (n : Nat) : Conflict where
  tuple := servicePair
  receiptId := some s!"rcpt_{n}"
  edgeKey := some 0
  claimId := some "CLM-1"
  claimId_ok := by decide
  detectedAt := s!"2026-01-01T00:00:{n}"
  source := "http_api"
  sourceRef := "add_relationship"
  actorContext := none

def writesFrom (start length : Nat) : Merge where
  members := [servicePair]
  memberCount := 1
  conflicts := (List.range' start length).map writtenAgain

theorem repeated_conflicts_account :
    let state := [writesFrom 10 15, writesFrom 25 10].foldl (mergeConflicts strictReader) ∅
    Accounts strictReader ∅ [writesFrom 10 15, writesFrom 25 10] state ∧
      existingRecords state = (writtenAgain 10 :: (List.range' 16 19).map writtenAgain).map
        directWriteConflictRecord ∧ previouslyDropped state = 5 :=
  ⟨conflict_log_accounts strictReader ∅ (writesFrom 10 15) [writesFrom 25 10],
    by decide +kernel, by decide +kernel⟩

end Cruxible.ConflictLogs
