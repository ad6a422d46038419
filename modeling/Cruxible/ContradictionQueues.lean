import Cruxible.Attestations
import Cruxible.Groupings

/-!
# The contradiction queue

A contradiction without a disposition is open. The queue groups the open contradictions of
live claims under the claim tuple, and the summary of a claim counts every observation of its
tuple. Both find the claim tuple first: the first stored edge of a tuple stands for all of
them, whatever claim id an observation carries.
-/
namespace Cruxible.Attestations
open JsonValue PythonDict AssertionState Cruxible.Graph GovernedWrites Groupings

inductive AttestationVerdict where
  | upheld
  | corrected
  | invalidated
  deriving DecidableEq, Repr

structure AttestationDisposition where
  dispositionId : String
  attestationId : String
  verdict : AttestationVerdict
  recordedAt : Timestamp

/-- The tables of observations and of the reviewers' answers. -/
structure ObservationTables where
  attestations : List AttestationRecord := []
  dispositions : List AttestationDisposition := []

abbrev ClaimKey := String × String × String × String × String

/-- `_resolve_claim` of a tuple. -/
def resolveKey (g : EntityGraph) (key : ClaimKey) : Option RelationshipInstance :=
  g.getRelationship key.1 key.2.1 key.2.2.1 key.2.2.2.1 key.2.2.2.2

/-- The digest of a claim whose properties a database can hold. -/
def contentDigest (hash : Value → String) (r : RelationshipInstance) : String :=
  "sha256:" ++ hash (Value.canonical (.object
    [("relationship_type", .str r.relationshipType), ("from_type", .str r.fromType),
     ("from_id", .str r.fromId), ("to_type", .str r.toType), ("to_id", .str r.toId),
     ("properties", .object r.properties.entries)]))

def answered (s : ObservationTables) (r : AttestationRecord) : Bool :=
  s.dispositions.any fun d => d.attestationId = r.attestationId

def newestFirst (a b : AttestationRecord) : Prop :=
  b.observedAt < a.observedAt ∨
    a.observedAt = b.observedAt ∧ b.attestationId ≤ a.attestationId

instance : DecidableRel newestFirst := fun _ _ => inferInstanceAs (Decidable (_ ∨ _))

/-- `list_open_contradictions`. -/
def listOpenContradictions (s : ObservationTables) : List AttestationRecord :=
  (s.attestations.filter fun r => r.stance = .contradict ∧ answered s r = false).insertionSort
    newestFirst

structure AttestationQueueEntry where
  claim : RelationshipInstance
  openContradictCount : Nat
  distinctContradictingActorCount : Nat
  latestObservedAt : Timestamp

def actorOf (r : AttestationRecord) : String × String :=
  (r.actorContext.orgId, r.actorContext.actorId)

def queueEntry (claim : RelationshipInstance) (records : List AttestationRecord) :
    AttestationQueueEntry where
  claim := claim
  openContradictCount := records.length
  distinctContradictingActorCount := (records.map actorOf).dedup.length
  latestObservedAt := (records.map AttestationRecord.observedAt).foldr max 0

/-- Latest first, then by the claim tuple. -/
def entryOrder (a b : AttestationQueueEntry) : Prop :=
  b.latestObservedAt < a.latestObservedAt ∨ a.latestObservedAt = b.latestObservedAt ∧
    [a.claim.relationshipType, a.claim.fromType, a.claim.fromId, a.claim.toType, a.claim.toId] ≤
      [b.claim.relationshipType, b.claim.fromType, b.claim.fromId, b.claim.toType, b.claim.toId]

instance : DecidableRel entryOrder := fun _ _ => inferInstanceAs (Decidable (_ ∨ _))

section Queue

variable (hash : Value → String) (g : EntityGraph) (now : Timestamp) (s : ObservationTables)

/-- The tests of the queue loop: the tuple resolves, to a live claim with that content. -/
def queued (r : AttestationRecord) : Bool :=
  (resolveKey g r.claimKey).any fun claim =>
    relationshipIsLive claim.metadata.assertion now &&
      decide (r.claimContentDigest = contentDigest hash claim)

/-- `service_attestation_queue`, before it cuts a page. -/
def serviceAttestationQueue : List AttestationQueueEntry :=
  let grouped := group
    (((listOpenContradictions s).filter (queued hash g now)).map fun r => (r.claimKey, r))
  (grouped.entries.filterMap fun e =>
    (resolveKey g e.1).map fun claim => queueEntry claim e.2).insertionSort entryOrder

/-- The open contradictions of a tuple that hold of the content of a claim. -/
def openContradictions (key : ClaimKey) (claim : RelationshipInstance) : List AttestationRecord :=
  s.attestations.filter fun r => r.claimKey = key ∧ r.stance = .contradict ∧
    answered s r = false ∧ r.claimContentDigest = contentDigest hash claim

end Queue

structure StanceCounts where
  supportCount : Nat := 0
  contradictCount : Nat := 0
  unsureCount : Nat := 0
  invalidatedCount : Nat := 0

def StanceCounts.add (c : StanceCounts) (invalidated : Bool) (stance : AttestationStance) :
    StanceCounts :=
  if invalidated then { c with invalidatedCount := c.invalidatedCount + 1 }
  else match stance with
    | .support => { c with supportCount := c.supportCount + 1 }
    | .contradict => { c with contradictCount := c.contradictCount + 1 }
    | .unsure => { c with unsureCount := c.unsureCount + 1 }

def StanceCounts.total (c : StanceCounts) : Nat :=
  c.supportCount + c.contradictCount + c.unsureCount + c.invalidatedCount

/-- The accumulator of `summaries_for_claims`. -/
structure CorroborationSummary where
  counts : StanceCounts := {}
  lastSupportedAt : Option Timestamp := none
  lastContradictedAt : Option Timestamp := none
  actors : List (String × String) := []
  openContradiction : Bool := false
  staleContent : StanceCounts := {}

def answerNewer (a b : AttestationDisposition) : Prop :=
  b.recordedAt < a.recordedAt ∨ a.recordedAt = b.recordedAt ∧ b.dispositionId ≤ a.dispositionId

instance : DecidableRel answerNewer := fun _ _ => inferInstanceAs (Decidable (_ ∨ _))

def latestVerdict (s : ObservationTables) (r : AttestationRecord) : Option AttestationVerdict :=
  (((s.dispositions.filter fun d => d.attestationId = r.attestationId).insertionSort
    answerNewer).head?).map AttestationDisposition.verdict

/-- One row of the loop. -/
def CorroborationSummary.addRow (s : ObservationTables) (digest : String)
    (acc : CorroborationSummary) (r : AttestationRecord) : CorroborationSummary :=
  let invalidated := decide (latestVerdict s r = some .invalidated)
  if r.claimContentDigest ≠ digest then
    { acc with staleContent := acc.staleContent.add invalidated r.stance }
  else if invalidated then { acc with counts := acc.counts.add true r.stance }
  else
    let acc := { acc with counts := acc.counts.add false r.stance,
                          actors := acc.actors.insert (actorOf r) }
    match r.stance with
    | .support =>
        { acc with lastSupportedAt := some ((acc.lastSupportedAt.getD 0).max r.observedAt) }
    | .contradict =>
        { acc with lastContradictedAt := some ((acc.lastContradictedAt.getD 0).max r.observedAt),
                   openContradiction := acc.openContradiction || (latestVerdict s r).isNone }
    | .unsure => acc

def oldestFirst (a b : AttestationRecord) : Prop :=
  a.recordedAt < b.recordedAt ∨
    a.recordedAt = b.recordedAt ∧ a.attestationId ≤ b.attestationId

instance : DecidableRel oldestFirst := fun _ _ => inferInstanceAs (Decidable (_ ∨ _))

/-- The observations of a tuple, as the summary reads them. -/
def rowsOf (s : ObservationTables) (key : ClaimKey) : List AttestationRecord :=
  (s.attestations.filter fun r => r.claimKey = key).insertionSort oldestFirst

/-- `summaries_for_claims` at one of its tuples. A tuple without observations has none. -/
def summaryForClaim (s : ObservationTables) (key : ClaimKey) (digest : String) :
    Option CorroborationSummary :=
  match rowsOf s key with
  | [] => none
  | rows => some (rows.foldl (CorroborationSummary.addRow s digest) {})

theorem queueEntry_perm (claim : RelationshipInstance) {xs ys : List AttestationRecord}
    (h : xs.Perm ys) : queueEntry claim xs = queueEntry claim ys := by
  unfold queueEntry
  rw [h.length_eq, (h.map actorOf).dedup.length_eq,
    (h.map AttestationRecord.observedAt).foldr_eq]

section Entries

variable {hash : Value → String} {g : EntityGraph} {now : Timestamp} {s : ObservationTables}

theorem members_queued {key : ClaimKey} {claim : RelationshipInstance}
    (hclaim : resolveKey g key = some claim)
    (hlive : relationshipIsLive claim.metadata.assertion now = true) :
    (members (((listOpenContradictions s).filter (queued hash g now)).map
      fun r => (r.claimKey, r)) key).Perm (openContradictions hash s key claim) := by
  have hperm := List.perm_insertionSort newestFirst
    (s.attestations.filter fun r => r.stance = .contradict ∧ answered s r = false)
  unfold members openContradictions listOpenContradictions
  rw [List.filter_map, List.map_map, List.filter_filter]
  change (List.map id _).Perm _
  rw [List.map_id]
  refine (hperm.filter _).trans ?_
  rw [List.filter_filter]
  refine List.Perm.of_eq (List.filter_congr ?_)
  intro r _
  by_cases hkey : r.claimKey = key
  · subst hkey
    simp [queued, hclaim, hlive, Bool.and_comm, Bool.and_assoc]
  · simp [hkey]

theorem mem_serviceAttestationQueue (x : AttestationQueueEntry) :
    x ∈ serviceAttestationQueue hash g now s ↔
      ∃ key claim, resolveKey g key = some claim ∧
        relationshipIsLive claim.metadata.assertion now = true ∧
        openContradictions hash s key claim ≠ [] ∧
        x = queueEntry claim (openContradictions hash s key claim) := by
  unfold serviceAttestationQueue
  dsimp only
  generalize hpairs : (((listOpenContradictions s).filter (queued hash g now)).map
    fun r => (r.claimKey, r)) = pairs
  rw [List.mem_insertionSort, List.mem_filterMap]
  constructor
  · rintro ⟨⟨key, records⟩, hentry, hx⟩
    obtain ⟨claim, hclaim, rfl⟩ := Option.map_eq_some_iff.mp hx
    have hget := Dict.get?_of_mem hentry
    have hrecords := getD_group pairs key
    rw [hget, Option.getD_some] at hrecords
    have hkey : key ∈ (group pairs).keys := List.mem_map.mpr ⟨_, hentry, rfl⟩
    rw [keys_group] at hkey
    have hnonempty : members pairs key ≠ [] := fun hnil => members_eq_nil.mp hnil hkey
    have hlive : relationshipIsLive claim.metadata.assertion now = true := by
      rw [mem_firstKeys, ← hpairs, List.map_map] at hkey
      obtain ⟨r, hr, hrkey⟩ := List.mem_map.mp hkey
      have hqueued := (List.mem_filter.mp hr).2
      have hresolved : resolveKey g r.claimKey = some claim := by
        rw [show r.claimKey = key from hrkey]
        exact hclaim
      simp only [queued, hresolved, Option.any_some, Bool.and_eq_true] at hqueued
      exact hqueued.1
    have hperm := @members_queued hash g now s key claim hclaim hlive
    rw [hpairs] at hperm
    refine ⟨key, claim, hclaim, hlive, ?_, ?_⟩
    · intro hnil
      rw [hnil] at hperm
      exact hnonempty hperm.eq_nil
    · rw [hrecords]
      exact queueEntry_perm claim hperm
  · rintro ⟨key, claim, hclaim, hlive, hnonempty, rfl⟩
    have hperm := @members_queued hash g now s key claim hclaim hlive
    rw [hpairs] at hperm
    have hkey : key ∈ firstKeys pairs := by
      by_contra hmissing
      rw [members_eq_nil.mpr hmissing] at hperm
      exact hnonempty hperm.symm.eq_nil
    rw [← keys_group] at hkey
    obtain ⟨⟨key', records⟩, hentry, rfl⟩ := List.mem_map.mp hkey
    have hrecords := getD_group pairs key'
    rw [Dict.get?_of_mem hentry, Option.getD_some] at hrecords
    refine ⟨(key', records), hentry, ?_⟩
    rw [hclaim, Option.map_some, hrecords, queueEntry_perm claim hperm]

theorem claimKey_of_resolveKey {key : ClaimKey} {claim : RelationshipInstance}
    (h : resolveKey g key = some claim) :
    (claim.fromType, claim.fromId, claim.toType, claim.toId, claim.relationshipType) = key := by
  obtain ⟨e, -, rfl⟩ := Option.map_eq_some_iff.mp h
  rfl

theorem nodup_serviceAttestationQueue :
    ((serviceAttestationQueue hash g now s).map AttestationQueueEntry.claim).Nodup := by
  unfold serviceAttestationQueue
  dsimp only
  generalize group (((listOpenContradictions s).filter (queued hash g now)).map
    fun r => (r.claimKey, r)) = grouped
  refine ((List.perm_insertionSort entryOrder _).map _).nodup_iff.mpr ?_
  have hkeys : (grouped.entries.filterMap fun e =>
      (resolveKey g e.1).map fun claim => queueEntry claim e.2).map AttestationQueueEntry.claim =
        grouped.keys.filterMap (resolveKey g) := by
    rw [List.map_filterMap, Dict.keys, List.filterMap_map]
    refine List.filterMap_congr ?_
    intro e _
    rw [Option.map_map]
    exact Option.map_id'
  rw [hkeys]
  refine List.Nodup.filterMap ?_ grouped.nodup
  intro key key' claim hclaim hclaim'
  exact (claimKey_of_resolveKey hclaim).symm.trans (claimKey_of_resolveKey hclaim')

end Entries

section Summaries

variable {s : ObservationTables} {digest : String}

theorem latestVerdict_eq_none {r : AttestationRecord} :
    latestVerdict s r = none ↔ answered s r = false := by
  unfold latestVerdict answered
  rw [Option.map_eq_none_iff, List.head?_eq_none_iff, List.any_eq_false]
  have hperm := List.perm_insertionSort answerNewer
    (s.dispositions.filter fun d => d.attestationId = r.attestationId)
  constructor
  · intro hnil d hd
    rw [hnil] at hperm
    have hempty := List.filter_eq_nil_iff.mp hperm.symm.eq_nil
    exact hempty d hd
  · intro hnone
    rw [List.filter_eq_nil_iff.mpr hnone]
    rfl

theorem StanceCounts.total_add (c : StanceCounts) (invalidated : Bool)
    (stance : AttestationStance) : (c.add invalidated stance).total = c.total + 1 := by
  unfold StanceCounts.add StanceCounts.total
  cases invalidated with
  | true =>
    simp only [if_true]
    omega
  | false =>
    cases stance <;> simp only [Bool.false_eq_true, if_false] <;> omega

theorem addRow_total (acc : CorroborationSummary) (r : AttestationRecord) :
    (acc.addRow s digest r).counts.total + (acc.addRow s digest r).staleContent.total =
      acc.counts.total + acc.staleContent.total + 1 := by
  unfold CorroborationSummary.addRow
  dsimp only
  split_ifs
  · simp only [StanceCounts.total_add]
    omega
  · simp only [StanceCounts.total_add]
    omega
  · split <;> simp only [StanceCounts.total_add] <;> omega

theorem addRow_open (acc : CorroborationSummary) (r : AttestationRecord) :
    (acc.addRow s digest r).openContradiction = true ↔ acc.openContradiction = true ∨
      r.claimContentDigest = digest ∧ r.stance = .contradict ∧ answered s r = false := by
  rw [← latestVerdict_eq_none]
  unfold CorroborationSummary.addRow
  dsimp only
  by_cases hdigest : r.claimContentDigest = digest
  · rw [if_neg (not_not.mpr hdigest)]
    by_cases hinvalid : latestVerdict s r = some .invalidated
    · simp [hinvalid]
    · cases hstance : r.stance <;> simp [hinvalid, hdigest]
  · rw [if_pos hdigest]
    simp [hdigest]

theorem foldl_addRow (rows : List AttestationRecord) (acc : CorroborationSummary) :
    (rows.foldl (CorroborationSummary.addRow s digest) acc).counts.total +
        (rows.foldl (CorroborationSummary.addRow s digest) acc).staleContent.total =
      acc.counts.total + acc.staleContent.total + rows.length ∧
    ((rows.foldl (CorroborationSummary.addRow s digest) acc).openContradiction = true ↔
      acc.openContradiction = true ∨ ∃ r ∈ rows, r.claimContentDigest = digest ∧
        r.stance = .contradict ∧ answered s r = false) := by
  induction rows generalizing acc with
  | nil => simp
  | cons r rows ih =>
    obtain ⟨htotal, hopen⟩ := ih (acc.addRow s digest r)
    rw [List.foldl_cons, htotal, hopen, addRow_total, addRow_open, List.length_cons,
      List.exists_mem_cons_iff, or_assoc]
    exact ⟨by omega, Iff.rfl⟩

end Summaries

/-- The total of a summary, current and stale. -/
def CorroborationSummary.total (c : CorroborationSummary) : Nat :=
  c.counts.total + c.staleContent.total

theorem mem_rowsOf {s : ObservationTables} {key : ClaimKey} {r : AttestationRecord} :
    r ∈ rowsOf s key ↔ r ∈ s.attestations ∧ r.claimKey = key := by
  simp only [rowsOf, List.mem_insertionSort, List.mem_filter, decide_eq_true_eq]

theorem summaryForClaim_counts (s : ObservationTables) (key : ClaimKey) (digest : String) :
    ((∃ c, summaryForClaim s key digest = some c ∧ c.openContradiction = true) ↔
      ∃ r ∈ rowsOf s key, r.claimContentDigest = digest ∧ r.stance = .contradict ∧
        answered s r = false) ∧
    (summaryForClaim s key digest).elim 0 CorroborationSummary.total = (rowsOf s key).length := by
  obtain ⟨htotal, hopen⟩ := @foldl_addRow s digest (rowsOf s key) {}
  unfold summaryForClaim
  cases hrows : rowsOf s key with
  | nil => simp
  | cons r rows =>
    rw [hrows] at htotal hopen
    constructor
    · simp only [Option.some.injEq, exists_eq_left', hopen, Bool.false_eq_true, false_or]
    · exact htotal.trans (Nat.zero_add _)

/-- The queue lists the live claims with open contradictions of their content, each once. A
claim that its tuple resolves to is in the queue if and only if its summary reports an open
contradiction, and the summary of a tuple counts every observation of the tuple. -/
theorem contradiction_queue_exact (hash : Value → String) (g : EntityGraph) (now : Timestamp)
    (s : ObservationTables) :
    (∀ x, x ∈ serviceAttestationQueue hash g now s ↔
      ∃ key claim, resolveKey g key = some claim ∧
        relationshipIsLive claim.metadata.assertion now = true ∧
        openContradictions hash s key claim ≠ [] ∧
        x = queueEntry claim (openContradictions hash s key claim)) ∧
    ((serviceAttestationQueue hash g now s).map AttestationQueueEntry.claim).Nodup ∧
    (∀ key claim, resolveKey g key = some claim →
      relationshipIsLive claim.metadata.assertion now = true →
      ((∃ c, summaryForClaim s key (contentDigest hash claim) = some c ∧
        c.openContradiction = true) ↔
        ∃ x ∈ serviceAttestationQueue hash g now s, x.claim = claim)) ∧
    ∀ key digest, (summaryForClaim s key digest).elim 0 CorroborationSummary.total =
      s.attestations.countP fun r => r.claimKey = key := by
  refine ⟨mem_serviceAttestationQueue, nodup_serviceAttestationQueue, ?_, ?_⟩
  · intro key claim hclaim hlive
    have hlisted : (∃ x ∈ serviceAttestationQueue hash g now s, x.claim = claim) ↔
        openContradictions hash s key claim ≠ [] := by
      simp only [mem_serviceAttestationQueue]
      constructor
      · rintro ⟨x, ⟨key', claim', hclaim', _, hnonempty, rfl⟩, rfl⟩
        have hkey := (claimKey_of_resolveKey hclaim').symm.trans (claimKey_of_resolveKey hclaim)
        exact hkey ▸ hnonempty
      · intro hnonempty
        exact ⟨_, ⟨key, claim, hclaim, hlive, hnonempty, rfl⟩, rfl⟩
    have hsome : openContradictions hash s key claim ≠ [] ↔
        ∃ r ∈ s.attestations, r.claimKey = key ∧ r.stance = .contradict ∧
          answered s r = false ∧ r.claimContentDigest = contentDigest hash claim := by
      rw [Ne, openContradictions, List.filter_eq_nil_iff]
      push Not
      simp only [decide_eq_true_eq]
    rw [(summaryForClaim_counts s key _).1, hlisted, hsome]
    simp only [mem_rowsOf]
    constructor
    · rintro ⟨r, ⟨hr, hkey⟩, hdigest, hstance, hanswered⟩
      exact ⟨r, hr, hkey, hstance, hanswered, hdigest⟩
    · rintro ⟨r, hr, hkey, hstance, hanswered, hdigest⟩
      exact ⟨r, ⟨hr, hkey⟩, hdigest, hstance, hanswered⟩
  · intro key digest
    rw [(summaryForClaim_counts s key digest).2, List.countP_eq_length_filter]
    exact List.length_insertionSort _ _

def parallelEdge (key : Nat) (claimId : String) : EdgeData where
  fromNode := makeNodeId "Service" "a"
  toNode := makeNodeId "Service" "b"
  key := key
  relationshipType := "depends_on"
  claimId := claimId
  properties := ∅
  metadata := {}

/-- Two edges of one tuple with the same content. -/
def parallelGraph : EntityGraph where
  nodes := Dict.ofList (["a", "b"].map fun id =>
    (makeNodeId "Service" id, { entityType := "Service", entityId := id, properties := ∅ }))
  edges := [parallelEdge 0 "CLM-1", parallelEdge 1 "CLM-2"]
  edgeCounter := 2
  claimIds := ["CLM-1", "CLM-2"]

/-- A contradiction of the second edge. -/
def siblingContradiction : AttestationRecord where
  attestationId := "ATT-1"
  relationshipType := "depends_on"
  fromType := "Service"
  fromId := "a"
  toType := "Service"
  toId := "b"
  claimId := some "CLM-2"
  claimContentDigest := "sha256:0"
  claimStateAtRecord := .live
  stance := .contradict
  observedAt := 3
  recordedAt := 3
  actorContext := { actorType := .humanUser, actorId := "ann", orgId := "org",
                    operationId := "op", timestamp := 3 }

/-- The queue lists the first edge of the tuple for it. -/
theorem sibling_contradiction_misattributed :
    parallelGraph.edges.map (fun e => (e.claimId, relationshipIsLive e.metadata.assertion 4)) =
        [("CLM-1", true), ("CLM-2", true)] ∧
      siblingContradiction.claimId = some "CLM-2" ∧
      (serviceAttestationQueue (fun _ => "0") parallelGraph 4
        { attestations := [siblingContradiction] }).map
          (fun x => (x.claim.claimId, x.openContradictCount)) = [(some "CLM-1", 1)] := by
  decide +kernel

end Cruxible.Attestations
