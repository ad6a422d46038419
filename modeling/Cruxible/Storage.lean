import Cruxible.DirectWrites

/-!
# Incremental persistence of graph rows

A write transaction persists the rows that a call touched: each row replaces the
stored one as a whole. The committed tables are kept in the shape of the graph
that a load returns. Two table constraints can refuse a row (an entity row under
a node id that another key occupies, an edge key that another claim occupies),
as can the serializer on a non-finite number, and the claim id of a stored edge
is never moved to other endpoints. Endpoint columns are compared as node ids.
-/
namespace Cruxible.Storage
open JsonValue PythonDict AssertionState AppendOnly Fallible Cruxible.Graph PropertyValidation
open GraphOperations DirectWrites

def storable (p : Properties) : Bool := p.entries.all (fun b => b.2.finite)

/-- The JSON values inside the typed metadata of an edge. -/
def metadataStorable (m : RelationshipMetadata) : Bool :=
  (match m.evidence with
    | some e => e.evidenceRefs.all Value.finite
    | none => true) &&
  (match m.assertion.groupApprovalDrift with
    | some d => storable d.approvedValues
    | none => true)

def saveFailed (reason : String) : CoreError := .mutation ("Failed to save graph: " ++ reason)

def outOfRange : CoreError := saveFailed "Out of range float values are not JSON compliant"

/-- One row of `upsert_entities`. -/
def upsertEntity (d : EntityGraph) (e : EntityInstance) : Except CoreError EntityGraph := do
  refuseIf (¬(storable e.properties = true ∧ storable e.metadata.extra = true)) outOfRange
  refuseIf (∃ r ∈ d.nodes.get? e.nodeId, (r.entityType, r.entityId) ≠ (e.entityType, e.entityId))
    (saveFailed "UNIQUE constraint failed: graph_entities.node_id")
  return { d with nodes := d.nodes.set e.nodeId e }

def upsertEntities (d : EntityGraph) (rows : List EntityInstance) : Except CoreError EntityGraph :=
  rows.foldlM upsertEntity d

/-- `_relationship_row`: a durable row has a claim id and an edge key. -/
def relationshipRow (r : RelationshipInstance) : Except CoreError EdgeData :=
  match r.claimId, r.edgeKey with
  | some c, some k =>
      if blank c then .error (saveFailed "Durable relationship writes require a claim_id")
      else if ¬(storable r.properties = true ∧ metadataStorable r.metadata = true) then
        .error outOfRange
      else .ok { fromNode := makeNodeId r.fromType r.fromId, toNode := makeNodeId r.toType r.toId,
                 key := k, relationshipType := r.relationshipType, claimId := c,
                 properties := r.properties, metadata := r.metadata }
  | none, _ => .error (saveFailed "Durable relationship writes require a claim_id")
  | some _, none =>
      .error (saveFailed "Incremental relationship writes require a stable edge_key")

/-- The identity that a stored claim never gives up. -/
def sameIdentity (e row : EdgeData) : Bool :=
  e.fromNode = row.fromNode && e.toNode = row.toNode && e.relationshipType = row.relationshipType

/-- The columns that an update on conflict touches. -/
def replaceRow (row e : EdgeData) : EdgeData :=
  { e with key := row.key, properties := row.properties, metadata := row.metadata }

/-- One row of `upsert_relationships`. -/
def upsertRelationship (d : EntityGraph) (r : RelationshipInstance) :
    Except CoreError EntityGraph := do
  let row ← relationshipRow r
  refuseIf (∃ e ∈ d.edges, e.claimId = row.claimId ∧ sameIdentity e row = false)
    (saveFailed ("Refusing to retarget claim '" ++ row.claimId ++ "'"))
  refuseIf (∃ e ∈ d.edges, e.claimId ≠ row.claimId ∧ e.key = row.key)
    (saveFailed "UNIQUE constraint failed: graph_relationships.edge_key")
  let counter := max d.edgeCounter (row.key + 1)
  if ∃ e ∈ d.edges, e.claimId = row.claimId then
    return { d with
      edges := modifyFirst (fun e => e.claimId = row.claimId) (replaceRow row) d.edges,
      edgeCounter := counter }
  else return { d with edges := d.edges ++ [row], edgeCounter := counter,
                       claimIds := d.claimIds ++ [row.claimId] }

def upsertRelationships (d : EntityGraph) (rows : List RelationshipInstance) :
    Except CoreError EntityGraph :=
  rows.foldlM upsertRelationship d

section Specification
variable {d d' : EntityGraph}

theorem upsertEntity_ok {e : EntityInstance} (h : upsertEntity d e = .ok d') :
    d' = { d with nodes := d.nodes.set e.nodeId e } := by
  unfold upsertEntity at h
  obtain ⟨⟨⟩, -, h⟩ := bind_eq_ok.mp h
  obtain ⟨⟨⟩, -, h⟩ := bind_eq_ok.mp h
  rw [pure_eq_ok] at h
  exact h.symm

variable {rows : List EntityInstance} {r : RelationshipInstance}

theorem upsertEntities_edges (h : upsertEntities d rows = .ok d') :
    d'.edges = d.edges ∧ d'.claimIds = d.claimIds := by
  apply foldlM_invariant (fun k : EntityGraph => k.edges = d.edges ∧ k.claimIds = d.claimIds)
    ⟨rfl, rfl⟩ _ h
  intro e _ a b ha hstep
  rw [upsertEntity_ok hstep]
  exact ha

theorem upsertEntities_wellFormed (h : upsertEntities d rows = .ok d') (hd : WellFormed d) :
    WellFormed d' := by
  apply foldlM_invariant WellFormed hd _ h
  intro e _ a b ha hstep
  rw [upsertEntity_ok hstep]
  exact ha.setNode rfl

theorem upsertEntities_get? {g : EntityGraph} (h : upsertEntities d rows = .ok d')
    (hrows : ∀ r ∈ rows, g.nodes.get? r.nodeId = some r) (n : NodeId) :
    d'.nodes.get? n =
      if n ∈ rows.map EntityInstance.nodeId then g.nodes.get? n else d.nodes.get? n := by
  induction rows generalizing d with
  | nil =>
    obtain rfl : d = d' := by simpa [upsertEntities, pure, Except.pure] using h
    simp
  | cons r rows ih =>
    unfold upsertEntities at h
    obtain ⟨k, hk, hrest⟩ := foldlM_cons_eq_ok.mp h
    have htail := ih hrest (fun x hx => hrows x (List.mem_cons_of_mem r hx))
    rw [htail, upsertEntity_ok hk, Dict.get?_set]
    simp only [List.map_cons, List.mem_cons]
    by_cases hm : n ∈ rows.map EntityInstance.nodeId
    · simp [hm]
    · by_cases hr : r.nodeId = n
      · subst hr
        simp [hm, hrows r List.mem_cons_self]
      · simp [hm, hr, Ne.symm hr]

variable {row e : EdgeData}

theorem relationshipRow_ok (h : relationshipRow r = .ok row) :
    r.claimId = some row.claimId ∧ r.edgeKey = some row.key ∧ row.properties = r.properties ∧
      row.metadata = r.metadata := by
  unfold relationshipRow at h
  split at h
  · rename_i c k hc hk
    split_ifs at h
    obtain rfl := Except.ok.inj h
    exact ⟨hc, hk, rfl, rfl⟩
  · cases h
  · cases h

theorem upsertRelationship_ok (h : upsertRelationship d r = .ok d') :
    ∃ row, relationshipRow r = .ok row ∧
      (∀ e ∈ d.edges, e.claimId ≠ row.claimId → e.key ≠ row.key) ∧
      d'.nodes = d.nodes ∧ d'.edgeCounter = max d.edgeCounter (row.key + 1) ∧
      (((∃ e ∈ d.edges, e.claimId = row.claimId) ∧ d'.claimIds = d.claimIds ∧
          d'.edges = modifyFirst (fun e => e.claimId = row.claimId) (replaceRow row) d.edges) ∨
        ((∀ e ∈ d.edges, e.claimId ≠ row.claimId) ∧ d'.edges = d.edges ++ [row] ∧
          d'.claimIds = d.claimIds ++ [row.claimId])) := by
  unfold upsertRelationship at h
  obtain ⟨row, hrow, h⟩ := bind_eq_ok.mp h
  obtain ⟨⟨⟩, -, h⟩ := bind_eq_ok.mp h
  obtain ⟨⟨⟩, hkey, h⟩ := bind_eq_ok.mp h
  rw [refuseIf_eq_ok] at hkey
  have hdistinct : ∀ e ∈ d.edges, e.claimId ≠ row.claimId → e.key ≠ row.key :=
    fun e he hc hk => hkey ⟨e, he, hc, hk⟩
  split_ifs at h with hex
  · rw [pure_eq_ok] at h
    subst h
    exact ⟨row, hrow, hdistinct, rfl, rfl, .inl ⟨hex, rfl, rfl⟩⟩
  · rw [pure_eq_ok] at h
    subst h
    exact ⟨row, hrow, hdistinct, rfl, rfl, .inr ⟨fun e he hc => hex ⟨e, he, hc⟩, rfl, rfl⟩⟩

theorem upsertRelationship_find? (h : upsertRelationship d r = .ok d') {c : String}
    (he : d.edges.find? (fun x => x.claimId = c) = some e) :
    ∃ e', d'.edges.find? (fun x => x.claimId = c) = some e' ∧
      e'.relationshipType = e.relationshipType ∧
      if r.claimId = some c then e'.properties = r.properties ∧ e'.metadata = r.metadata
      else e' = e := by
  obtain ⟨row, hrow, -, -, -, ⟨-, -, hedges⟩ | ⟨habsent, hedges, -⟩⟩ := upsertRelationship_ok h
  · obtain ⟨hclaim, -, hprops, hmeta⟩ := relationshipRow_ok hrow
    have hkeep : ∀ x, (replaceRow row x).claimId = x.claimId := fun _ => rfl
    rw [hedges, find?_modifyFirst_key hkeep, he, hclaim]
    by_cases hc : row.claimId = c
    · simp [hc, hprops, hmeta, replaceRow]
    · simp [hc]
  · obtain ⟨hclaim, -, -, -⟩ := relationshipRow_ok hrow
    have hcid : e.claimId = c := by simpa using List.find?_some he
    have hne : row.claimId ≠ c := by
      rintro rfl
      exact habsent e (List.mem_of_find?_eq_some he) hcid
    refine ⟨e, ?_, rfl, by simp [hclaim, hne]⟩
    rw [hedges, List.find?_append, he, Option.some_or]

theorem upsertRelationships_find? {rows : List RelationshipInstance}
    (h : upsertRelationships d rows = .ok d') {c : String}
    (he : d.edges.find? (fun x => x.claimId = c) = some e) :
    ∃ e', d'.edges.find? (fun x => x.claimId = c) = some e' ∧
      e'.relationshipType = e.relationshipType ∧
      ((∃ r ∈ rows, r.claimId = some c ∧ e'.properties = r.properties ∧
          e'.metadata = r.metadata) ∨
        (∀ r ∈ rows, r.claimId ≠ some c) ∧ e' = e) := by
  induction rows generalizing d e with
  | nil =>
    obtain rfl : d = d' := by simpa [upsertRelationships, pure, Except.pure] using h
    exact ⟨e, he, rfl, .inr ⟨by simp, rfl⟩⟩
  | cons r rows ih =>
    unfold upsertRelationships at h
    obtain ⟨k, hk, hrest⟩ := foldlM_cons_eq_ok.mp h
    obtain ⟨m, hm, hmtype, hmrow⟩ := upsertRelationship_find? hk he
    obtain ⟨e', he', htype, hrow⟩ := ih hrest hm
    refine ⟨e', he', htype.trans hmtype, ?_⟩
    rcases hrow with ⟨q, hq, hqrow⟩ | ⟨hnone, rfl⟩
    · exact .inl ⟨q, List.mem_cons_of_mem r hq, hqrow⟩
    · split_ifs at hmrow with hc
      · exact .inl ⟨r, List.mem_cons_self, hc, hmrow⟩
      · refine .inr ⟨?_, hmrow⟩
        intro q hq
        rcases List.mem_cons.mp hq with rfl | hq
        · exact hc
        · exact hnone q hq

theorem upsertRelationships_nodes {rows : List RelationshipInstance}
    (h : upsertRelationships d rows = .ok d') : d'.nodes = d.nodes := by
  apply foldlM_invariant (fun k : EntityGraph => k.nodes = d.nodes) rfl _ h
  intro r _ a b ha hstep
  obtain ⟨row, -, -, hnodes, -⟩ := upsertRelationship_ok hstep
  exact hnodes.trans ha

theorem nodup_keys_modifyFirst {edges : List EdgeData}
    (hclaims : (edges.map EdgeData.claimId).Nodup) (hkeys : (edges.map EdgeData.key).Nodup)
    (hfree : ∀ e ∈ edges, e.claimId ≠ row.claimId → e.key ≠ row.key) :
    ((modifyFirst (fun e => e.claimId = row.claimId) (replaceRow row) edges).map
      EdgeData.key).Nodup := by
  induction edges with
  | nil => simp [modifyFirst]
  | cons x edges ih =>
    rw [List.map_cons, List.nodup_cons] at hclaims hkeys
    by_cases hx : x.claimId = row.claimId
    · simp only [modifyFirst, hx, decide_true, if_true, List.map_cons, List.nodup_cons]
      refine ⟨?_, hkeys.2⟩
      intro hmem
      obtain ⟨y, hy, hyk⟩ := List.mem_map.mp hmem
      have hyc : y.claimId ≠ row.claimId := by
        intro hyc
        exact hclaims.1 (List.mem_map.mpr ⟨y, hy, hyc.trans hx.symm⟩)
      exact hfree y (List.mem_cons_of_mem x hy) hyc hyk
    · have hrest := ih hclaims.2 hkeys.2 (fun e he => hfree e (List.mem_cons_of_mem x he))
      simp only [modifyFirst, hx, decide_false, Bool.false_eq_true, if_false, List.map_cons,
        List.nodup_cons]
      refine ⟨?_, hrest⟩
      intro hmem
      obtain ⟨y, hy, hyk⟩ := List.mem_map.mp hmem
      rcases mem_modifyFirst hy with hy | ⟨z, -, rfl⟩
      · exact hkeys.1 (List.mem_map.mpr ⟨y, hy, hyk⟩)
      · exact hfree x List.mem_cons_self hx hyk.symm

theorem upsertRelationship_wellFormed (h : upsertRelationship d r = .ok d') (hd : WellFormed d) :
    WellFormed d' := by
  obtain ⟨row, -, hfree, hnodes, hcounter, ⟨⟨e, he, hec⟩, hindex, hedges⟩ |
    ⟨habsent, hedges, hindex⟩⟩ := upsertRelationship_ok h
  · have hkeep : ∀ x, (replaceRow row x).claimId = x.claimId := fun _ => rfl
    constructor
    · rw [hnodes]
      exact hd.keyed
    · intro x hx
      rw [hedges] at hx
      rw [hindex]
      rcases mem_modifyFirst hx with hx | ⟨y, hy, rfl⟩
      · exact hd.indexed x hx
      · exact hd.indexed y (List.mem_of_find?_eq_some hy)
    · rw [hedges, map_modifyFirst EdgeData.claimId hkeep]
      exact hd.claimsNodup
    · intro x hx
      rw [hedges] at hx
      rw [hcounter]
      rcases mem_modifyFirst hx with hx | ⟨y, -, rfl⟩
      · exact lt_of_lt_of_le (hd.keysBelow x hx) (le_max_left _ _)
      · exact lt_of_lt_of_le (Nat.lt_succ_self _) (le_max_right _ _)
    · rw [hedges]
      exact nodup_keys_modifyFirst hd.claimsNodup hd.keysNodup hfree
  · constructor
    · rw [hnodes]
      exact hd.keyed
    · intro x hx
      rw [hedges] at hx
      rw [hindex]
      rcases List.mem_append.mp hx with hx | hx
      · exact List.mem_append_left _ (hd.indexed x hx)
      · rw [List.mem_singleton.mp hx]
        exact List.mem_append_right _ (List.mem_singleton.mpr rfl)
    · rw [hedges, List.map_append, List.nodup_append]
      refine ⟨hd.claimsNodup, by simp, ?_⟩
      rintro x hx y hy rfl
      obtain ⟨x', hx', rfl⟩ := List.mem_map.mp hx
      exact habsent x' hx' (by simpa using hy)
    · intro x hx
      rw [hedges] at hx
      rw [hcounter]
      rcases List.mem_append.mp hx with hx | hx
      · exact lt_of_lt_of_le (hd.keysBelow x hx) (le_max_left _ _)
      · rw [List.mem_singleton.mp hx]
        exact lt_of_lt_of_le (Nat.lt_succ_self _) (le_max_right _ _)
    · rw [hedges, List.map_append, List.nodup_append]
      refine ⟨hd.keysNodup, by simp, ?_⟩
      rintro x hx y hy rfl
      obtain ⟨x', hx', rfl⟩ := List.mem_map.mp hx
      exact hfree x' hx' (habsent x' hx') (by simpa using hy)

theorem upsertRelationships_wellFormed {rows : List RelationshipInstance}
    (h : upsertRelationships d rows = .ok d') (hd : WellFormed d) : WellFormed d' := by
  apply foldlM_invariant WellFormed hd _ h
  intro r _ a b ha hstep
  exact upsertRelationship_wellFormed hstep ha

end Specification

end Cruxible.Storage
