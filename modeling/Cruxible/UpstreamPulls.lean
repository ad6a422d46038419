import Cruxible.LegacyIdentities
import Cruxible.OverlayMerges
import Mathlib.Data.List.Dedup
import Mathlib.Data.List.Sort

/-!
# Pulling an upstream release

A pull splits the local part out of the loaded graph, by the ownership of the new
release, and merges it over the release's graph. The result replaces the rows of
the stored graph; then the operator entities of auth-managed types are upserted.
A stored graph satisfies the constraints of its tables.
-/
namespace Cruxible.UpstreamPulls
open JsonValue PythonDict AssertionState AppendOnly GraphImages ClaimIndexes OverlayMerges
open Fallible (bind_eq_ok pure_eq_ok)
open Cruxible.Graph (EntityInstance RelationshipInstance blank)

structure StoredGraph where
  nodes : Dict String NodeData
  edges : List EdgeData
  /-- A row has a type and an id, which spell its node id. -/
  entities : ∀ n d, nodes.get? n = some d →
    ∃ e : EntityInstance, d = nodeOf e ∧ n = makeNodeId e.entityType e.entityId
  /-- The foreign keys of the endpoints. -/
  closed : ∀ e ∈ edges, (nodes.get? e.fromNode).isSome ∧ (nodes.get? e.toNode).isSome
  claimed : ∀ e ∈ edges, ∃ c, e.claimId = some c ∧ blank c = false
  unique : (presentClaims edges).Nodup
  keyed : ∀ e ∈ edges, acceptedKey e.key = true
  keys : (edges.map EdgeData.key).Nodup

namespace StoredGraph

def empty : StoredGraph where
  nodes := ∅
  edges := []
  entities := fun _ _ hd => by cases hd
  closed := fun _ he => by cases he
  claimed := fun _ he => by cases he
  unique := List.nodup_nil
  keyed := fun _ he => by cases he
  keys := List.nodup_nil

variable {nodes : Dict String NodeData}

theorem entities_set (h : ∀ n d, nodes.get? n = some d →
      ∃ e : EntityInstance, d = nodeOf e ∧ n = makeNodeId e.entityType e.entityId)
    (e : EntityInstance) (n : String) (d : NodeData)
    (hd : (nodes.set (makeNodeId e.entityType e.entityId) (nodeOf e)).get? n = some d) :
    ∃ e : EntityInstance, d = nodeOf e ∧ n = makeNodeId e.entityType e.entityId := by
  rw [Dict.get?_set] at hd
  split_ifs at hd with hn
  · exact ⟨e, (Option.some.inj hd).symm, hn.symm⟩
  · exact h n d hd

theorem isSome_set {n : String} (h : (nodes.get? n).isSome) (m : String) (d : NodeData) :
    ((nodes.set m d).get? n).isSome := by
  rw [Dict.get?_set]
  split_ifs
  · rfl
  · exact h

/-- The row of an entity is written. -/
def put (s : StoredGraph) (e : EntityInstance) : StoredGraph :=
  { s with
    nodes := s.nodes.set (makeNodeId e.entityType e.entityId) (nodeOf e)
    entities := entities_set s.entities e
    closed := fun x hx => ⟨isSome_set (s.closed x hx).1 _ _, isSome_set (s.closed x hx).2 _ _⟩ }

/-- One row of `upsert_entities`. A node id belongs to one entity. -/
def upsertEntity (s : StoredGraph) (e : EntityInstance) : Except String StoredGraph :=
  match s.nodes.get? (makeNodeId e.entityType e.entityId) with
  | none => .ok (s.put e)
  | some d =>
      if d.entityType = some e.entityType ∧ d.entityId = some e.entityId then .ok (s.put e)
      else .error "UNIQUE constraint failed: graph_entities.node_id"

/-- The row that the endpoint columns refer to. -/
def hasEntity (s : StoredGraph) (entityType entityId : String) : Bool :=
  match s.nodes.get? (makeNodeId entityType entityId) with
  | none => false
  | some d => d.entityType = some entityType && d.entityId = some entityId

/-- What `_relationship_row` and the constraints of the table find fault with. -/
def rowError (s : StoredGraph) (e : EdgeData) (r : RelationshipInstance) : Option String :=
  if e.claimId.all blank then some "Durable relationship writes require a claim_id"
  else if acceptedKey e.key = false then
    some ("Graph edge key " ++ keyText e.key ++ " is not stable")
  else if e.claimId.any (· ∈ presentClaims s.edges) then
    some "UNIQUE constraint failed: graph_relationships.claim_id"
  else if e.key ∈ s.edges.map EdgeData.key then
    some "UNIQUE constraint failed: graph_relationships.edge_key"
  else if s.hasEntity r.fromType r.fromId = false ∨ s.hasEntity r.toType r.toId = false then
    some "FOREIGN KEY constraint failed"
  else none

variable {s : StoredGraph}

theorem isSome_of_hasEntity {t i : String} (h : s.hasEntity t i = true) :
    (s.nodes.get? (makeNodeId t i)).isSome := by
  unfold hasEntity at h
  cases hd : s.nodes.get? (makeNodeId t i) with
  | none =>
    rw [hd] at h
    cases h
  | some d => rfl

theorem claimed_of_rowError {e : EdgeData} {r : RelationshipInstance} (h : s.rowError e r = none) :
    (∃ c, e.claimId = some c ∧ blank c = false ∧ c ∉ presentClaims s.edges) ∧
      acceptedKey e.key = true ∧ e.key ∉ s.edges.map EdgeData.key ∧
      s.hasEntity r.fromType r.fromId = true ∧ s.hasEntity r.toType r.toId = true := by
  unfold rowError at h
  split_ifs at h with hclaim hkey hnew hkeys hends
  rw [not_or, Bool.not_eq_false, Bool.not_eq_false] at hends
  refine ⟨?_, by simpa using hkey, hkeys, hends⟩
  cases hc : e.claimId with
  | none => simp [hc] at hclaim
  | some c =>
    rw [hc] at hclaim hnew
    exact ⟨c, rfl, by simpa using hclaim, by simpa using hnew⟩

/-- The row of a relationship is added. -/
def add (s : StoredGraph) (e : EdgeData) {r : RelationshipInstance} (hr : edgeRow e = .ok r)
    (h : s.rowError e r = none) : StoredGraph :=
  { s with
    edges := s.edges ++ [e]
    closed := by
      have ⟨_, _, _, hsource, htarget⟩ := claimed_of_rowError h
      have ⟨_, _, hfrom, hto, _⟩ := edgeRow_ok hr
      intro x hx
      rcases List.mem_append.mp hx with hx | hx
      · exact s.closed x hx
      · rw [List.mem_singleton.mp hx, ← hfrom, ← hto]
        exact ⟨isSome_of_hasEntity hsource, isSome_of_hasEntity htarget⟩
    claimed := by
      have ⟨⟨c, hc, hblank, _⟩, _⟩ := claimed_of_rowError h
      intro x hx
      rcases List.mem_append.mp hx with hx | hx
      · exact s.claimed x hx
      · rw [List.mem_singleton.mp hx]
        exact ⟨c, hc, hblank⟩
    unique := by
      have ⟨⟨c, hc, _, hnew⟩, _⟩ := claimed_of_rowError h
      have hsplit : presentClaims (s.edges ++ [e]) = presentClaims s.edges ++ [c] := by
        rw [presentClaims, List.filterMap_append, List.filterMap_cons_some hc]
        rfl
      rw [hsplit]
      apply List.nodup_append.mpr
      refine ⟨s.unique, List.nodup_singleton c, ?_⟩
      intro x hx y hy hxy
      rw [List.mem_singleton.mp hy] at hxy
      exact hnew (hxy ▸ hx)
    keyed := by
      intro x hx
      rcases List.mem_append.mp hx with hx | hx
      · exact s.keyed x hx
      · rw [List.mem_singleton.mp hx]
        exact (claimed_of_rowError h).2.1
    keys := by
      rw [List.map_append]
      apply List.nodup_append.mpr
      refine ⟨s.keys, List.nodup_singleton e.key, ?_⟩
      intro x hx y hy hxy
      rw [List.mem_singleton.mp hy] at hxy
      exact (claimed_of_rowError h).2.2.1 (hxy ▸ hx) }

/-- One row of `_insert_relationships`, from a row of `iter_edges`. -/
def insertRelationship (s : StoredGraph) (e : EdgeData) : Except String StoredGraph :=
  match hr : edgeRow e with
  | .error m => .error m
  | .ok r =>
      match h : s.rowError e r with
      | some m => .error m
      | none => .ok (s.add e hr h)

end StoredGraph

/-- `load_graph`. The order in which the rows come back plays no part. -/
def loadGraph (s : StoredGraph) : Except String EntityGraph := rebuild s.nodes s.edges

/-- `save_graph`: the rows are replaced by those of the graph. -/
def saveGraph (g : EntityGraph) : Except String StoredGraph := do
  let entities ← iterAllEntities g
  let saved ← entities.foldlM StoredGraph.upsertEntity .empty
  g.edges.foldlM StoredGraph.insertRelationship saved

inductive StateCompatibility where
  | dataOnly | additiveSchema | breaking
  deriving DecidableEq

structure PublishedStateManifest where
  stateId : String
  releaseId : String
  snapshotId : String
  compatibility : StateCompatibility := .dataOnly
  ownedEntityTypes : List String := []
  ownedRelationshipTypes : List String := []
  membersDigest : Option String := none
  deriving DecidableEq

/-- `list_entity_types`. -/
def listEntityTypes (g : EntityGraph) : List String :=
  (g.entitiesByType.entries.filter fun b => b.2 ≠ []).map Prod.fst

/-- `sorted(set(texts))`. -/
def sortedTexts (texts : List String) : List String :=
  texts.dedup.insertionSort (· ≤ ·)

/-- `list_relationship_types`. -/
def listRelationshipTypes (g : EntityGraph) : List String :=
  sortedTexts ((g.edges.map EdgeData.relationshipType).filter (· ≠ ""))

/-- `_extract_local_overlay_graph`: the ownership is that of the new release. -/
def extractLocalOverlayGraph (current : EntityGraph) (ownership : PublishedStateManifest) :
    Except String EntityGraph :=
  extractOwnedSubgraph current
    ((listEntityTypes current).filter (· ∉ ownership.ownedEntityTypes))
    ((listRelationshipTypes current).filter (· ∉ ownership.ownedRelationshipTypes))

/-- An endpoint of an upstream type that the next upstream graph does not have. -/
def danglingEndpoint (next : EntityGraph) (manifest : PublishedStateManifest)
    (relationshipType entityType entityId : String) : List String :=
  if entityType ∈ manifest.ownedEntityTypes ∧ next.hasEntity entityType entityId = false then
    ["Local relationship " ++ relationshipType ++ " references missing upstream entity " ++
      entityType ++ ":" ++ entityId]
  else []

def danglingEnds (next : EntityGraph) (manifest : PublishedStateManifest) (e : EdgeData) :
    Except String (List String) := do
  let r ← edgeRow e
  pure (danglingEndpoint next manifest r.relationshipType r.fromType r.fromId ++
    danglingEndpoint next manifest r.relationshipType r.toType r.toId)

/-- `_find_dangling_reference_conflicts`. -/
def findDanglingReferenceConflicts (localGraph next : EntityGraph)
    (manifest : PublishedStateManifest) : Except String (List String) := do
  let conflicts ← localGraph.edges.mapM (danglingEnds next manifest)
  pure (sortedTexts conflicts.flatten)

/-- A release: the image of a graph that was stored where it was published. Its
edges need not have claim ids. -/
structure PulledRelease where
  manifest : PublishedStateManifest
  image : Image
  entities : ∀ n d, image.nodes.get? n = some d →
    ∃ e : EntityInstance, d = nodeOf e ∧ n = makeNodeId e.entityType e.entityId

/-- `CLONE_ORIGIN_UPSTREAM_SNAPSHOT`. -/
def cloneOriginUpstreamSnapshot : String := "upstream-snapshot"

structure Refusal where
  message : String
  errors : List String := []
  deriving DecidableEq

def raised (x : Except String α) : Except Refusal α := x.mapError fun m => { message := m }

/-- The next upstream graph and the identity map with the ids that it was given. -/
def nextUpstreamGraph (image : Image) (stored : IdentityMap) (mint : Nat → String) :
    Except Refusal (EntityGraph × IdentityMap) := do
  let loaded ← raised (fromDict image)
  let backfilled :=
    (loaded.relabelCloneReceipts cloneOriginUpstreamSnapshot).backfillMissingClaimIds stored mint
  match backfilled.2.2 with
  | some m => .error { message := m }
  | none => .ok (backfilled.1, recordMintedIdentities stored backfilled.2.1.assigned)

/-- The local part over the next upstream graph. -/
def mergeLocalPart (localGraph next : EntityGraph) (manifest : PublishedStateManifest) :
    Except Refusal EntityGraph := do
  let conflicts ← raised (findDanglingReferenceConflicts localGraph next manifest)
  if conflicts ≠ [] then
    .error { message := "Local overlay references entities removed upstream", errors := conflicts }
  else raised (mergeGraphs next localGraph)

/-- The graph that a pull saves and the identity map that it records, from the graph
and the map that it has loaded. -/
def mergePulled (manifest : PublishedStateManifest) (image : Image) (current : EntityGraph)
    (stored : IdentityMap) (mint : Nat → String) : Except Refusal (EntityGraph × IdentityMap) := do
  let localGraph ← raised (extractLocalOverlayGraph current manifest)
  let next ← nextUpstreamGraph image stored mint
  let merged ← mergeLocalPart localGraph next.1 manifest
  pure (merged, next.2)

/-- What the transaction stores: the merged graph, then the operator entities. -/
def commitGraph (merged : EntityGraph) (operators : List EntityInstance) :
    Except String StoredGraph := do
  let saved ← saveGraph merged
  operators.foldlM StoredGraph.upsertEntity saved

end Cruxible.UpstreamPulls
