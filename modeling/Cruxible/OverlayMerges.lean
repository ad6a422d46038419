import Cruxible.ClaimIndexes
import Cruxible.Fallible

/-!
# Extracting and merging overlays

A composed instance holds an upstream part and its own part in one graph. The own
part is extracted by entity and relationship types, and is merged over the next
upstream graph. What is extracted is a graph in its own right: the endpoints of its
edges come along, as nodes of a selected type or as stubs.
-/
namespace Cruxible.OverlayMerges
open JsonValue PythonDict AssertionState AppendOnly GraphImages ClaimIndexes
open Fallible (bind_eq_ok pure_eq_ok foldlM_cons_eq_ok)
open Cruxible.Graph (EntityInstance RelationshipInstance blank)

/-- A node as an entity; a node without a type or an id raises. -/
def entityOf (d : NodeData) : Except String EntityInstance :=
  match d.entityType with
  | none => .error "entity_type"
  | some t =>
      match d.entityId with
      | none => .error "entity_id"
      | some i => .ok { entityType := t, entityId := i, properties := d.properties,
                        metadata := d.metadata }

/-- `iter_all_entities`: the filed nodes that are present, type after type. -/
def iterAllEntities (g : EntityGraph) : Except String (List EntityInstance) :=
  ((g.entitiesByType.entries.flatMap Prod.snd).filterMap g.nodes.get?).mapM entityOf

/-- `get_entity`. -/
def getEntity (g : EntityGraph) (entityType entityId : String) :
    Except String (Option EntityInstance) :=
  match g.nodes.get? (makeNodeId entityType entityId) with
  | none => .ok none
  | some d => (entityOf d).map some

/-- An edge key as the typed relationship reads it: an integer, or a text that
spells one. -/
def acceptedKey : EdgeKey → Bool
  | .int _ => true
  | .other label => label.toInt?.isSome

def keyText : EdgeKey → String
  | .int k => toString k
  | .other label => "'" ++ label ++ "'"

/-- One row of `iter_edges` as the relationship that is made of it. Its key is left
out, since a graph hands out its own. -/
def edgeRow (e : EdgeData) : Except String RelationshipInstance :=
  if e.relationshipType = "" then
    .error ("Graph edge '" ++ e.fromNode ++ "' -> '" ++ e.toNode ++ "' (key=" ++ keyText e.key ++
      ") is missing relationship_type")
  else
    match splitNodeId e.fromNode with
    | none => .error ("Invalid node_id: '" ++ e.fromNode ++ "'")
    | some source =>
        match splitNodeId e.toNode with
        | none => .error ("Invalid node_id: '" ++ e.toNode ++ "'")
        | some target =>
            .ok { relationshipType := e.relationshipType, fromType := source.1, fromId := source.2,
                  toType := target.1, toId := target.2, claimId := e.claimId,
                  properties := e.properties, metadata := e.metadata }

/-- An endpoint of a selected type comes with its node. -/
def copyEndpoint (g : EntityGraph) (entityTypes : List String) (subgraph : EntityGraph)
    (entityType entityId : String) : Except String EntityGraph :=
  if entityType ∈ entityTypes ∧ subgraph.hasEntity entityType entityId = false then do
    match ← getEntity g entityType entityId with
    | none => pure subgraph
    | some e => pure (subgraph.addEntity e)
  else pure subgraph

def extractEntity (entityTypes : List String) (subgraph : EntityGraph) (e : EntityInstance) :
    EntityGraph :=
  if e.entityType ∈ entityTypes then subgraph.addEntity e else subgraph

def extractEdge (g : EntityGraph) (entityTypes relationshipTypes : List String)
    (subgraph : EntityGraph) (e : EdgeData) : Except String EntityGraph := do
  let r ← edgeRow e
  if r.relationshipType ∉ relationshipTypes then pure subgraph
  else
    let withSource ← copyEndpoint g entityTypes subgraph r.fromType r.fromId
    let withEnds ← copyEndpoint g entityTypes withSource r.toType r.toId
    if acceptedKey e.key then withEnds.addRelationship r else .error "edge_key"

/-- `extract_owned_subgraph`. -/
def extractOwnedSubgraph (g : EntityGraph) (entityTypes relationshipTypes : List String) :
    Except String EntityGraph := do
  let entities ← iterAllEntities g
  g.edges.foldlM (extractEdge g entityTypes relationshipTypes)
    (entities.foldl (extractEntity entityTypes) {})

/-- `has_relationship`. -/
def hasRelationship (g : EntityGraph) (fromType fromId toType toId relationshipType : String) :
    Bool :=
  g.edges.any (EntityGraph.edgeMatches (makeNodeId fromType fromId) (makeNodeId toType toId)
    relationshipType none)

/-- An entity is upserted. One without properties is taken for the stub of an
endpoint: where it is present, its metadata alone is laid over. -/
def mergeEntity (merged : EntityGraph) (e : EntityInstance) : EntityGraph :=
  if merged.hasEntity e.entityType e.entityId = true ∧ e.properties.entries = [] then
    if e.metadata = {} then merged
    else merged.updateEntityMetadata e.entityType e.entityId e.metadata
  else merged.addEntity e

/-- An edge is appended, or the merge is refused. -/
def mergeEdge (merged : EntityGraph) (e : EdgeData) : Except String EntityGraph := do
  let r ← edgeRow e
  if merged.hasEntity r.fromType r.fromId = false then
    .error ("Overlay relationship references missing source entity " ++ r.fromType ++ ":" ++
      r.fromId)
  else if merged.hasEntity r.toType r.toId = false then
    .error ("Overlay relationship references missing target entity " ++ r.toType ++ ":" ++ r.toId)
  else if hasRelationship merged r.fromType r.fromId r.toType r.toId r.relationshipType then
    .error ("Refusing to merge: overlay relationship " ++ r.fromType ++ ":" ++ r.fromId ++ " -[" ++
      r.relationshipType ++ "]-> " ++ r.toType ++ ":" ++ r.toId ++
      " collides with an existing base relationship on the same identity tuple")
  else if r.claimId.any (· ∈ merged.claimIds) then
    .error ("Refusing to merge: overlay claim_id '" ++ r.claimId.getD "" ++ "' is already " ++
      "present in the base graph; claim identity is unique per instance")
  else if acceptedKey e.key then merged.addRelationship r else .error "edge_key"

/-- `merge_graphs`. -/
def mergeGraphs (base overlay : EntityGraph) : Except String EntityGraph := do
  let merged ← rebuild base.nodes base.edges
  let entities ← iterAllEntities overlay
  overlay.edges.foldlM mergeEdge (entities.foldl mergeEntity merged)

/-- The node that `add_entity` writes. -/
def nodeOf (e : EntityInstance) : NodeData where
  entityType := some e.entityType
  entityId := some e.entityId
  properties := e.properties
  metadata := e.metadata

/-- Every node is an entity that is filed under its type. -/
def Covered (g : EntityGraph) : Prop :=
  ∀ n d, g.nodes.get? n = some d → ∃ e : EntityInstance,
    d = nodeOf e ∧ n = makeNodeId e.entityType e.entityId ∧ n ∈ filed g.entitiesByType e.entityType

/-- An edge that the graph has been given by `add_relationship`. -/
structure Claimed (g : EntityGraph) (e : EdgeData) : Prop where
  typed : e.relationshipType ≠ ""
  spelled : (splitNodeId e.fromNode).isSome ∧ (splitNodeId e.toNode).isSome
  claimed : ∃ c, e.claimId = some c ∧ blank c = false
  keyed : acceptedKey e.key = true
  closed : (g.nodes.get? e.fromNode).isSome ∧ (g.nodes.get? e.toNode).isSome

/-- What holds of a graph made by extraction, whatever it is extracted from. -/
structure Extracted (g : EntityGraph) : Prop extends EdgesIndexed g where
  covered : Covered g
  edges : ∀ e ∈ g.edges, Claimed g e

@[simp] theorem entityOf_nodeOf (e : EntityInstance) : entityOf (nodeOf e) = .ok e := rfl

theorem nodeOf_injective : Function.Injective nodeOf := by
  intro e e' h
  exact Except.ok.inj (congrArg entityOf h)

variable {g h : EntityGraph} {r : RelationshipInstance} {entityTypes : List String}
  {es : List EdgeData}

theorem covered_addEntity (hg : Covered g) (e : EntityInstance) : Covered (g.addEntity e) := by
  intro n d hd
  change (g.nodes.set (makeNodeId e.entityType e.entityId) (nodeOf e)).get? n = some d at hd
  change ∃ e' : EntityInstance, d = nodeOf e' ∧ n = makeNodeId e'.entityType e'.entityId ∧
    n ∈ filed (file g.entitiesByType e.entityType (makeNodeId e.entityType e.entityId)) e'.entityType
  rw [Dict.get?_set] at hd
  split_ifs at hd with hn
  · exact ⟨e, (Option.some.inj hd).symm, hn.symm, mem_filed_file.mpr (.inr ⟨rfl, hn.symm⟩)⟩
  · have ⟨e', hd', hn', hfiled⟩ := hg n d hd
    exact ⟨e', hd', hn', mem_filed_file.mpr (.inl hfiled)⟩

theorem isSome_addEntity (e : EntityInstance) {n : String} (hn : (g.nodes.get? n).isSome) :
    ((g.addEntity e).nodes.get? n).isSome := by
  change ((g.nodes.set (makeNodeId e.entityType e.entityId) (nodeOf e)).get? n).isSome
  rw [Dict.get?_set]
  split_ifs
  · rfl
  · exact hn

variable {e : EdgeData} {relationshipTypes : List String} {merged : EntityGraph}

theorem Claimed.grow (he : Claimed g e)
    (hgrow : ∀ n, (g.nodes.get? n).isSome → (h.nodes.get? n).isSome) : Claimed h e where
  typed := he.typed
  spelled := he.spelled
  claimed := he.claimed
  keyed := he.keyed
  closed := ⟨hgrow _ he.closed.1, hgrow _ he.closed.2⟩

theorem edgesIndexed_nodes (hg : EdgesIndexed g) (nodes : Dict String NodeData)
    (index : Dict String (List String)) :
    EdgesIndexed { g with nodes := nodes, entitiesByType := index } where
  claims := hg.claims
  unique := hg.unique
  keys := hg.keys
  addresses := hg.addresses

theorem extracted_empty : Extracted {} where
  toEdgesIndexed := indexed_empty.toEdgesIndexed
  covered := fun _ _ hd => by cases hd
  edges := fun _ he => by cases he

theorem extracted_addEntity (hg : Extracted g) (e : EntityInstance) :
    Extracted (g.addEntity e) where
  toEdgesIndexed := edgesIndexed_nodes hg.toEdgesIndexed _ _
  covered := covered_addEntity hg.covered e
  edges := fun x hx => (hg.edges x hx).grow fun _ hn => isSome_addEntity e hn

theorem extracted_ensureNode (hg : Extracted g) (t i : String) : Extracted (g.ensureNode t i) := by
  unfold EntityGraph.ensureNode
  split_ifs
  · exact hg
  · exact extracted_addEntity hg _

theorem isSome_ensureNode (g : EntityGraph) (t i : String) :
    ((g.ensureNode t i).nodes.get? (makeNodeId t i)).isSome ∧
      ∀ n, (g.nodes.get? n).isSome → ((g.ensureNode t i).nodes.get? n).isSome := by
  unfold EntityGraph.ensureNode
  split_ifs with hpresent
  · exact ⟨hpresent, fun _ hn => hn⟩
  · refine ⟨?_, fun n hn => isSome_addEntity _ hn⟩
    change ((g.nodes.set (makeNodeId t i) _).get? (makeNodeId t i)).isSome
    rw [Dict.get?_set_self]
    rfl

theorem splitNodeId_makeNodeId (t i : String) : (splitNodeId (makeNodeId t i)).isSome := by
  have hcolon : ':' ∈ (makeNodeId t i).toList := (Graph.makeNodeId t i).separated
  rw [splitNodeId, dif_pos hcolon]
  rfl

theorem makeNodeId_split {n : String} {s : String × String} (h : splitNodeId n = some s) :
    makeNodeId s.1 s.2 = n := by
  unfold splitNodeId at h
  split_ifs at h with hcolon
  rw [← Option.some.inj h, makeNodeId, Graph.makeNodeId_splitNodeId]

theorem extracted_addRelationship (hg : Extracted g) (hok : g.addRelationship r = .ok h)
    (htyped : r.relationshipType ≠ "") : Extracted h := by
  have hindexed := edgesIndexed_addRelationship hg.toEdgesIndexed hok
  have ⟨c, k, _, hblank, _, hk, hh⟩ := addRelationship_ok hok
  have hends := extracted_ensureNode (extracted_ensureNode hg r.fromType r.fromId) r.toType r.toId
  rw [← hk] at hends
  have hfrom : (k.nodes.get? (makeNodeId r.fromType r.fromId)).isSome := by
    rw [hk]
    exact (isSome_ensureNode _ r.toType r.toId).2 _ (isSome_ensureNode g r.fromType r.fromId).1
  have hto : (k.nodes.get? (makeNodeId r.toType r.toId)).isSome := by
    rw [hk]
    exact (isSome_ensureNode _ r.toType r.toId).1
  rw [hh] at hindexed ⊢
  refine ⟨hindexed, hends.covered, ?_⟩
  intro e he
  have hperm := addEdge_perm k.nodes.keys (newEdge_fresh hends.toEdgesIndexed r c)
  rcases List.mem_cons.mp (hperm.mem_iff.mp he) with he | he
  · rw [he]
    exact ⟨htyped, ⟨splitNodeId_makeNodeId _ _, splitNodeId_makeNodeId _ _⟩, ⟨c, rfl, hblank⟩, rfl,
      hfrom, hto⟩
  · exact (hends.edges e he).grow fun _ hn => hn

variable {subgraph overlay : EntityGraph} {x : EdgeData}

theorem extracted_copyEndpoint {t i : String} (hs : Extracted subgraph)
    (hok : copyEndpoint g entityTypes subgraph t i = .ok h) : Extracted h := by
  unfold copyEndpoint at hok
  split_ifs at hok with hcopied
  · rw [bind_eq_ok] at hok
    have ⟨found, _, hfound⟩ := hok
    cases found with
    | none => exact pure_eq_ok.mp hfound ▸ hs
    | some e => exact pure_eq_ok.mp hfound ▸ extracted_addEntity hs e
  · exact pure_eq_ok.mp hok ▸ hs

theorem edgeRow_ok (hok : edgeRow e = .ok r) :
    e.relationshipType ≠ "" ∧ r.relationshipType = e.relationshipType ∧
      makeNodeId r.fromType r.fromId = e.fromNode ∧ makeNodeId r.toType r.toId = e.toNode ∧
      r.claimId = e.claimId ∧ r.properties = e.properties ∧ r.metadata = e.metadata := by
  unfold edgeRow at hok
  split_ifs at hok with htyped
  split at hok
  · cases hok
  · rename_i source hsource
    split at hok
    · cases hok
    · rename_i target htarget
      rw [← Except.ok.inj hok]
      exact ⟨htyped, rfl, makeNodeId_split hsource, makeNodeId_split htarget, rfl, rfl, rfl⟩

theorem extracted_extractEdge (hs : Extracted subgraph)
    (hok : extractEdge g entityTypes relationshipTypes subgraph e = .ok h) : Extracted h := by
  unfold extractEdge at hok
  have ⟨r, hr, hok⟩ := bind_eq_ok.mp hok
  by_cases hselected : r.relationshipType ∉ relationshipTypes
  · rw [if_pos hselected] at hok
    exact pure_eq_ok.mp hok ▸ hs
  · rw [if_neg hselected, bind_eq_ok] at hok
    have ⟨withSource, hsource, hok⟩ := hok
    have ⟨withEnds, hends, hok⟩ := bind_eq_ok.mp hok
    split_ifs at hok with hkey
    have htyped : r.relationshipType ≠ "" := by
      rw [(edgeRow_ok hr).2.1]
      exact (edgeRow_ok hr).1
    exact extracted_addRelationship
      (extracted_copyEndpoint (extracted_copyEndpoint hs hsource) hends) hok htyped

/-- Whatever a graph is extracted from, its edges are indexed and closed. -/
theorem extracted_of_extract
    (hok : extractOwnedSubgraph g entityTypes relationshipTypes = .ok overlay) :
    Extracted overlay := by
  unfold extractOwnedSubgraph at hok
  have ⟨entities, _, hok⟩ := bind_eq_ok.mp hok
  have hentities : ∀ (es : List EntityInstance) (s : EntityGraph), Extracted s →
      Extracted (es.foldl (extractEntity entityTypes) s) := by
    intro es
    induction es with
    | nil => exact fun s hs => hs
    | cons e es ih =>
      intro s hs
      apply ih
      unfold extractEntity
      split_ifs
      · exact extracted_addEntity hs e
      · exact hs
  exact Fallible.foldlM_invariant Extracted (hentities entities {} extracted_empty)
    (fun _ _ _ _ ha hb => extracted_extractEdge ha hb) hok

/-- A node of the overlay over a node of the base. -/
def layNode (base : Option NodeData) (d : NodeData) : NodeData :=
  match base with
  | none => d
  | some b =>
      if d.properties.entries = [] then { b with metadata := b.metadata.merge d.metadata } else d

/-- A node of the merge. -/
def mergedNode (base overlay : EntityGraph) (n : String) : Option NodeData :=
  match overlay.nodes.get? n with
  | none => base.nodes.get? n
  | some d => some (layNode (base.nodes.get? n) d)

theorem merge_empty (m : EntityMetadata) : m.merge {} = m := by
  simp [EntityMetadata.merge, EmptyCollection.emptyCollection, Dict.empty]

theorem merge_refl (m : EntityMetadata) : m.merge m = m := by
  simp [EntityMetadata.merge]

theorem merge_again (m u : EntityMetadata) : (m.merge u).merge u = m.merge u := by
  unfold EntityMetadata.merge
  rw [EntityMetadata.mk.injEq]
  refine ⟨?_, ?_, ?_⟩
  · cases u.lifecycle <;> rfl
  · cases u.actorContext <;> rfl
  · split_ifs <;> rfl

theorem layNode_again (base : Option NodeData) (d : NodeData) :
    layNode (some (layNode base d)) d = layNode base d := by
  cases base with
  | none =>
    simp only [layNode]
    split_ifs
    · rw [merge_refl]
    · rfl
  | some b =>
    simp only [layNode]
    split_ifs
    · rw [merge_again]
    · rfl

theorem mergeEntity_nodes (merged : EntityGraph) (e : EntityInstance) (n : String) :
    (mergeEntity merged e).nodes.get? n =
      if makeNodeId e.entityType e.entityId = n
      then some (layNode (merged.nodes.get? n) (nodeOf e)) else merged.nodes.get? n := by
  unfold mergeEntity
  by_cases hstub : merged.hasEntity e.entityType e.entityId = true ∧ e.properties.entries = []
  · have ⟨b, hb⟩ := Option.isSome_iff_exists.mp hstub.1
    have hlaid : layNode (some b) (nodeOf e) = { b with metadata := b.metadata.merge e.metadata } :=
      if_pos hstub.2
    rw [if_pos hstub]
    by_cases hmetadata : e.metadata = {}
    · rw [if_pos hmetadata]
      split_ifs with hn
      · rw [← hn, hb, hlaid, hmetadata, merge_empty]
      · rfl
    · rw [if_neg hmetadata, EntityGraph.updateEntityMetadata, EntityGraph.modifyNode, hb]
      simp only
      rw [Dict.get?_set]
      split_ifs with hn
      · rw [← hn, hb, hlaid]
      · rfl
  · rw [if_neg hstub]
    change (merged.nodes.set (makeNodeId e.entityType e.entityId) (nodeOf e)).get? n = _
    rw [Dict.get?_set]
    split_ifs with hn
    · cases hb : merged.nodes.get? n with
      | none => rfl
      | some b =>
        have hproperties : ¬(nodeOf e).properties.entries = [] := by
          intro hempty
          apply hstub
          refine ⟨?_, hempty⟩
          rw [EntityGraph.hasEntity, hn, hb]
          rfl
        rw [layNode, if_neg hproperties]
    · rfl

theorem mergeEntity_edges (merged : EntityGraph) (e : EntityInstance) :
    (mergeEntity merged e).edges = merged.edges ∧
      (mergeEntity merged e).claimIds = merged.claimIds ∧
      (mergeEntity merged e).edgeCounter = merged.edgeCounter := by
  unfold mergeEntity EntityGraph.updateEntityMetadata EntityGraph.modifyNode
  split_ifs
  · exact ⟨rfl, rfl, rfl⟩
  · split
    · exact ⟨rfl, rfl, rfl⟩
    · exact ⟨rfl, rfl, rfl⟩
  · exact ⟨rfl, rfl, rfl⟩

theorem edgesIndexed_mergeEntity (hm : EdgesIndexed merged) (e : EntityInstance) :
    EdgesIndexed (mergeEntity merged e) := by
  have ⟨hedges, hids, hcounter⟩ := mergeEntity_edges merged e
  constructor
  · rw [hedges, hids]
    exact hm.claims
  · rw [hedges]
    exact hm.unique
  · rw [hedges, hcounter]
    exact hm.keys
  · rw [hedges]
    exact hm.addresses

theorem mergeEntities_nodes (overlay : EntityGraph) (entities : List EntityInstance)
    (hentities : ∀ e ∈ entities,
      overlay.nodes.get? (makeNodeId e.entityType e.entityId) = some (nodeOf e))
    (merged : EntityGraph) (n : String) :
    (entities.foldl mergeEntity merged).nodes.get? n =
      if ∃ e ∈ entities, makeNodeId e.entityType e.entityId = n
      then mergedNode merged overlay n else merged.nodes.get? n := by
  induction entities generalizing merged with
  | nil => simp
  | cons e es ih =>
    have he := hentities e List.mem_cons_self
    rw [List.foldl_cons, ih (fun x hx => hentities x (List.mem_cons_of_mem e hx))]
    have hstep := mergeEntity_nodes merged e n
    by_cases hn : makeNodeId e.entityType e.entityId = n
    · have hd : overlay.nodes.get? n = some (nodeOf e) := hn ▸ he
      have hlisted : ∃ x ∈ e :: es, makeNodeId x.entityType x.entityId = n :=
        ⟨e, List.mem_cons_self, hn⟩
      rw [if_pos hn] at hstep
      rw [if_pos hlisted, mergedNode, mergedNode, hd, hstep]
      simp only [layNode_again, ite_self]
    · have hlisted : (∃ x ∈ e :: es, makeNodeId x.entityType x.entityId = n) ↔
          ∃ x ∈ es, makeNodeId x.entityType x.entityId = n := by
        simp [hn]
      rw [if_neg hn] at hstep
      rw [mergedNode, mergedNode, hstep]
      simp only [hlisted]

theorem mapM_entityOf {ds : List NodeData} (hds : ∀ d ∈ ds, ∃ e, d = nodeOf e) :
    ∃ entities, ds.mapM entityOf = .ok entities ∧ entities.map nodeOf = ds := by
  induction ds with
  | nil => exact ⟨[], rfl, rfl⟩
  | cons d ds ih =>
    have ⟨es, hes, hmap⟩ := ih fun x hx => hds x (List.mem_cons_of_mem d hx)
    have ⟨e, he⟩ := hds d List.mem_cons_self
    refine ⟨e :: es, ?_, ?_⟩
    · rw [List.mapM_cons, he, entityOf_nodeOf, hes]
      rfl
    · rw [List.map_cons, hmap, he]

theorem iterAllEntities_ok (hg : Covered g) :
    ∃ entities, iterAllEntities g = .ok entities ∧
      (∀ e ∈ entities, g.nodes.get? (makeNodeId e.entityType e.entityId) = some (nodeOf e)) ∧
      ∀ n d, g.nodes.get? n = some d →
        ∃ e ∈ entities, makeNodeId e.entityType e.entityId = n := by
  have hnode : ∀ d ∈ (g.entitiesByType.entries.flatMap Prod.snd).filterMap g.nodes.get?,
      ∃ e, d = nodeOf e ∧ g.nodes.get? (makeNodeId e.entityType e.entityId) = some d := by
    intro d hd
    have ⟨n, _, hn⟩ := List.mem_filterMap.mp hd
    have ⟨e, he, hne, _⟩ := hg n d hn
    exact ⟨e, he, hne ▸ hn⟩
  have ⟨entities, hok, hmap⟩ := mapM_entityOf fun d hd =>
    have ⟨e, he, _⟩ := hnode d hd
    ⟨e, he⟩
  refine ⟨entities, hok, ?_, ?_⟩
  · intro e he
    have hmem : nodeOf e ∈ (g.entitiesByType.entries.flatMap Prod.snd).filterMap g.nodes.get? :=
      hmap ▸ List.mem_map_of_mem he
    have ⟨e', he', hd⟩ := hnode _ hmem
    rw [nodeOf_injective he']
    exact he' ▸ hd
  · intro n d hd
    have ⟨e, he, hn, hfiled⟩ := hg n d hd
    have hmem : d ∈ (g.entitiesByType.entries.flatMap Prod.snd).filterMap g.nodes.get? := by
      refine List.mem_filterMap.mpr ⟨n, ?_, hd⟩
      unfold filed at hfiled
      cases hindex : g.entitiesByType.get? e.entityType with
      | none =>
        rw [hindex] at hfiled
        cases hfiled
      | some ns =>
        rw [hindex] at hfiled
        exact List.mem_flatMap.mpr ⟨_, Dict.mem_of_get? hindex, hfiled⟩
    rw [← hmap] at hmem
    have ⟨e', he', hsame⟩ := List.mem_map.mp hmem
    refine ⟨e', he', ?_⟩
    rw [nodeOf_injective (hsame.trans he), hn]

/-- An edge without the key that its graph handed out. -/
def content (e : EdgeData) : EdgeData := { e with key := .int 0 }

/-- `(from, relationship, to)`. -/
def tuple (e : EdgeData) : String × String × String := (e.fromNode, e.relationshipType, e.toNode)

/-- An edge whose endpoints are present and whose tuple and claim id are new. -/
structure Fits (present : String → Prop) (es : List EdgeData) (e : EdgeData) : Prop where
  source : present e.fromNode
  target : present e.toNode
  newTuple : tuple e ∉ es.map tuple
  newClaim : ∀ c, e.claimId = some c → c ∉ presentClaims es

theorem Fits.mono {present : String → Prop} {es' : List EdgeData} (h : Fits present es' e)
    (hes : ∀ x ∈ es, x ∈ es') : Fits present es e where
  source := h.source
  target := h.target
  newTuple := fun hmem =>
    have ⟨x, hx, hsame⟩ := List.mem_map.mp hmem
    h.newTuple (List.mem_map.mpr ⟨x, hes x hx, hsame⟩)
  newClaim := fun c hc hmem =>
    have ⟨x, hx, hsame⟩ := mem_presentClaims.mp hmem
    h.newClaim c hc (mem_presentClaims.mpr ⟨x, hes x hx, hsame⟩)

theorem edgeRow_of_claimed (he : Claimed g e) : ∃ r, edgeRow e = .ok r := by
  have ⟨source, hsource⟩ := Option.isSome_iff_exists.mp he.spelled.1
  have ⟨target, htarget⟩ := Option.isSome_iff_exists.mp he.spelled.2
  rw [edgeRow, if_neg he.typed, hsource, htarget]
  exact ⟨_, rfl⟩

theorem hasRelationship_eq (hr : edgeRow e = .ok r) :
    hasRelationship g r.fromType r.fromId r.toType r.toId r.relationshipType = true ↔
      tuple e ∈ g.edges.map tuple := by
  have ⟨_, htype, hfrom, hto, _⟩ := edgeRow_ok hr
  unfold hasRelationship
  rw [List.any_eq_true, List.mem_map, hfrom, hto, htype]
  constructor
  · rintro ⟨x, hx, hmatch⟩
    simp only [EntityGraph.edgeMatches, Bool.and_true, Bool.and_eq_true, decide_eq_true_eq] at hmatch
    refine ⟨x, hx, ?_⟩
    rw [tuple, tuple, hmatch.1.1, hmatch.1.2, hmatch.2]
  · rintro ⟨x, hx, hsame⟩
    rw [tuple, tuple, Prod.mk.injEq, Prod.mk.injEq] at hsame
    refine ⟨x, hx, ?_⟩
    simp only [EntityGraph.edgeMatches, Bool.and_true, Bool.and_eq_true, decide_eq_true_eq]
    exact ⟨⟨hsame.1, hsame.2.2⟩, hsame.2.1⟩

theorem ensureNode_present {t i : String} (h : g.hasEntity t i = true) :
    g.ensureNode t i = g := if_pos h

/-- The nodes that a graph has. -/
def Present (g : EntityGraph) (n : String) : Prop := (g.nodes.get? n).isSome

section Step
variable {merged next : EntityGraph} {e : EdgeData}

/-- What a successful step tests and does. -/
theorem mergeEdge_ok (hm : EdgesIndexed merged) (hok : mergeEdge merged e = .ok next) :
    Fits (Present merged) merged.edges e ∧ next.nodes = merged.nodes ∧
      next.entitiesByType = merged.entitiesByType ∧ EdgesIndexed next ∧
      ∃ x, content x = content e ∧ next.edges.Perm (x :: merged.edges) := by
  unfold mergeEdge at hok
  have ⟨r, hr, hok⟩ := bind_eq_ok.mp hok
  have ⟨_, htype, hfrom, hto, hclaim, hproperties, hmetadata⟩ := edgeRow_ok hr
  split_ifs at hok with hsource htarget hduplicate hclaimed hkey
  rw [Bool.not_eq_false] at hsource htarget
  have hindexed := edgesIndexed_addRelationship hm hok
  have ⟨c, k, hc, _, hfresh, hk, hnext⟩ := addRelationship_ok hok
  rw [ensureNode_present hsource, ensureNode_present htarget] at hk
  refine ⟨⟨?_, ?_, ?_, ?_⟩, ?_, ?_, hindexed, newEdge r c k.edgeCounter, ?_, ?_⟩
  · rw [Present, ← hfrom]
    exact hsource
  · rw [Present, ← hto]
    exact htarget
  · rw [← hasRelationship_eq hr]
    exact hduplicate
  · intro d hd hmem
    rw [← hclaim, hc] at hd
    rw [← Option.some.inj hd, ← hm.claims] at hmem
    exact hfresh hmem
  · rw [hnext, hk]
  · rw [hnext, hk]
  · simp only [content, newEdge, hfrom, hto, htype, ← hclaim, hc, hproperties, hmetadata]
  · rw [hnext, hk]
    exact addEdge_perm _ (newEdge_fresh hm r c)

theorem mergeEdge_of_fits {overlay : EntityGraph} (hm : EdgesIndexed merged)
    (he : Claimed overlay e) (hfits : Fits (Present merged) merged.edges e) :
    ∃ next, mergeEdge merged e = .ok next := by
  have ⟨r, hr⟩ := edgeRow_of_claimed he
  have ⟨_, _, hfrom, hto, hclaim, _⟩ := edgeRow_ok hr
  have ⟨c, hc, hblank⟩ := he.claimed
  have hsource : ¬merged.hasEntity r.fromType r.fromId = false := by
    rw [Bool.not_eq_false, EntityGraph.hasEntity, hfrom]
    exact hfits.source
  have htarget : ¬merged.hasEntity r.toType r.toId = false := by
    rw [Bool.not_eq_false, EntityGraph.hasEntity, hto]
    exact hfits.target
  have htuple := mt (hasRelationship_eq hr).mp hfits.newTuple
  have hnew : c ∉ merged.claimIds := by
    rw [hm.claims]
    exact hfits.newClaim c hc
  have hunclaimed : ¬r.claimId.any (· ∈ merged.claimIds) = true := by
    rw [hclaim, hc]
    simpa using hnew
  have hadd : ∃ next, merged.addRelationship r = .ok next := by
    unfold EntityGraph.addRelationship
    rw [hclaim, hc]
    simp only [hblank, if_neg hnew, Bool.false_eq_true, if_false]
    exact ⟨_, rfl⟩
  unfold mergeEdge
  rw [hr]
  simp only [bind, Except.bind, if_neg hsource, if_neg htarget, if_neg htuple, if_neg hunclaimed,
    if_pos he.keyed]
  exact hadd

end Step

theorem tuple_of_content (h : content x = content e) : tuple x = tuple e := by
  have hsame : tuple (content x) = tuple (content e) := congrArg tuple h
  exact hsame

theorem claimId_of_content (h : content x = content e) : x.claimId = e.claimId := by
  have hsame : (content x).claimId = (content e).claimId := congrArg EdgeData.claimId h
  exact hsame

theorem mergeEdges_ok {next : EntityGraph} (hm : EdgesIndexed merged)
    (hok : es.foldlM mergeEdge merged = .ok next) :
    (∀ e ∈ es, Fits (Present merged) merged.edges e) ∧
      (next.nodes = merged.nodes ∧ next.entitiesByType = merged.entitiesByType) ∧
      EdgesIndexed next ∧
      ∃ added, added.map content = es.map content ∧ next.edges.Perm (merged.edges ++ added) := by
  induction es generalizing merged with
  | nil =>
    rw [List.foldlM_nil, pure_eq_ok] at hok
    rw [← hok]
    refine ⟨?_, ⟨rfl, rfl⟩, hm, [], rfl, ?_⟩
    · simp
    · rw [List.append_nil]
  | cons e es ih =>
    have ⟨middle, hstep, hrest⟩ := foldlM_cons_eq_ok.mp hok
    have ⟨hfits, hnodes, hindex, hmiddle, x, hx, hperm⟩ := mergeEdge_ok hm hstep
    have ⟨hall, ⟨hnodes', hindex'⟩, hnext, added, hadded, hperm'⟩ := ih hmiddle hrest
    refine ⟨?_, ⟨hnodes'.trans hnodes, hindex'.trans hindex⟩, hnext, x :: added, ?_, ?_⟩
    · intro e' he'
      rcases List.mem_cons.mp he' with he' | he'
      · rw [he']
        exact hfits
      · have hlater := hall e' he'
        unfold Present at hlater ⊢
        rw [hnodes] at hlater
        exact hlater.mono fun y hy => hperm.mem_iff.mpr (List.mem_cons_of_mem x hy)
    · rw [List.map_cons, List.map_cons, hx, hadded]
    · have hfront : (middle.edges ++ added).Perm ((x :: merged.edges) ++ added) :=
        hperm.append_right added
      exact (hperm'.trans hfront).trans List.perm_middle.symm

theorem mergeEdges_of_fits (hm : EdgesIndexed merged) (hes : ∀ e ∈ es, Claimed overlay e)
    (hclaims : (presentClaims es).Nodup) (htuples : (es.map tuple).Nodup)
    (hfits : ∀ e ∈ es, Fits (Present merged) merged.edges e) :
    ∃ next, es.foldlM mergeEdge merged = .ok next := by
  induction es generalizing merged with
  | nil => exact ⟨merged, rfl⟩
  | cons e es ih =>
    have he := hes e List.mem_cons_self
    obtain ⟨c, hc, _⟩ := he.claimed
    rw [presentClaims, List.filterMap_cons_some hc] at hclaims
    rw [List.map_cons] at htuples
    obtain ⟨htuple, htuples⟩ := List.nodup_cons.mp htuples
    obtain ⟨hclaim, hclaims⟩ := List.nodup_cons.mp hclaims
    obtain ⟨middle, hstep⟩ := mergeEdge_of_fits hm he (hfits e List.mem_cons_self)
    obtain ⟨_, hnodes, _, hmiddle, x, hx, hperm⟩ := mergeEdge_ok hm hstep
    have hrest : ∀ e' ∈ es, Fits (Present middle) middle.edges e' := by
      intro e' he'
      have hbefore := hfits e' (List.mem_cons_of_mem e he')
      unfold Present at hbefore ⊢
      rw [hnodes]
      refine ⟨hbefore.source, hbefore.target, ?_, ?_⟩
      · rw [(hperm.map tuple).mem_iff, List.map_cons, List.mem_cons, tuple_of_content hx]
        rintro (hsame | hmem)
        · exact htuple (hsame ▸ List.mem_map_of_mem he')
        · exact hbefore.newTuple hmem
      · intro d hd hmem
        have hmem' := ((hperm.filterMap EdgeData.claimId).mem_iff).mp hmem
        rw [List.filterMap_cons_some ((claimId_of_content hx).trans hc)] at hmem'
        rcases List.mem_cons.mp hmem' with hsame | hmem'
        · exact hclaim (mem_presentClaims.mpr ⟨e', he', hsame ▸ hd⟩)
        · exact hbefore.newClaim d hd hmem'
    obtain ⟨next, hnext⟩ := ih hmiddle (fun e' he' => hes e' (List.mem_cons_of_mem e he'))
      hclaims htuples hrest
    refine ⟨next, ?_⟩
    rw [List.foldlM_cons, hstep]
    exact hnext

/-- Every edge of the overlay fits the edges of the base and the nodes of both. -/
def Mergeable (base overlay : EntityGraph) : Prop :=
  ∀ e ∈ overlay.edges, Fits (fun n => Present base n ∨ Present overlay n) base.edges e

theorem collectClaimIds_total {ids : List String} (hunique : (presentClaims es).Nodup)
    (hfresh : ∀ c ∈ presentClaims es, c ∉ ids) : ∃ ids', collectClaimIds es ids = .ok ids' := by
  induction es generalizing ids with
  | nil => exact ⟨ids, rfl⟩
  | cons e es ih =>
    unfold collectClaimIds
    cases hc : e.claimId with
    | none =>
      rw [presentClaims, List.filterMap_cons_none hc] at hunique hfresh
      exact ih hunique hfresh
    | some c =>
      rw [presentClaims, List.filterMap_cons_some hc] at hunique hfresh
      obtain ⟨hnew, hrest⟩ := List.nodup_cons.mp hunique
      simp only
      rw [if_neg (hfresh c List.mem_cons_self)]
      apply ih hrest
      intro d hd hmem
      rcases List.mem_append.mp hmem with hmem | hmem
      · exact hfresh d (List.mem_cons_of_mem c hd) hmem
      · exact hnew (List.mem_singleton.mp hmem ▸ hd)

/-- A graph with unique claim ids is loaded from its own image. -/
theorem rebuild_total (hg : EdgesIndexed g) : ∃ h, rebuild g.nodes g.edges = .ok h := by
  have hfresh : ∀ c ∈ presentClaims g.edges, c ∉ ([] : List String) := by simp
  have ⟨ids, hids⟩ := collectClaimIds_total hg.unique hfresh
  rw [rebuild, hids]
  exact ⟨_, rfl⟩

/-- Nodes that are spelled by their types and ids. -/
def KeyedNodes (nodes : Dict String NodeData) : Prop :=
  ∀ n d, nodes.get? n = some d →
    ∃ e : EntityInstance, d = nodeOf e ∧ n = makeNodeId e.entityType e.entityId ∧
      e.entityType ≠ ""

theorem covered_rebuild {nodes : Dict String NodeData} (hok : rebuild nodes es = .ok g)
    (hkeyed : KeyedNodes nodes) : Covered g := by
  have ⟨hnodes, _, _, _, hindex, _⟩ := rebuild_ok hok
  have hnamed : ∀ n d, nodes.get? n = some d → d.entityType ≠ some "" := by
    intro n d hd htype
    have ⟨e, he, _, hne⟩ := hkeyed n d hd
    rw [he] at htype
    exact hne (Option.some.inj htype)
  intro n d hd
  rw [hnodes] at hd
  have ⟨e, he, hn, _⟩ := hkeyed n d hd
  refine ⟨e, he, hn, ?_⟩
  rw [hindex, mem_filed_fileNodes hnamed]
  exact ⟨d, hd, by rw [he]; rfl⟩

theorem covered_mergeEntity (hm : Covered merged) (e : EntityInstance) :
    Covered (mergeEntity merged e) := by
  unfold mergeEntity EntityGraph.updateEntityMetadata EntityGraph.modifyNode
  split_ifs
  · exact hm
  · split
    · exact hm
    · rename_i b hb
      intro n d hd
      have ⟨x, hx, hn, hfiled⟩ := hm _ b hb
      change (merged.nodes.set (makeNodeId e.entityType e.entityId) _).get? n = some d at hd
      rw [Dict.get?_set] at hd
      split_ifs at hd with hsame
      · refine ⟨{ x with metadata := x.metadata.merge e.metadata }, ?_, hsame ▸ hn, hsame ▸ hfiled⟩
        rw [← Option.some.inj hd, hx]
        rfl
      · exact hm n d hd
  · exact covered_addEntity hm e

section Merge
variable {base overlay merged : EntityGraph}

theorem mergeGraphs_entities {loaded : EntityGraph} (hover : Extracted overlay)
    (hloaded : rebuild base.nodes base.edges = .ok loaded)
    (haddresses : (base.edges.map EdgeData.address).Nodup) :
    ∃ start, mergeGraphs base overlay = overlay.edges.foldlM mergeEdge start ∧
      EdgesIndexed start ∧ start.edges = base.edges ∧ (Covered loaded → Covered start) ∧
      ∀ n, start.nodes.get? n = mergedNode base overlay n := by
  have ⟨entities, hok, hnodes, hall⟩ := iterAllEntities_ok hover.covered
  have ⟨hloadedNodes, hloadedEdges, _⟩ := rebuild_ok hloaded
  have hrun : ∀ (es : List EntityInstance) (g : EntityGraph), EdgesIndexed g →
      EdgesIndexed (es.foldl mergeEntity g) ∧ (es.foldl mergeEntity g).edges = g.edges ∧
        (Covered g → Covered (es.foldl mergeEntity g)) := by
    intro es
    induction es with
    | nil => exact fun g hg => ⟨hg, rfl, id⟩
    | cons e es ih =>
      intro g hg
      have ⟨hindexed, hedges, hcovered⟩ := ih _ (edgesIndexed_mergeEntity hg e)
      exact ⟨hindexed, hedges.trans (mergeEntity_edges g e).1,
        fun hg => hcovered (covered_mergeEntity hg e)⟩
  have ⟨hindexed, hedges, hcovered⟩ := hrun entities loaded
    (edgesIndexed_rebuild hloaded haddresses)
  refine ⟨entities.foldl mergeEntity loaded, ?_, hindexed, hedges.trans hloadedEdges, hcovered, ?_⟩
  · unfold mergeGraphs
    rw [hloaded, hok]
    rfl
  · intro n
    rw [mergeEntities_nodes overlay entities hnodes, mergedNode, mergedNode, hloadedNodes]
    split_ifs with hlisted
    · rfl
    · cases hn : overlay.nodes.get? n with
      | none => rfl
      | some d => exact absurd (hall n d hn) hlisted

theorem present_mergedNode (n : String) :
    (mergedNode base overlay n).isSome ↔ Present base n ∨ Present overlay n := by
  unfold mergedNode Present
  cases overlay.nodes.get? n with
  | none => simp
  | some d => simp

theorem mergeGraphs_ok (haddresses : (base.edges.map EdgeData.address).Nodup)
    (hover : Extracted overlay) (hok : mergeGraphs base overlay = .ok merged) :
    Mergeable base overlay ∧ (KeyedNodes base.nodes → Covered merged) ∧
      (∀ n, merged.nodes.get? n = mergedNode base overlay n) ∧
      ∃ added, added.map content = overlay.edges.map content ∧
        merged.edges.Perm (base.edges ++ added) := by
  have hload : ∃ loaded, rebuild base.nodes base.edges = .ok loaded := by
    unfold mergeGraphs at hok
    have ⟨loaded, hloaded, _⟩ := bind_eq_ok.mp hok
    exact ⟨loaded, hloaded⟩
  have ⟨loaded, hloaded⟩ := hload
  have ⟨start, hmerge, hindexed, hedges, hcovered, hnodes⟩ :=
    mergeGraphs_entities hover hloaded haddresses
  rw [hmerge] at hok
  have ⟨hfits, ⟨hsame, hindex⟩, _, added, hadded, hperm⟩ := mergeEdges_ok hindexed hok
  refine ⟨?_, ?_, ?_, added, hadded, ?_⟩
  · intro e he
    have hfit := hfits e he
    refine ⟨?_, ?_, ?_, ?_⟩
    · rw [← present_mergedNode, ← hnodes]
      exact hfit.source
    · rw [← present_mergedNode, ← hnodes]
      exact hfit.target
    · rw [← hedges]
      exact hfit.newTuple
    · rw [← hedges]
      exact hfit.newClaim
  · intro hkeyed
    have hstart := hcovered (covered_rebuild hloaded hkeyed)
    unfold Covered
    rw [hsame, hindex]
    exact hstart
  · rw [hsame]
    exact hnodes
  · rw [← hedges]
    exact hperm

theorem mergeGraphs_total (hbase : EdgesIndexed base) (hover : Extracted overlay)
    (htuples : (overlay.edges.map tuple).Nodup) (hmergeable : Mergeable base overlay) :
    ∃ merged, mergeGraphs base overlay = .ok merged := by
  have ⟨loaded, hloaded⟩ := rebuild_total hbase
  have ⟨start, hmerge, hindexed, hedges, _, hnodes⟩ :=
    mergeGraphs_entities hover hloaded hbase.addresses
  rw [hmerge]
  apply mergeEdges_of_fits hindexed hover.edges hover.unique htuples
  intro e he
  have hfit := hmergeable e he
  refine ⟨?_, ?_, ?_, ?_⟩
  · rw [Present, hnodes, present_mergedNode]
    exact hfit.source
  · rw [Present, hnodes, present_mergedNode]
    exact hfit.target
  · rw [hedges]
    exact hfit.newTuple
  · rw [hedges]
    exact hfit.newClaim

end Merge

/-- An overlay is merged only if its edges fit the base, and without parallel edges
it is merged if they do. The merge holds the edges of both, the overlay's with their
own contents, and every node of the overlay laid over the base. -/
theorem merge_is_exact {base composed overlay : EntityGraph}
    {entityTypes relationshipTypes : List String} (hbase : EdgesIndexed base)
    (hextract : extractOwnedSubgraph composed entityTypes relationshipTypes = .ok overlay) :
    (∀ merged, mergeGraphs base overlay = .ok merged → Mergeable base overlay ∧
      (∀ n, merged.nodes.get? n = mergedNode base overlay n) ∧
      ∃ added, added.map content = overlay.edges.map content ∧
        merged.edges.Perm (base.edges ++ added)) ∧
    ((overlay.edges.map tuple).Nodup → Mergeable base overlay →
      ∃ merged, mergeGraphs base overlay = .ok merged) := by
  have hover := extracted_of_extract hextract
  constructor
  · intro merged hok
    have ⟨hmergeable, _, hnodes, hedges⟩ := mergeGraphs_ok hbase.addresses hover hok
    exact ⟨hmergeable, hnodes, hedges⟩
  · exact mergeGraphs_total hbase hover

/-- A service without properties. -/
def serviceBase : EntityGraph :=
  ({} : EntityGraph).addEntity { entityType := "Service", entityId := "a" }

/-- The same service, named, with a note about it. -/
def annotated : EntityGraph where
  nodes := Dict.ofList
    [("Service:a", { entityType := some "Service", entityId := some "a",
                     properties := Dict.ofList [("name", .str "billing")] }),
     ("Note:n", { entityType := some "Note", entityId := some "n" })]
  edges := [{ fromNode := "Note:n", toNode := "Service:a", key := .int 4,
              relationshipType := "about", claimId := some "CLM-1" }]
  entitiesByType := Dict.ofList [("Service", ["Service:a"]), ("Note", ["Note:n"])]
  edgeCounter := 5
  claimIds := ["CLM-1"]

/-- The note and its edge, with a stub for the service. -/
def noteOverlay : EntityGraph where
  nodes := Dict.ofList
    [("Note:n", { entityType := some "Note", entityId := some "n" }),
     ("Service:a", { entityType := some "Service", entityId := some "a" })]
  edges := [{ fromNode := "Note:n", toNode := "Service:a", key := .int 0,
              relationshipType := "about", claimId := some "CLM-1" }]
  entitiesByType := Dict.ofList [("Note", ["Note:n"]), ("Service", ["Service:a"])]
  edgeCounter := 1
  claimIds := ["CLM-1"]

theorem serviceBase_indexed : EdgesIndexed serviceBase :=
  (extracted_addEntity extracted_empty _).toEdgesIndexed

/-- The note is merged over the service. -/
theorem note_is_merged : ∃ merged, mergeGraphs serviceBase noteOverlay = .ok merged := by
  have hextract : extractOwnedSubgraph annotated ["Note"] ["about"] = .ok noteOverlay := by
    decide +kernel
  apply (merge_is_exact serviceBase_indexed hextract).2
  · decide +kernel
  · intro e he
    rw [List.mem_singleton.mp he]
    refine ⟨.inr ?_, .inr ?_, ?_, ?_⟩
    · rw [Present]
      decide +kernel
    · rw [Present]
      decide +kernel
    · decide +kernel
    · decide +kernel

/-- An overlay node that is more than a stub and that the base also has. -/
def Collides (base overlay : EntityGraph) (n : String) : Prop :=
  Present base n ∧ ∃ d, overlay.nodes.get? n = some d ∧ d.properties.entries ≠ []

/-- The named service alone. -/
def namedOverlay : EntityGraph :=
  ({} : EntityGraph).addEntity
    { entityType := "Service", entityId := "a",
      properties := Dict.ofList [("name", .str "billing")] }

/-- A service that both graphs hold is upserted, not refused. -/
theorem colliding_entity_is_upserted :
    ¬ ∀ (base composed overlay : EntityGraph) (entityTypes relationshipTypes : List String),
      EdgesIndexed base →
      extractOwnedSubgraph composed entityTypes relationshipTypes = .ok overlay →
      ((∃ merged, mergeGraphs base overlay = .ok merged) ↔
        Mergeable base overlay ∧ ∀ n, ¬Collides base overlay n) := by
  intro hall
  have hextract : extractOwnedSubgraph annotated ["Service"] [] = .ok namedOverlay := by
    decide +kernel
  have hmerge : mergeGraphs serviceBase namedOverlay = .ok namedOverlay := by
    decide +kernel
  have hclaim := hall serviceBase annotated namedOverlay _ _ serviceBase_indexed hextract
  have hapart := (hclaim.mp ⟨namedOverlay, hmerge⟩).2 "Service:a"
  apply hapart
  refine ⟨?_, { entityType := some "Service", entityId := some "a",
                properties := Dict.ofList [("name", .str "billing")] }, ?_, ?_⟩
  · rw [Present]
    decide +kernel
  · decide +kernel
  · decide +kernel

end Cruxible.OverlayMerges
