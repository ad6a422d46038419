import Cruxible.Graph

/-!
# Entity graphs as images hold them

A serialized image may come from any release: its edges need not carry a claim
id, its keys need not be integers, and its node ids need not be spelled from the
attributes of their nodes. The graph that is loaded from it keeps four indexes
beside the multigraph: the nodes of each type, the claim ids in use, and the
counter that hands out edge keys. The mutators below maintain them one by one, as
the source does.

Edges are listed in the order in which the multigraph iterates over them: by
source node, then by target, then by insertion.
-/
namespace Cruxible.GraphImages
open JsonValue PythonDict AssertionState AppendOnly
open Cruxible.Graph (EntityInstance RelationshipInstance isSpace blank)

/-- Only integer keys count towards the next one. A float that equals an integer,
which Python takes for the same key, is not told apart from any other key. -/
inductive EdgeKey where
  | int (value : Int)
  | other (label : String)
  deriving DecidableEq

/-- The attributes of a node; a node that only an edge mentions has none. -/
structure NodeData where
  entityType : Option String := none
  entityId : Option String := none
  properties : Properties := ∅
  metadata : EntityMetadata := {}
  deriving DecidableEq

structure EdgeData where
  fromNode : String
  toNode : String
  key : EdgeKey
  relationshipType : String
  claimId : Option String := none
  properties : Properties := ∅
  metadata : RelationshipMetadata := {}
  deriving DecidableEq

/-- What addresses an edge of a multigraph. -/
def EdgeData.address (e : EdgeData) : String × String × EdgeKey := (e.fromNode, e.toNode, e.key)

/-- The directed multigraph that the node-link reader makes of an image. -/
structure Image where
  nodes : Dict String NodeData := ∅
  edges : List EdgeData := []
  addresses : (edges.map EdgeData.address).Nodup
  closed : ∀ e ∈ edges, nodes.contains e.fromNode = true ∧ nodes.contains e.toNode = true

/-- `make_node_id`. -/
def makeNodeId (entityType entityId : String) : String :=
  (Graph.makeNodeId entityType entityId).text

/-- `split_node_id`, which raises for a text without a colon. -/
def splitNodeId (n : String) : Option (String × String) :=
  if h : ':' ∈ n.toList then some (Graph.splitNodeId ⟨n, h⟩) else none

/-- `(relationship_type, from_type, from_id, to_type, to_id)`. -/
abbrev IdentityKey := String × String × String × String × String

def EdgeData.identity (e : EdgeData) : Option IdentityKey :=
  (splitNodeId e.fromNode).bind fun s =>
    (splitNodeId e.toNode).map fun t => (e.relationshipType, s.1, s.2, t.1, t.2)

structure EntityGraph where
  nodes : Dict String NodeData := ∅
  edges : List EdgeData := []
  entitiesByType : Dict String (List String) := ∅
  edgeCounter : Int := 0
  claimIds : List String := []
  deriving DecidableEq

/-- The node ids that are filed under a type. -/
def filed (index : Dict String (List String)) (t : String) : List String :=
  (index.get? t).getD []

/-- `_entities_by_type[t].add(n)`. -/
def file (index : Dict String (List String)) (t n : String) : Dict String (List String) :=
  index.set t (if n ∈ filed index t then filed index t else filed index t ++ [n])

/-- `_entities_by_type[t].discard(n)`. -/
def unfile (index : Dict String (List String)) (t n : String) : Dict String (List String) :=
  index.set t ((filed index t).filter (· ≠ n))

variable {index : Dict String (List String)} {n' t' : String}

theorem mem_filed_file {t n : String} :
    n' ∈ filed (file index t n) t' ↔ n' ∈ filed index t' ∨ (t' = t ∧ n' = n) := by
  unfold file
  by_cases ht : t = t'
  · rw [filed, ← ht, Dict.get?_set_self, Option.getD_some]
    split_ifs with hn
    · constructor
      · exact .inl
      · rintro (h | ⟨_, h⟩)
        · exact h
        · exact h ▸ hn
    · rw [List.mem_append, List.mem_singleton]
      simp
  · rw [filed, Dict.get?_set_of_ne _ _ ht, filed]
    simp [Ne.symm ht]

theorem mem_filed_unfile {t n : String} :
    n' ∈ filed (unfile index t n) t' ↔ n' ∈ filed index t' ∧ ¬(t' = t ∧ n' = n) := by
  unfold unfile
  by_cases ht : t = t'
  · rw [filed, ← ht, Dict.get?_set_self, Option.getD_some, List.mem_filter]
    simp
  · rw [filed, Dict.get?_set_of_ne _ _ ht, filed]
    simp [Ne.symm ht]

/-- `_claim_ids.discard(c)` for an edge that carries an id. -/
def discardClaim (claimIds : List String) (c : Option String) : List String :=
  match c with
  | none => claimIds
  | some c => claimIds.filter (· ≠ c)

/-- Where the multigraph iterates over a new edge: after the edges of its pair,
else after the edges of its source, else after the edges of earlier sources. -/
def edgePosition (order : List String) (e : EdgeData) (es : List EdgeData) : Nat :=
  let samePair := fun x : EdgeData => x.fromNode = e.fromNode && x.toNode = e.toNode
  let sameSource := fun x : EdgeData => decide (x.fromNode = e.fromNode)
  if es.any samePair then es.length - es.reverse.findIdx samePair
  else if es.any sameSource then es.length - es.reverse.findIdx sameSource
  else es.findIdx fun x => decide (order.idxOf e.fromNode < order.idxOf x.fromNode)

/-- `MultiDiGraph.add_edge`: a present address has its attributes replaced. -/
def addEdge (order : List String) (e : EdgeData) (es : List EdgeData) : List EdgeData :=
  if es.any (fun x => x.address = e.address) then
    es.map fun x => if x.address = e.address then e else x
  else
    es.take (edgePosition order e es) ++ e :: es.drop (edgePosition order e es)

theorem addEdge_perm (order : List String) {e : EdgeData} {es : List EdgeData}
    (hfresh : e.address ∉ es.map EdgeData.address) : (addEdge order e es).Perm (e :: es) := by
  have hany : es.any (fun x => x.address = e.address) = false := by
    rw [List.any_eq_false]
    intro x hx hxe
    apply hfresh
    rw [← of_decide_eq_true hxe]
    exact List.mem_map_of_mem hx
  rw [addEdge, if_neg (by simp [hany])]
  have hmiddle : (es.take (edgePosition order e es) ++ e :: es.drop (edgePosition order e es)).Perm
      (e :: (es.take (edgePosition order e es) ++ es.drop (edgePosition order e es))) :=
    List.perm_middle
  rw [List.take_append_drop] at hmiddle
  exact hmiddle

namespace EntityGraph

/-- `add_entity`: a present node has its attributes replaced. -/
def addEntity (g : EntityGraph) (e : EntityInstance) : EntityGraph :=
  let n := makeNodeId e.entityType e.entityId
  { g with
    nodes := g.nodes.set n
      { entityType := some e.entityType, entityId := some e.entityId,
        properties := e.properties, metadata := e.metadata }
    entitiesByType := file g.entitiesByType e.entityType n }

def hasEntity (g : EntityGraph) (entityType entityId : String) : Bool :=
  (g.nodes.get? (makeNodeId entityType entityId)).isSome

/-- `remove_entity`: the node goes with its edges and their claim ids. -/
def removeEntity (g : EntityGraph) (entityType entityId : String) : EntityGraph :=
  let n := makeNodeId entityType entityId
  match g.nodes.get? n with
  | none => g
  | some _ =>
      let outgoing := g.edges.filter (fun e => e.fromNode = n)
      let incoming := g.edges.filter (fun e => e.toNode = n)
      { g with
        nodes := g.nodes.erase n
        edges := g.edges.filter (fun e => ¬(e.fromNode = n ∨ e.toNode = n))
        entitiesByType := unfile g.entitiesByType entityType n
        claimIds := (outgoing ++ incoming).foldl (fun ids e => discardClaim ids e.claimId) g.claimIds }

def modifyNode (g : EntityGraph) (n : String) (f : NodeData → NodeData) : EntityGraph :=
  match g.nodes.get? n with
  | none => g
  | some d => { g with nodes := g.nodes.set n (f d) }

/-- `update_entity_properties`. -/
def updateEntityProperties (g : EntityGraph) (entityType entityId : String)
    (updates : Properties) : EntityGraph :=
  g.modifyNode (makeNodeId entityType entityId)
    (fun d => { d with properties := d.properties.update updates })

/-- `update_entity_metadata`. -/
def updateEntityMetadata (g : EntityGraph) (entityType entityId : String)
    (updates : EntityMetadata) : EntityGraph :=
  g.modifyNode (makeNodeId entityType entityId)
    (fun d => { d with metadata := d.metadata.merge updates })

/-- The test of `_find_relationship_edge`. -/
def edgeMatches (fromNode toNode relationshipType : String) (edgeKey : Option Int)
    (e : EdgeData) : Bool :=
  e.fromNode = fromNode && e.toNode = toNode &&
    (match edgeKey with
      | some k => e.key = .int k
      | none => true) &&
    e.relationshipType = relationshipType

def findRelationshipEdge (g : EntityGraph) (fromType fromId toType toId relationshipType : String)
    (edgeKey : Option Int := none) : Option EdgeData :=
  g.edges.find? (edgeMatches (makeNodeId fromType fromId) (makeNodeId toType toId)
    relationshipType edgeKey)

/-- A missing endpoint becomes a stub node. -/
def ensureNode (g : EntityGraph) (entityType entityId : String) : EntityGraph :=
  if g.hasEntity entityType entityId then g
  else g.addEntity { entityType := entityType, entityId := entityId }

def missingClaimId : String := "Relationship added to a graph is missing claim_id"

/-- `add_relationship`: preserve the incoming claim id or refuse. -/
def addRelationship (g : EntityGraph) (r : RelationshipInstance) : Except String EntityGraph :=
  match r.claimId with
  | none => .error missingClaimId
  | some c =>
      if blank c then .error missingClaimId
      else if c ∈ g.claimIds then .error ("Duplicate claim_id '" ++ c ++ "' added to the graph")
      else
        let h := (g.ensureNode r.fromType r.fromId).ensureNode r.toType r.toId
        .ok { h with
          edges := addEdge h.nodes.keys
            { fromNode := makeNodeId r.fromType r.fromId, toNode := makeNodeId r.toType r.toId,
              key := .int h.edgeCounter, relationshipType := r.relationshipType,
              claimId := some c, properties := r.properties, metadata := r.metadata } h.edges
          edgeCounter := h.edgeCounter + 1
          claimIds := h.claimIds ++ [c] }

def modifyEdge (g : EntityGraph) (fromType fromId toType toId relationshipType : String)
    (edgeKey : Option Int) (f : EdgeData → EdgeData) : EntityGraph :=
  let test := edgeMatches (makeNodeId fromType fromId) (makeNodeId toType toId)
    relationshipType edgeKey
  { g with edges := modifyFirst test f g.edges }

/-- `update_relationship_state`. -/
def updateRelationshipState (g : EntityGraph)
    (fromType fromId toType toId relationshipType : String)
    (propertyUpdates : Option Properties) (metadata : Option RelationshipMetadata)
    (edgeKey : Option Int) : EntityGraph :=
  g.modifyEdge fromType fromId toType toId relationshipType edgeKey (fun e =>
    { e with properties := e.properties.update (propertyUpdates.getD ∅),
             metadata := metadata.getD e.metadata })

/-- `replace_relationship_state`. -/
def replaceRelationshipState (g : EntityGraph)
    (fromType fromId toType toId relationshipType : String)
    (properties : Properties) (metadata : RelationshipMetadata) (edgeKey : Option Int) :
    EntityGraph :=
  g.modifyEdge fromType fromId toType toId relationshipType edgeKey
    (fun e => { e with properties := properties, metadata := metadata })

/-- `remove_relationship`: the first match goes with its claim id. -/
def removeRelationship (g : EntityGraph) (fromType fromId toType toId relationshipType : String)
    (edgeKey : Option Int) : EntityGraph :=
  match g.findRelationshipEdge fromType fromId toType toId relationshipType edgeKey with
  | none => g
  | some found =>
      { g with
        edges := g.edges.filter (fun e => e.address ≠ found.address)
        claimIds := discardClaim g.claimIds found.claimId }

/-- `relabel_provenance_for_clone`, without the copy of the cleared receipt id. -/
def relabelProvenanceForClone (origin : String) (p : RelationshipProvenance) :
    RelationshipProvenance :=
  if p.receiptId = none ∧ p.resolutionId = none then p
  else { p with receiptId := none, resolutionId := none, cloneOrigin := some origin }

/-- `relabel_clone_receipts`. -/
def relabelCloneReceipts (g : EntityGraph) (origin : String) : EntityGraph :=
  { g with edges := g.edges.map fun e =>
      { e with metadata := { e.metadata with
          provenance := e.metadata.provenance.map (relabelProvenanceForClone origin) } } }

end EntityGraph

/-- The larger of a key and the integer key of an edge. -/
def largerKey (m : Int) (e : EdgeData) : Int :=
  match e.key with
  | .int k => if m < k then k else m
  | .other _ => m

/-- The largest integer key, and -1 if there is none. -/
def maxKey (es : List EdgeData) : Int := es.foldl largerKey (-1)

/-- The claim ids of the edges, in order; a repeated id is refused. -/
def collectClaimIds : List EdgeData → List String → Except String (List String)
  | [], ids => .ok ids
  | e :: es, ids =>
      match e.claimId with
      | none => collectClaimIds es ids
      | some c =>
          if c ∈ ids then .error ("Duplicate claim_id '" ++ c ++ "' in serialized graph data")
          else collectClaimIds es (ids ++ [c])

/-- A node without a type, or with the empty one, is not filed. -/
def fileNode (index : Dict String (List String)) (b : String × NodeData) :
    Dict String (List String) :=
  match b.2.entityType with
  | none => index
  | some t => if t = "" then index else file index t b.1

/-- The nodes of an image by type. -/
def fileNodes (nodes : Dict String NodeData) : Dict String (List String) :=
  nodes.entries.foldl fileNode ∅

/-- The indexes are rebuilt from the nodes and edges. -/
def rebuild (nodes : Dict String NodeData) (edges : List EdgeData) : Except String EntityGraph :=
  match collectClaimIds edges [] with
  | .error m => .error m
  | .ok ids => .ok
      { nodes := nodes, edges := edges, entitiesByType := fileNodes nodes,
        edgeCounter := maxKey edges + 1, claimIds := ids }

/-- `from_dict`. -/
def fromDict (image : Image) : Except String EntityGraph := rebuild image.nodes image.edges

/-- Claim ids by tuple and position: the parallel edges of one tuple are told
apart by the order in which they are met. -/
abbrev IdentityMap := Dict IdentityKey (List String)

/-- `reuse[identity][position]`, the empty text where the map has none. -/
def reusable (reuse : IdentityMap) (k : IdentityKey) (position : Nat) : String :=
  (((reuse.get? k).getD [])[position]?).getD ""

/-- The accumulators of a walk that assigns claim ids. -/
structure Walk where
  claimIds : List String
  seen : Dict IdentityKey Nat := ∅
  minted : Nat := 0
  unresolved : Nat := 0
  assigned : List EdgeData := []

/-- What a walk does with one edge that it takes for id-less: keep it so, give it
an id, or give it an id and then raise. -/
structure Assigner where
  idless : Option String → Bool
  pick : (candidate : String) → (claimIds : List String) → (minted : Nat) → Option String
  mints : Bool
  refuses : String → Bool

/-- The edge at a position stays id-less. -/
def Walk.skip (s : Walk) (k : IdentityKey) (position : Nat) : Walk :=
  { s with seen := s.seen.set k (position + 1), unresolved := s.unresolved + 1 }

/-- The edge at a position takes an id, minted if the map has none that is free. -/
def Walk.take (s : Walk) (a : Assigner) (k : IdentityKey) (position : Nat) (candidate : String)
    (e : EdgeData) (c : String) : Walk where
  claimIds := s.claimIds ++ [c]
  seen := s.seen.set k (position + 1)
  minted := if a.mints && (candidate = "" || candidate ∈ s.claimIds) then s.minted + 1
    else s.minted
  unresolved := s.unresolved
  assigned := s.assigned ++ [{ e with claimId := some c }]

/-- The shared loop of the two walks. An error leaves the edges that it has
passed as they then are. -/
def assignClaimIds (a : Assigner) (reuse : IdentityMap) :
    List EdgeData → Walk → List EdgeData × Walk × Option String
  | [], s => ([], s, none)
  | e :: es, s =>
      if a.idless e.claimId then
        match e.identity with
        | none => (e :: es, s, some "Invalid node_id")
        | some k =>
            let position := (s.seen.get? k).getD 0
            let candidate := reusable reuse k position
            match a.pick candidate s.claimIds s.minted with
            | none =>
                let rest := assignClaimIds a reuse es (s.skip k position)
                (e :: rest.1, rest.2)
            | some c =>
                let s' := s.take a k position candidate e c
                if a.refuses c then
                  ({ e with claimId := some c } :: es, s',
                    some "claim_id must be a non-empty identifier")
                else
                  let rest := assignClaimIds a reuse es s'
                  ({ e with claimId := some c } :: rest.1, rest.2)
      else
        let rest := assignClaimIds a reuse es s
        (e :: rest.1, rest.2)

/-- The reconcile map first, and a fresh id past a gap or a collision. -/
def backfiller (mint : Nat → String) : Assigner where
  idless := fun c => c = none
  pick := fun candidate claimIds minted =>
    if candidate = "" || candidate ∈ claimIds then some (mint minted) else some candidate
  mints := true
  refuses := blank

/-- The reconcile map and nothing else. -/
def annotator : Assigner where
  idless := fun c => c = none || c = some ""
  pick := fun candidate claimIds _ =>
    if candidate = "" || candidate ∈ claimIds then none else some candidate
  mints := false
  refuses := fun _ => false

namespace EntityGraph

def assign (a : Assigner) (reuse : IdentityMap) (g : EntityGraph) :
    EntityGraph × Walk × Option String :=
  let walk := assignClaimIds a reuse g.edges { claimIds := g.claimIds }
  ({ g with edges := walk.1, claimIds := walk.2.1.claimIds }, walk.2.1, walk.2.2)

/-- `backfill_missing_claim_ids`: the graph, the walk with the edges that received
an id, and the error if it raised. -/
def backfillMissingClaimIds (g : EntityGraph) (reuse : IdentityMap) (mint : Nat → String) :
    EntityGraph × Walk × Option String :=
  g.assign (backfiller mint) reuse

/-- `annotate_claim_ids_from_map`. -/
def annotateClaimIdsFromMap (g : EntityGraph) (reuse : IdentityMap) :
    EntityGraph × Walk × Option String :=
  g.assign annotator reuse

end EntityGraph

/-- `grouped.setdefault(key, []).append(claim_id)`. -/
def groupEdge (grouped : IdentityMap) (e : EdgeData) : IdentityMap :=
  match e.claimId, e.identity with
  | some c, some k => grouped.set k ((grouped.get? k).getD [] ++ [c])
  | _, _ => grouped

def groupAssigned (assigned : List EdgeData) : IdentityMap := assigned.foldl groupEdge ∅

/-- One id is written at its position, or appended. -/
def placeId (ids : List String) (p : String × Nat) : List String :=
  if p.2 < ids.length then ids.set p.2 p.1 else ids ++ [p.1]

/-- One list of positions is written over another. -/
def overwriteIds (existing : List String) (claimIds : List String) : List String :=
  claimIds.zipIdx.foldl placeId existing

def recordEntry (updated : IdentityMap) (b : IdentityKey × List String) : IdentityMap :=
  updated.set b.1 (overwriteIds ((updated.get? b.1).getD []) b.2)

/-- `record_minted_identities`. -/
def recordMintedIdentities (entries : IdentityMap) (assigned : List EdgeData) : IdentityMap :=
  (groupAssigned assigned).entries.foldl recordEntry entries

end Cruxible.GraphImages
