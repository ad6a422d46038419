import Cruxible.AppendOnly
import Cruxible.AssertionState

/-!
# The in-memory entity graph

Nodes are addressed by the text `type:id`, edges by a per-load integer key and
by their minted claim id. Edges are kept in insertion order: lookup by the
relationship tuple returns the first match, and an edge is never moved. The
claim-id index is stored beside the edges, as in the source, and is consulted
before any scan.

Every write of the service is some sequence of the mutators below. `Evolves`
says what such a sequence may do to old and new records; it is stated for
arbitrary record relations and composes, so each property of whole operations
is one choice of those relations.
-/
namespace Cruxible.Graph
open JsonValue PythonDict AssertionState AppendOnly

/-- `str.isspace` of a single character. -/
def isSpace (c : Char) : Bool :=
  let n := c.toNat
  (9 ≤ n && n ≤ 13) || (28 ≤ n && n ≤ 32) || n == 0x85 || n == 0xA0 || n == 0x1680 ||
    (0x2000 ≤ n && n ≤ 0x200A) || n == 0x2028 || n == 0x2029 || n == 0x202F || n == 0x205F ||
    n == 0x3000

/-- `str.strip()`. -/
def strip (s : String) : String :=
  String.ofList ((s.toList.dropWhile isSpace).reverse.dropWhile isSpace).reverse

/-- `not s.strip()`. -/
def blank (s : String) : Bool := s.toList.all isSpace

/-- A node id always contains the separator that `make_node_id` wrote. -/
structure NodeId where
  text : String
  separated : ':' ∈ text.toList
  deriving DecidableEq

/-- `make_node_id`. -/
def makeNodeId (entityType entityId : String) : NodeId where
  text := entityType ++ ":" ++ entityId
  separated := by simp [String.toList_append]

/-- `split_node_id`: partition at the first colon. -/
def splitNodeId (n : NodeId) : String × String :=
  (String.ofList (n.text.toList.takeWhile (· ≠ ':')),
    String.ofList ((n.text.toList.dropWhile (· ≠ ':')).drop 1))

theorem takeWhile_colon_dropWhile {cs : List Char} (h : ':' ∈ cs) :
    cs.takeWhile (· ≠ ':') ++ ':' :: (cs.dropWhile (· ≠ ':')).drop 1 = cs := by
  induction cs with
  | nil => simp at h
  | cons c cs ih =>
    by_cases hc : c = ':'
    · subst hc
      simp
    · have ht : ':' ∈ cs := by
        rcases List.mem_cons.mp h with h | h
        · exact absurd h.symm hc
        · exact h
      simpa [hc] using ih ht

/-- Splitting keeps the whole text even when the entity type itself has colons. -/
@[simp] theorem makeNodeId_splitNodeId (n : NodeId) :
    makeNodeId (splitNodeId n).1 (splitNodeId n).2 = n := by
  obtain ⟨text, separated⟩ := n
  simp only [makeNodeId, splitNodeId, NodeId.mk.injEq]
  apply String.toList_injective
  simp only [String.toList_append, String.toList_ofList]
  simpa using takeWhile_colon_dropWhile separated

theorem makeNodeId_inj {t i j : String} (h : makeNodeId t i = makeNodeId t j) : i = j := by
  have htext := congrArg NodeId.text h
  simp only [makeNodeId] at htext
  have hchars := congrArg String.toList htext
  simp only [String.toList_append, List.append_cancel_left_eq] at hchars
  exact String.toList_injective hchars

structure EntityInstance where
  entityType : String
  entityId : String
  properties : Properties := ∅
  metadata : EntityMetadata := {}
  deriving DecidableEq

def EntityInstance.nodeId (e : EntityInstance) : NodeId := makeNodeId e.entityType e.entityId

structure RelationshipInstance where
  relationshipType : String
  fromType : String
  fromId : String
  toType : String
  toId : String
  edgeKey : Option Nat := none
  claimId : Option String := none
  properties : Properties := ∅
  metadata : RelationshipMetadata := {}
  deriving DecidableEq

/-- `identity_tuple`. -/
def RelationshipInstance.identityTuple (r : RelationshipInstance) :
    String × String × String × String × String :=
  (r.fromType, r.fromId, r.toType, r.toId, r.relationshipType)

/-- One stored multigraph edge. -/
structure EdgeData where
  fromNode : NodeId
  toNode : NodeId
  key : Nat
  relationshipType : String
  claimId : String
  properties : Properties
  metadata : RelationshipMetadata
  deriving DecidableEq

def EdgeData.lifecycle (e : EdgeData) : RelationshipLifecycleState := e.metadata.assertion.lifecycle

@[ext] structure EntityGraph where
  nodes : Dict NodeId EntityInstance := ∅
  edges : List EdgeData := []
  edgeCounter : Nat := 0
  claimIds : List String := []
  deriving DecidableEq

namespace EntityGraph

/-- `get_entity`: the node data, under whatever spelling reaches the node id. -/
def getEntity (g : EntityGraph) (entityType entityId : String) : Option EntityInstance :=
  g.nodes.get? (makeNodeId entityType entityId)

def hasEntity (g : EntityGraph) (entityType entityId : String) : Bool :=
  (g.getEntity entityType entityId).isSome

/-- `add_entity`: a node with the same id has its attributes replaced. -/
def addEntity (g : EntityGraph) (e : EntityInstance) : EntityGraph :=
  { g with nodes := g.nodes.set e.nodeId e }

/-- Rewrite the attributes of a present node. -/
def modifyNode (g : EntityGraph) (n : NodeId) (f : EntityInstance → EntityInstance) : EntityGraph :=
  match g.nodes.get? n with
  | none => g
  | some d => { g with nodes := g.nodes.set n (f d) }

/-- `update_entity_properties`: merge into the stored properties. -/
def updateEntityProperties (g : EntityGraph) (entityType entityId : String)
    (updates : Properties) : EntityGraph :=
  g.modifyNode (makeNodeId entityType entityId)
    (fun d => { d with properties := d.properties.update updates })

/-- `update_entity_metadata`: merge slice by slice into the stored metadata. -/
def updateEntityMetadata (g : EntityGraph) (entityType entityId : String)
    (updates : EntityMetadata) : EntityGraph :=
  g.modifyNode (makeNodeId entityType entityId)
    (fun d => { d with metadata := d.metadata.merge updates })

/-- The test of `_find_relationship_edge`. -/
def edgeMatches (fromNode toNode : NodeId) (relationshipType : String) (edgeKey : Option Nat)
    (e : EdgeData) : Bool :=
  e.fromNode = fromNode && e.toNode = toNode &&
    (match edgeKey with
      | some k => e.key = k
      | none => true) &&
    e.relationshipType = relationshipType

def findRelationshipEdge (g : EntityGraph) (fromType fromId toType toId relationshipType : String)
    (edgeKey : Option Nat := none) : Option EdgeData :=
  g.edges.find? (edgeMatches (makeNodeId fromType fromId) (makeNodeId toType toId)
    relationshipType edgeKey)

/-- `get_relationship`: the first match, spelled with the caller's endpoints. -/
def getRelationship (g : EntityGraph) (fromType fromId toType toId relationshipType : String)
    (edgeKey : Option Nat := none) : Option RelationshipInstance :=
  (g.findRelationshipEdge fromType fromId toType toId relationshipType edgeKey).map fun e =>
    { relationshipType := relationshipType, fromType := fromType, fromId := fromId,
      toType := toType, toId := toId, edgeKey := some e.key, claimId := some e.claimId,
      properties := e.properties, metadata := e.metadata }

/-- `find_relationship_by_claim_id`: index test, then a scan. -/
def findRelationshipByClaimId (g : EntityGraph) (claimId : String) : Option RelationshipInstance :=
  if claimId ∈ g.claimIds then
    (g.edges.find? (fun e => e.claimId = claimId)).map fun e =>
      { relationshipType := e.relationshipType,
        fromType := (splitNodeId e.fromNode).1, fromId := (splitNodeId e.fromNode).2,
        toType := (splitNodeId e.toNode).1, toId := (splitNodeId e.toNode).2,
        edgeKey := some e.key, claimId := some claimId,
        properties := e.properties, metadata := e.metadata }
  else none

def relationshipCountBetween (g : EntityGraph)
    (fromType fromId toType toId relationshipType : String) : Nat :=
  g.edges.countP (edgeMatches (makeNodeId fromType fromId) (makeNodeId toType toId)
    relationshipType none)

/-- A missing endpoint becomes a stub node. -/
def ensureNode (g : EntityGraph) (entityType entityId : String) : EntityGraph :=
  match g.nodes.get? (makeNodeId entityType entityId) with
  | some _ => g
  | none => g.addEntity { entityType := entityType, entityId := entityId }

/-- `add_relationship`: preserve the incoming claim id or refuse. -/
def addRelationship (g : EntityGraph) (r : RelationshipInstance) :
    Except String (EntityGraph × Nat) :=
  match r.claimId with
  | none => .error "Relationship added to a graph is missing claim_id"
  | some c =>
      if blank c then .error "Relationship added to a graph is missing claim_id"
      else if c ∈ g.claimIds then .error ("Duplicate claim_id '" ++ c ++ "' added to the graph")
      else
        let h := (g.ensureNode r.fromType r.fromId).ensureNode r.toType r.toId
        .ok ({ h with
          edges := h.edges ++ [{ fromNode := makeNodeId r.fromType r.fromId,
                                 toNode := makeNodeId r.toType r.toId,
                                 key := h.edgeCounter, relationshipType := r.relationshipType,
                                 claimId := c, properties := r.properties,
                                 metadata := r.metadata }],
          edgeCounter := h.edgeCounter + 1,
          claimIds := h.claimIds ++ [c] }, h.edgeCounter)

/-- Both state mutators write through the same first-match resolution. -/
def modifyEdge (g : EntityGraph) (fromType fromId toType toId relationshipType : String)
    (edgeKey : Option Nat) (f : EdgeData → EdgeData) : EntityGraph :=
  let test := edgeMatches (makeNodeId fromType fromId) (makeNodeId toType toId)
    relationshipType edgeKey
  { g with edges := modifyFirst test f g.edges }

/-- `replace_relationship_state`. -/
def replaceRelationshipState (g : EntityGraph)
    (fromType fromId toType toId relationshipType : String)
    (properties : Properties) (metadata : RelationshipMetadata)
    (edgeKey : Option Nat := none) : EntityGraph :=
  g.modifyEdge fromType fromId toType toId relationshipType edgeKey
    (fun e => { e with properties := properties, metadata := metadata })

/-- `update_relationship_state`: merge properties, replace metadata, each only
when supplied. -/
def updateRelationshipState (g : EntityGraph)
    (fromType fromId toType toId relationshipType : String)
    (propertyUpdates : Option Properties) (metadata : Option RelationshipMetadata)
    (edgeKey : Option Nat := none) : EntityGraph :=
  g.modifyEdge fromType fromId toType toId relationshipType edgeKey (fun e =>
    { e with properties := e.properties.update (propertyUpdates.getD ∅),
             metadata := metadata.getD e.metadata })

end EntityGraph

namespace EntityGraph

theorem modifyNode_modifyNode (g : EntityGraph) (n : NodeId) (f k : EntityInstance → EntityInstance) :
    (g.modifyNode n f).modifyNode n k = g.modifyNode n (fun d => k (f d)) := by
  unfold modifyNode
  cases hd : g.nodes.get? n with
  | none => simp [hd]
  | some d => simp [Dict.set_set]

variable {f : EdgeData → EdgeData}

theorem modifyEdge_congr (g : EntityGraph) (a b c d r : String) (key : Option Nat)
    {k : EdgeData → EdgeData} (h : ∀ e, g.findRelationshipEdge a b c d r key = some e → f e = k e) :
    g.modifyEdge a b c d r key f = g.modifyEdge a b c d r key k := by
  have he := modifyFirst_congr h
  simp only [modifyEdge, he]

theorem modifyEdge_of_not_found {g : EntityGraph} {a b c d r : String} {key : Option Nat}
    (h : g.findRelationshipEdge a b c d r key = none) : g.modifyEdge a b c d r key f = g := by
  rw [modifyEdge_congr (k := id) g a b c d r key (by simp [h])]
  have hid := map_modifyFirst (f := id) (p := edgeMatches (makeNodeId a b) (makeNodeId c d) r key)
    id (fun _ => rfl) g.edges
  rw [List.map_id, List.map_id] at hid
  simp only [modifyEdge, hid]

/-- A rewrite that keeps the addressed columns is found where it was made. -/
theorem findRelationshipEdge_modifyEdge (g : EntityGraph) (a b c d r : String) (key : Option Nat)
    (hf : ∀ e, (f e).fromNode = e.fromNode ∧ (f e).toNode = e.toNode ∧
      (f e).key = e.key ∧ (f e).relationshipType = e.relationshipType) :
    (g.modifyEdge a b c d r key f).findRelationshipEdge a b c d r key =
      (g.findRelationshipEdge a b c d r key).map f := by
  apply find?_modifyFirst_self
  intro e
  obtain ⟨h₁, h₂, h₃, h₄⟩ := hf e
  simp only [edgeMatches, h₁, h₂, h₃, h₄]

/-- The first match of a tuple is also found under its own key. -/
theorem findRelationshipEdge_key {g : EntityGraph} {a b c d r : String} {e : EdgeData}
    (h : g.findRelationshipEdge a b c d r none = some e) :
    g.findRelationshipEdge a b c d r (some e.key) = some e := by
  have hself := List.find?_some h
  apply find?_refine _ h
  · simpa [edgeMatches] using hself
  · intro x hx
    simp only [edgeMatches, Bool.and_eq_true, decide_eq_true_eq] at hx ⊢
    exact ⟨⟨hx.1.1, trivial⟩, hx.2⟩

@[simp] theorem ensureNode_claimIds (g : EntityGraph) (t i : String) :
    (g.ensureNode t i).claimIds = g.claimIds := by
  unfold ensureNode
  split <;> rfl

end EntityGraph

/-- What the mutators maintain: a node is filed under its own id, and edges have
distinct keys below the counter and distinct claim ids from the index. -/
structure WellFormed (g : EntityGraph) : Prop where
  keyed : ∀ n d, g.nodes.get? n = some d → d.nodeId = n
  indexed : ∀ e ∈ g.edges, e.claimId ∈ g.claimIds
  claimsNodup : (g.edges.map EdgeData.claimId).Nodup
  keysBelow : ∀ e ∈ g.edges, e.key < g.edgeCounter
  keysNodup : (g.edges.map EdgeData.key).Nodup

namespace WellFormed
variable {g : EntityGraph}

theorem empty : WellFormed {} where
  keyed := by
    intro n d hd
    simp at hd
  indexed := by simp
  claimsNodup := by simp
  keysBelow := by simp
  keysNodup := by simp

theorem setNode (h : WellFormed g) {n : NodeId} {d : EntityInstance} (hd : d.nodeId = n) :
    WellFormed { g with nodes := g.nodes.set n d } where
  keyed := by
    intro m d' hm
    rw [Dict.get?_set] at hm
    split_ifs at hm with he
    · obtain rfl := Option.some.inj hm
      rw [hd, he]
    · exact h.keyed m d' hm
  indexed := h.indexed
  claimsNodup := h.claimsNodup
  keysBelow := h.keysBelow
  keysNodup := h.keysNodup

theorem modifyEdge (h : WellFormed g) (a b c d r : String) (key : Option Nat)
    {f : EdgeData → EdgeData} (hc : ∀ e, (f e).claimId = e.claimId) (hk : ∀ e, (f e).key = e.key) :
    WellFormed (g.modifyEdge a b c d r key f) where
  keyed := h.keyed
  indexed := by
    intro e he
    rcases mem_modifyFirst he with he | ⟨x, hx, rfl⟩
    · exact h.indexed e he
    · rw [hc]
      exact h.indexed x (List.mem_of_find?_eq_some hx)
  claimsNodup := by
    simp only [EntityGraph.modifyEdge, map_modifyFirst EdgeData.claimId hc]
    exact h.claimsNodup
  keysBelow := by
    intro e he
    rcases mem_modifyFirst he with he | ⟨x, hx, rfl⟩
    · exact h.keysBelow e he
    · rw [hk]
      exact h.keysBelow x (List.mem_of_find?_eq_some hx)
  keysNodup := by
    simp only [EntityGraph.modifyEdge, map_modifyFirst EdgeData.key hk]
    exact h.keysNodup

variable {e : EdgeData}

theorem appendEdge (h : WellFormed g) (hk : e.key = g.edgeCounter) (hc : e.claimId ∉ g.claimIds) :
    WellFormed { g with edges := g.edges ++ [e], edgeCounter := g.edgeCounter + 1,
                        claimIds := g.claimIds ++ [e.claimId] } where
  keyed := h.keyed
  indexed := by
    intro x hx
    rcases List.mem_append.mp hx with hx | hx
    · exact List.mem_append_left _ (h.indexed x hx)
    · rw [List.mem_singleton.mp hx]
      exact List.mem_append_right _ (List.mem_singleton.mpr rfl)
  claimsNodup := by
    rw [List.map_append, List.nodup_append]
    refine ⟨h.claimsNodup, by simp, ?_⟩
    rintro x hx y hy rfl
    obtain ⟨x', hx', rfl⟩ := List.mem_map.mp hx
    have hxe : x'.claimId = e.claimId := by simpa using hy
    exact hc (hxe ▸ h.indexed x' hx')
  keysBelow := by
    intro x hx
    rcases List.mem_append.mp hx with hx | hx
    · have hlt := h.keysBelow x hx
      change x.key < g.edgeCounter + 1
      omega
    · rw [List.mem_singleton.mp hx, hk]
      exact Nat.lt_succ_self _
  keysNodup := by
    rw [List.map_append, List.nodup_append]
    refine ⟨h.keysNodup, by simp, ?_⟩
    rintro x hx y hy rfl
    obtain ⟨x', hx', rfl⟩ := List.mem_map.mp hx
    have hxe : x'.key = g.edgeCounter := by simpa [hk] using hy
    have hlt := h.keysBelow x' hx'
    omega

theorem find?_claimId (h : WellFormed g) (he : e ∈ g.edges) :
    g.edges.find? (fun x => x.claimId = e.claimId) = some e :=
  find?_eq_of_nodup h.claimsNodup he

theorem find?_key (h : WellFormed g) (he : e ∈ g.edges) :
    g.edges.find? (fun x => x.key = e.key) = some e :=
  find?_eq_of_nodup h.keysNodup he

end WellFormed

/-- Record relations that are closed under sequencing. `newNode` and `newEdge`
describe records that were absent before. -/
structure Frame where
  node : EntityInstance → EntityInstance → Prop
  newNode : EntityInstance → Prop
  edge : EdgeData → EdgeData → Prop
  newEdge : EdgeData → Prop
  node_refl : ∀ d, node d d
  node_trans : ∀ {a b c}, node a b → node b c → node a c
  newNode_node : ∀ {a b}, newNode a → node a b → newNode b
  edge_refl : ∀ e, edge e e
  edge_trans : ∀ {a b c}, edge a b → edge b c → edge a c
  newEdge_edge : ∀ {a b}, newEdge a → edge a b → newEdge b

/-- Old nodes and edges are kept and related, new ones are admitted, edges stay
in place and fresh edges come last, the claim index only grows, and
well-formedness is kept. -/
structure Evolves (F : Frame) (g h : EntityGraph) : Prop where
  nodes : ∀ n d, g.nodes.get? n = some d → ∃ d', h.nodes.get? n = some d' ∧ F.node d d'
  newNodes : ∀ n d, g.nodes.get? n = none → h.nodes.get? n = some d → F.newNode d
  edges : Grows F.edge F.newEdge g.edges h.edges
  index : g.claimIds ⊆ h.claimIds
  wellFormed : WellFormed g → WellFormed h

namespace Evolves
variable {F : Frame} {g h k : EntityGraph}

theorem refl (F : Frame) (g : EntityGraph) : Evolves F g g where
  nodes := fun _ d hd => ⟨d, hd, F.node_refl d⟩
  newNodes := fun _ _ hn hs => by rw [hn] at hs; cases hs
  edges := Grows.refl F.edge_refl g.edges
  index := List.Subset.refl _
  wellFormed := id

theorem trans (a : Evolves F g h) (b : Evolves F h k) : Evolves F g k where
  nodes := by
    intro n d hd
    obtain ⟨d', hd', r⟩ := a.nodes n d hd
    obtain ⟨d'', hd'', r'⟩ := b.nodes n d' hd'
    exact ⟨d'', hd'', F.node_trans r r'⟩
  newNodes := by
    intro n d hn hd
    cases hm : h.nodes.get? n with
    | none => exact b.newNodes n d hm hd
    | some m =>
      obtain ⟨d', hd', r⟩ := b.nodes n m hm
      obtain rfl : d' = d := by rw [hd] at hd'; exact (Option.some.inj hd').symm
      exact F.newNode_node (a.newNodes n m hn hm) r
  edges := a.edges.trans b.edges (fun _ _ _ => F.edge_trans) (fun _ _ => F.newEdge_edge)
  index := List.Subset.trans a.index b.index
  wellFormed := b.wellFormed ∘ a.wellFormed

theorem setNode (n : NodeId) (d : EntityInstance) (hd : WellFormed g → d.nodeId = n)
    (hold : ∀ d₀, g.nodes.get? n = some d₀ → F.node d₀ d)
    (hnew : g.nodes.get? n = none → F.newNode d) :
    Evolves F g { g with nodes := g.nodes.set n d } where
  nodes := by
    intro m d₀ hd
    by_cases hm : n = m
    · subst hm
      exact ⟨d, by simp, hold d₀ hd⟩
    · exact ⟨d₀, by simpa [Dict.get?_set_of_ne _ _ hm] using hd, F.node_refl d₀⟩
  newNodes := by
    intro m d₀ hn hd
    by_cases hm : n = m
    · subst hm
      simp only [Dict.get?_set_self, Option.some.injEq] at hd
      exact hd ▸ hnew hn
    · rw [Dict.get?_set_of_ne _ _ hm, hn] at hd
      cases hd
  edges := Grows.refl F.edge_refl g.edges
  index := List.Subset.refl _
  wellFormed := fun hg => hg.setNode (hd hg)

theorem modifyNode (n : NodeId) (f : EntityInstance → EntityInstance)
    (hid : ∀ d, (f d).nodeId = d.nodeId)
    (hf : ∀ d, g.nodes.get? n = some d → F.node d (f d)) : Evolves F g (g.modifyNode n f) := by
  unfold EntityGraph.modifyNode
  split
  · exact Evolves.refl F g
  · rename_i d hd
    apply Evolves.setNode n (f d)
    · intro hg
      rw [hid]
      exact hg.keyed n d hd
    · intro d₀ h₀
      rw [hd] at h₀
      exact (Option.some.inj h₀) ▸ hf d hd
    · intro hn
      rw [hd] at hn
      cases hn

theorem ensureNode (t i : String) (hnew : F.newNode { entityType := t, entityId := i }) :
    Evolves F g (g.ensureNode t i) := by
  unfold EntityGraph.ensureNode
  split
  · exact Evolves.refl F g
  · rename_i hn
    apply Evolves.setNode (makeNodeId t i)
    · exact fun _ => rfl
    · intro d₀ h₀
      rw [hn] at h₀
      cases h₀
    · exact fun _ => hnew

theorem modifyEdge (a b c d r : String) (key : Option Nat) (f : EdgeData → EdgeData)
    (hc : ∀ e, (f e).claimId = e.claimId) (hk : ∀ e, (f e).key = e.key)
    (hf : ∀ e, g.findRelationshipEdge a b c d r key = some e → F.edge e (f e)) :
    Evolves F g (g.modifyEdge a b c d r key f) where
  nodes := fun _ d hd => ⟨d, hd, F.node_refl d⟩
  newNodes := fun _ _ hn hs => by
    change g.nodes.get? _ = _ at hs
    rw [hn] at hs
    cases hs
  edges := Grows.modifyFirst F.edge_refl _ f g.edges hf
  index := List.Subset.refl _
  wellFormed := fun hg => hg.modifyEdge a b c d r key hc hk

end Evolves

end Cruxible.Graph
