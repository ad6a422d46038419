import Cruxible.BudgetedSearch
import Cruxible.Neighbors

/-!
# Bounded neighborhoods

`expand_neighborhood`: the entities and edges around a root, level by level, within
budgets. The reasons it gives for a partial result are exact, and without a budget reason
it returns every entity within the depth, at its least distance, and every edge at a
nearer one.
-/
namespace Cruxible.Neighborhoods
open JsonValue PythonDict AssertionState Cruxible.Graph Neighbors BudgetedSearch

structure NeighborhoodQuery where
  direction : Direction := .both
  relationshipTypes : Option (List String) := none
  targetTypes : Option (List String) := none
  edgeVisible : Option (RelationshipMetadata → Bool) := none

/-- A filter without types, as an absent one, lets everything pass. -/
def passes (types : Option (List String)) (t : String) : Bool :=
  types.all fun ts => ts.isEmpty || ts.contains t

def NeighborhoodQuery.visible (q : NeighborhoodQuery) (e : EdgeData) : Bool :=
  q.edgeVisible.all fun test => test e.metadata

inductive TruncationReason where
  | nodeBudget
  | edgeBudget
  | depth
  deriving DecidableEq, Repr

structure NeighborhoodExpansion where
  nodes : List (EntityInstance × Nat) := []
  edges : List RelationshipInstance := []
  truncated : Bool := false
  truncationReasons : List TruncationReason := []
  hiddenEdgeCount : Nat := 0

/-- The edges that the direction has at a node, each once. -/
def scanEdges (g : EntityGraph) (direction : Direction) (n : NodeId) : List EdgeData :=
  ((if direction = .incoming then [] else outEdges g n) ++
    if direction = .outgoing then [] else inEdges g n).eraseDups

def nodeParts (n : NodeId) : List Part :=
  [.text (splitNodeId n).1, .text (splitNodeId n).2]

/-- `_candidate_edges`. -/
def candidateEdges (g : EntityGraph) (q : NeighborhoodQuery) (n : NodeId) : List EdgeData :=
  sortedBy (fun e => .text e.relationshipType :: nodeParts e.toNode ++ nodeParts e.fromNode ++
      [.number e.key])
    ((scanEdges g q.direction n).filter fun e =>
      passes q.relationshipTypes e.relationshipType && q.visible e)

/-- The edges that only `edge_visible` keeps from being candidates. -/
def hiddenEdges (g : EntityGraph) (q : NeighborhoodQuery) (n : NodeId) : List EdgeData :=
  (scanEdges g q.direction n).filter fun e =>
    passes q.relationshipTypes e.relationshipType && !q.visible e

/-- `target if source == node_id else source`. -/
def other (n : NodeId) (e : EdgeData) : NodeId := if e.fromNode = n then e.toNode else e.fromNode

/-- The entity is there and `target_types` has its type. -/
def admits (g : EntityGraph) (q : NeighborhoodQuery) (n : NodeId) : Bool :=
  (g.getEntity (splitNodeId n).1 (splitNodeId n).2).any fun d => passes q.targetTypes d.entityType

def Touches (direction : Direction) (n : NodeId) (e : EdgeData) : Prop :=
  direction ≠ .incoming ∧ e.fromNode = n ∨ direction ≠ .outgoing ∧ e.toNode = n

variable {e : EdgeData} {g : EntityGraph} {n : NodeId}

theorem mem_scanEdges {direction : Direction} :
    e ∈ scanEdges g direction n ↔ e ∈ g.edges ∧ Touches direction n e := by
  have hout : e ∈ outEdges g n ↔ e ∈ g.edges ∧ e.fromNode = n := by
    rw [outEdges, (groupedBy_perm _ _).mem_iff, List.mem_filter, decide_eq_true_eq]
  have hin : e ∈ inEdges g n ↔ e ∈ g.edges ∧ e.toNode = n := by
    rw [inEdges, (groupedBy_perm _ _).mem_iff, List.mem_filter, decide_eq_true_eq]
  unfold scanEdges Touches
  rw [List.mem_eraseDups, List.mem_append]
  cases direction <;> simp [hout, hin, and_or_left]

/-- A visible edge that passes the filters of the query, at a node. -/
def Candidate (g : EntityGraph) (q : NeighborhoodQuery) (n : NodeId) (e : EdgeData) : Prop :=
  e ∈ g.edges ∧ Touches q.direction n e ∧ passes q.relationshipTypes e.relationshipType = true ∧
    q.visible e = true

/-- An edge that would be a candidate if it were visible. -/
def Hidden (g : EntityGraph) (q : NeighborhoodQuery) (n : NodeId) (e : EdgeData) : Prop :=
  e ∈ g.edges ∧ Touches q.direction n e ∧ passes q.relationshipTypes e.relationshipType = true ∧
    q.visible e = false

variable {q : NeighborhoodQuery}

theorem mem_candidateEdges : e ∈ candidateEdges g q n ↔ Candidate g q n e := by
  rw [candidateEdges, (sortedBy_perm _ _).mem_iff, List.mem_filter, mem_scanEdges, Bool.and_eq_true]
  exact and_assoc

theorem mem_hiddenEdges : e ∈ hiddenEdges g q n ↔ Hidden g q n e := by
  rw [hiddenEdges, List.mem_filter, mem_scanEdges, Bool.and_eq_true, Bool.not_eq_true']
  exact and_assoc

theorem other_of_touches {d : Direction} {m : NodeId} (hn : Touches d n e) (hm : Touches d m e) :
    other m e = n ∨ other m e = other n e := by
  have hends : ∀ {x}, Touches d x e → e.fromNode = x ∨ e.toNode = x := by
    intro x h
    rcases h with ⟨_, h⟩ | ⟨_, h⟩
    · exact .inl h
    · exact .inr h
  unfold other
  rcases hends hn with h | h
  · rcases hends hm with h' | h'
    · simp [← h, ← h']
    · subst h'
      by_cases hloop : e.fromNode = e.toNode
      · simp [hloop, ← h]
      · simp [hloop, ← h]
  · rcases hends hm with h' | h'
    · simp [← h, ← h']
    · simp [← h, ← h']

/-- No two edges of a graph have one id, so that an edge stands for its id. -/
def searchOf (g : EntityGraph) (q : NeighborhoodQuery) (root : NodeId) : Search NodeId EdgeData where
  root := root
  candidates := candidateEdges g q
  barred := hiddenEdges g q
  far := other
  admits := admits g q
  arrange := sortedBy nodeParts
  arrange_perm := sortedBy_perm nodeParts
  ends he hm := other_of_touches (mem_candidateEdges.mp he).2.1 (mem_candidateEdges.mp hm).2.1

/-- Whether a node at the depth has an edge that was left behind. -/
def clipped (s : Search NodeId EdgeData) (depth : Nat) (t : State NodeId EdgeData) : Bool :=
  (((s.root, 0) :: t.returned).filter fun p => p.2 = depth).any fun p =>
    (s.candidates p.1).any fun e =>
      decide (e ∉ t.collected) && (decide (s.far p.1 e ∈ s.known t) || s.admits (s.far p.1 e))

/-- `_edge_payload`. -/
def edgePayload (e : EdgeData) : RelationshipInstance :=
  { relationshipType := e.relationshipType
    fromType := (splitNodeId e.fromNode).1, fromId := (splitNodeId e.fromNode).2
    toType := (splitNodeId e.toNode).1, toId := (splitNodeId e.toNode).2
    edgeKey := some e.key, claimId := some e.claimId
    properties := e.properties, metadata := e.metadata }

def edgeParts (e : EdgeData) : List Part :=
  .text e.relationshipType :: nodeParts e.fromNode ++ nodeParts e.toNode ++ [.number e.key]

/-- `expand_neighborhood`. -/
def expandNeighborhood (g : EntityGraph) (entityType entityId : String) (q : NeighborhoodQuery)
    (depth : Nat) (budgets : Budgets) : NeighborhoodExpansion :=
  let root := makeNodeId entityType entityId
  if (g.nodes.get? root).isNone then {}
  else
    let s := searchOf g q root
    let t := s.run budgets depth
    let reasons := (if t.nodeBudget then [TruncationReason.nodeBudget] else []) ++
      (if t.edgeBudget then [.edgeBudget] else []) ++ if clipped s depth t then [.depth] else []
    { nodes := sortedBy (fun p => [.number p.2, .text p.1.entityType, .text p.1.entityId])
        (t.returned.filterMap fun p =>
          (g.getEntity (splitNodeId p.1).1 (splitNodeId p.1).2).map fun d => (d, p.2))
      edges := (sortedBy edgeParts t.collected).map edgePayload
      truncated := !reasons.isEmpty
      truncationReasons := reasons
      hiddenEdgeCount := t.tallied.length }

/-- The entity is there, of a type that the query takes. -/
def Admitted (g : EntityGraph) (q : NeighborhoodQuery) (n : NodeId) : Prop :=
  ∃ d, g.nodes.get? n = some d ∧ passes q.targetTypes d.entityType = true

/-- The node is that many candidate edges away from the root. -/
inductive Reaches (g : EntityGraph) (q : NeighborhoodQuery) (root : NodeId) :
    NodeId → Nat → Prop where
  | root : (g.nodes.get? root).isSome → Reaches g q root root 0
  | step {n : NodeId} {k : Nat} {e : EdgeData} : Reaches g q root n k → Candidate g q n e →
      Admitted g q (other n e) → Reaches g q root (other n e) (k + 1)

def LeastDistance (g : EntityGraph) (q : NeighborhoodQuery) (root n : NodeId) (d : Nat) : Prop :=
  Reaches g q root n d ∧ ∀ k, k < d → ¬Reaches g q root n k

/-- The edge leads to the root or to an admitted entity. -/
def Leads (g : EntityGraph) (q : NeighborhoodQuery) (root n : NodeId) (e : EdgeData) : Prop :=
  other n e = root ∨ Admitted g q (other n e)

/-- The edge is of the kind at a node nearer to the root than the depth. -/
def AtNearer (g : EntityGraph) (q : NeighborhoodQuery) (root : NodeId) (depth : Nat)
    (kind : NodeId → EdgeData → Prop) (e : EdgeData) : Prop :=
  ∃ n d, d < depth ∧ LeastDistance g q root n d ∧ kind n e ∧ Leads g q root n e

section
variable {g : EntityGraph} {q : NeighborhoodQuery} {root n : NodeId}

theorem getEntity_splitNodeId (g : EntityGraph) (n : NodeId) :
    g.getEntity (splitNodeId n).1 (splitNodeId n).2 = g.nodes.get? n := by
  rw [EntityGraph.getEntity, makeNodeId_splitNodeId]

theorem admits_iff : admits g q n = true ↔ Admitted g q n := by
  rw [admits, getEntity_splitNodeId, Option.any_eq_true]
  rfl

theorem walk_iff (hroot : (g.nodes.get? root).isSome) {k : Nat} :
    (searchOf g q root).Walk n k ↔ Reaches g q root n k := by
  constructor
  case mp =>
    intro h
    induction h with
    | root => exact .root hroot
    | step _ he hadmits ih => exact .step ih (mem_candidateEdges.mp he) (admits_iff.mp hadmits)
  case mpr =>
    intro h
    induction h with
    | root _ => exact .root
    | step _ he hadmits ih =>
      have hstep := Search.Walk.step ih (mem_candidateEdges.mpr he) (admits_iff.mpr hadmits)
      exact hstep

theorem least_iff (hroot : (g.nodes.get? root).isSome) {d : Nat} :
    (searchOf g q root).Least n d ↔ LeastDistance g q root n d := by
  unfold Search.Least LeastDistance
  simp only [walk_iff hroot]

variable {e : EdgeData}

theorem leads_iff : (searchOf g q root).Leads n e ↔ Leads g q root n e := by
  unfold Search.Leads Leads
  exact or_congr_right admits_iff

variable {depth : Nat}

theorem near_iff (hroot : (g.nodes.get? root).isSome) {P : NodeId → Prop} :
    (∃ n d, d < depth ∧ (searchOf g q root).Walk n d ∧ P n) ↔
      ∃ n d, d < depth ∧ LeastDistance g q root n d ∧ P n := by
  constructor
  case mp =>
    intro ⟨n, d, hd, hwalk, hP⟩
    have ⟨d', hd', hleast⟩ := hwalk.least
    exact ⟨n, d', by omega, (least_iff hroot).mp hleast, hP⟩
  case mpr =>
    intro ⟨n, d, hd, hleast, hP⟩
    exact ⟨n, d, hd, ((least_iff hroot).mpr hleast).1, hP⟩

theorem within_iff (hroot : (g.nodes.get? root).isSome) :
    (searchOf g q root).Within depth e ↔ AtNearer g q root depth (Candidate g q) e := by
  unfold Search.Within AtNearer
  rw [near_iff hroot]
  simp only [searchOf, mem_candidateEdges, ← leads_iff]

theorem barredWithin_iff (hroot : (g.nodes.get? root).isSome) :
    (searchOf g q root).BarredWithin depth e ↔ AtNearer g q root depth (Hidden g q) e := by
  unfold Search.BarredWithin AtNearer
  rw [near_iff hroot]
  simp only [searchOf, mem_hiddenEdges, ← leads_iff]

end

theorem edgePayload_injective : Function.Injective edgePayload := by
  intro a b h
  simp only [edgePayload, RelationshipInstance.mk.injEq, Option.some.injEq] at h
  have ⟨hrel, hfromType, hfromId, htoType, htoId, hkey, hclaim, hproperties, hmetadata⟩ := h
  have hfrom : a.fromNode = b.fromNode := by
    rw [← makeNodeId_splitNodeId a.fromNode, hfromType, hfromId, makeNodeId_splitNodeId]
  have hto : a.toNode = b.toNode := by
    rw [← makeNodeId_splitNodeId a.toNode, htoType, htoId, makeNodeId_splitNodeId]
  cases a
  cases b
  simp_all

/-- A graph as the mutators leave it. -/
abbrev StoredGraph := { g : EntityGraph // WellFormed g }

section
variable (g : StoredGraph) {entityType entityId : String} (q : NeighborhoodQuery) (depth : Nat)
  (b : Budgets)

/-- The state in which the search from the root ends. -/
def endState (root : NodeId) : State NodeId EdgeData := (searchOf g.val q root).run b depth

theorem endState_sound (root : NodeId) :
    Search.Sound (searchOf g.val q root) b depth (endState g q depth b root) :=
  (Search.run_sound (searchOf g.val q root) b (Nat.le_refl depth)).1

variable {g q depth b}

variable {k : Nat} {root : NodeId} {returned : List (NodeId × Nat)}

theorem entity_of_returned (h : (n, k) ∈ (endState g q depth b root).returned) :
    ∃ d, g.val.nodes.get? n = some d ∧ d.nodeId = n := by
  have hsound := endState_sound g q depth b root
  have hne : n ≠ root := by
    intro heq
    exact (List.nodup_cons.mp hsound.distinct).1 (List.mem_map.mpr ⟨(n, k), h, heq⟩)
  rcases Search.admits_of_walk (hsound.walks _ h).1 with heq | hadmits
  · exact absurd heq hne
  · have ⟨d, hd, _⟩ := admits_iff.mp hadmits
    exact ⟨d, hd, g.property.keyed n d hd⟩

/-- The rows of `nodes` before they are sorted. -/
def entityRows (g : EntityGraph) (returned : List (NodeId × Nat)) : List (EntityInstance × Nat) :=
  returned.filterMap fun p =>
    (g.getEntity (splitNodeId p.1).1 (splitNodeId p.1).2).map fun d => (d, p.2)

variable {d : EntityInstance}

theorem mem_entityRows :
    (d, k) ∈ entityRows g.val returned ↔
      (d.nodeId, k) ∈ returned ∧ g.val.nodes.get? d.nodeId = some d := by
  unfold entityRows
  rw [List.mem_filterMap]
  constructor
  case mp =>
    intro ⟨⟨n, k'⟩, hp, hrow⟩
    rw [getEntity_splitNodeId, Option.map_eq_some_iff] at hrow
    have ⟨d', hd, heq⟩ := hrow
    cases heq
    have hid := g.property.keyed n d hd
    rw [hid]
    exact ⟨hp, hd⟩
  case mpr =>
    intro ⟨hp, hd⟩
    refine ⟨(d.nodeId, k), hp, ?_⟩
    rw [getEntity_splitNodeId, hd, Option.map_some]

theorem entityRows_ids (h : ∀ p ∈ returned, ∃ d, g.val.nodes.get? p.1 = some d ∧ d.nodeId = p.1) :
    (entityRows g.val returned).map (fun p => p.1.nodeId) = returned.map Prod.fst := by
  induction returned with
  | nil => rfl
  | cons p returned ih =>
    have ⟨d, hd, hid⟩ := h p List.mem_cons_self
    have hrow : (g.val.getEntity (splitNodeId p.1).1 (splitNodeId p.1).2).map
        (fun d => (d, p.2)) = some (d, p.2) := by
      rw [getEntity_splitNodeId, hd, Option.map_some]
    have hrest := ih fun p' hp' => h p' (List.mem_cons_of_mem p hp')
    unfold entityRows at hrest ⊢
    rw [List.filterMap_cons, hrow, List.map_cons, List.map_cons, hrest, hid]

theorem not_isNone {α : Type} {o : Option α} (h : o.isSome) : ¬o.isNone = true := by
  cases o with
  | none => cases h
  | some a => nofun
variable (hroot : (g.val.nodes.get? (makeNodeId entityType entityId)).isSome)

section
include hroot

theorem nodes_perm :
    (expandNeighborhood g.val entityType entityId q depth b).nodes.Perm
      (entityRows g.val (endState g q depth b (makeNodeId entityType entityId)).returned) := by
  unfold expandNeighborhood
  rw [if_neg (not_isNone hroot)]
  exact sortedBy_perm _ _

theorem edges_perm :
    (expandNeighborhood g.val entityType entityId q depth b).edges.Perm
      ((endState g q depth b (makeNodeId entityType entityId)).collected.map edgePayload) := by
  unfold expandNeighborhood
  rw [if_neg (not_isNone hroot)]
  exact (sortedBy_perm edgeParts _).map edgePayload

theorem hiddenEdgeCount_eq :
    (expandNeighborhood g.val entityType entityId q depth b).hiddenEdgeCount =
      (endState g q depth b (makeNodeId entityType entityId)).tallied.length := by
  unfold expandNeighborhood
  rw [if_neg (not_isNone hroot)]
  rfl

theorem mem_reasons (r : TruncationReason) :
    r ∈ (expandNeighborhood g.val entityType entityId q depth b).truncationReasons ↔
      match r with
      | .nodeBudget => (endState g q depth b (makeNodeId entityType entityId)).nodeBudget = true
      | .edgeBudget => (endState g q depth b (makeNodeId entityType entityId)).edgeBudget = true
      | .depth => clipped (searchOf g.val q (makeNodeId entityType entityId)) depth
          (endState g q depth b (makeNodeId entityType entityId)) = true := by
  unfold expandNeighborhood
  rw [if_neg (not_isNone hroot)]
  change r ∈ (if (endState g q depth b (makeNodeId entityType entityId)).nodeBudget then
      [TruncationReason.nodeBudget] else []) ++
    (if (endState g q depth b (makeNodeId entityType entityId)).edgeBudget then
      [.edgeBudget] else []) ++
    (if clipped (searchOf g.val q (makeNodeId entityType entityId)) depth
      (endState g q depth b (makeNodeId entityType entityId)) then [.depth] else []) ↔ _
  rw [List.mem_append, List.mem_append]
  cases r <;> split_ifs <;> simp_all

theorem mem_nodes :
    (d, k) ∈ (expandNeighborhood g.val entityType entityId q depth b).nodes ↔
      (d.nodeId, k) ∈ (endState g q depth b (makeNodeId entityType entityId)).returned ∧
        g.val.nodes.get? d.nodeId = some d := by
  rw [(nodes_perm hroot).mem_iff, mem_entityRows]

theorem mem_edges :
    edgePayload e ∈ (expandNeighborhood g.val entityType entityId q depth b).edges ↔
      e ∈ (endState g q depth b (makeNodeId entityType entityId)).collected := by
  rw [(edges_perm hroot).mem_iff, List.mem_map_of_injective edgePayload_injective]

end

theorem expandNeighborhood_of_missing
    (hroot : ¬(g.val.nodes.get? (makeNodeId entityType entityId)).isSome) :
    expandNeighborhood g.val entityType entityId q depth b = {} := by
  unfold expandNeighborhood
  rw [if_pos]
  simpa using hroot

theorem not_reaches_of_missing (hroot : ¬(g.val.nodes.get? root).isSome) :
    ¬Reaches g.val q root n k := by
  intro h
  induction h with
  | root h => exact hroot h
  | step _ _ _ ih => exact ih

/-- Everything within the depth is there, once, and the hidden edges are counted. -/
structure Whole (g : StoredGraph) (q : NeighborhoodQuery) (root : NodeId) (depth : Nat)
    (x : NeighborhoodExpansion) : Prop where
  nodes : ∀ d k, (d, k) ∈ x.nodes ↔ g.val.nodes.get? d.nodeId = some d ∧ d.nodeId ≠ root ∧
    k ≤ depth ∧ LeastDistance g.val q root d.nodeId k
  nodesOnce : (x.nodes.map fun p => p.1.nodeId).Nodup
  edges : ∀ r, r ∈ x.edges ↔
    ∃ e, r = edgePayload e ∧ AtNearer g.val q root depth (Candidate g.val q) e
  edgesOnce : x.edges.Nodup
  hidden : ∃ hidden : List EdgeData, hidden.Nodup ∧
    (∀ e, e ∈ hidden ↔ AtNearer g.val q root depth (Hidden g.val q) e) ∧
      x.hiddenEdgeCount = hidden.length

theorem whole_of_missing (hroot : ¬(g.val.nodes.get? root).isSome) : Whole g q root depth {} := by
  have hnear : ∀ {kind : NodeId → EdgeData → Prop} {e}, ¬AtNearer g.val q root depth kind e := by
    intro kind e ⟨n, d, _, hleast, _⟩
    exact not_reaches_of_missing hroot hleast.1
  constructor
  case nodes =>
    intro d k
    constructor
    · nofun
    · intro ⟨_, _, _, hleast⟩
      exact absurd hleast.1 (not_reaches_of_missing hroot)
  case nodesOnce => exact List.nodup_nil
  case edges =>
    intro r
    constructor
    · nofun
    · intro ⟨e, _, h⟩
      exact absurd h hnear
  case edgesOnce => exact List.nodup_nil
  case hidden => exact ⟨[], List.nodup_nil, fun e => ⟨nofun, fun h => absurd h hnear⟩, rfl⟩
include hroot in
theorem whole_of_untripped
    (h : Search.Untripped (endState g q depth b (makeNodeId entityType entityId))) :
    Whole g q (makeNodeId entityType entityId) depth
      (expandNeighborhood g.val entityType entityId q depth b) := by
  have hsound := endState_sound g q depth b (makeNodeId entityType entityId)
  constructor
  case nodes =>
    intro d k
    rw [mem_nodes hroot, endState, Search.returned_iff h, least_iff hroot]
    constructor
    · intro ⟨⟨hne, hk, hleast⟩, hd⟩
      exact ⟨hd, hne, hk, hleast⟩
    · intro ⟨hd, hne, hk, hleast⟩
      exact ⟨⟨hne, hk, hleast⟩, hd⟩
  case nodesOnce =>
    rw [((nodes_perm hroot).map _).nodup_iff, entityRows_ids fun p hp => entity_of_returned hp]
    exact (List.nodup_cons.mp hsound.distinct).2
  case edges =>
    intro r
    rw [(edges_perm hroot).mem_iff, List.mem_map]
    constructor
    · intro ⟨e, he, heq⟩
      exact ⟨e, heq.symm, (within_iff hroot).mp ((Search.collected_iff h).mp he)⟩
    · intro ⟨e, heq, he⟩
      exact ⟨e, (Search.collected_iff h).mpr ((within_iff hroot).mpr he), heq.symm⟩
  case edgesOnce =>
    rw [(edges_perm hroot).nodup_iff]
    exact hsound.once.map edgePayload_injective
  case hidden =>
    refine ⟨_, hsound.barredOnce, ?_, hiddenEdgeCount_eq hroot⟩
    intro e
    rw [endState, Search.tallied_iff h, barredWithin_iff hroot]

/-- Budgets with room for all that the graph has. -/
def HasRoom (g : StoredGraph) (b : Budgets) : Prop :=
  g.val.nodes.keys.length ≤ b.maxNodes ∧ g.val.edges.length ≤ b.maxEdges

theorem untripped_of_hasRoom (h : HasRoom g b) (root : NodeId) :
    Search.Untripped (endState g q depth b root) := by
  have hnodes : ∀ n e, e ∈ candidateEdges g.val q n → admits g.val q (other n e) = true →
      other n e ∈ g.val.nodes.keys := by
    intro n e _ hadmits
    have ⟨d, hd, _⟩ := admits_iff.mp hadmits
    by_contra hmissing
    rw [Dict.get?_eq_none.mpr hmissing] at hd
    cases hd
  have hedges : ∀ n e, e ∈ candidateEdges g.val q n → e ∈ g.val.edges := by
    intro n e he
    exact (mem_candidateEdges.mp he).1
  exact Search.untripped_of_room hnodes hedges h.1 h.2

/-- An entity or an edge of the one expansion that the other is without. -/
def Omits (x whole : NeighborhoodExpansion) : Prop :=
  (∃ p ∈ whole.nodes, p ∉ x.nodes) ∨ ∃ e ∈ whole.edges, e ∉ x.edges
include hroot in
theorem omits_iff {room : Budgets} :
    Omits (expandNeighborhood g.val entityType entityId q depth b)
        (expandNeighborhood g.val entityType entityId q depth room) ↔
      (∃ p ∈ (endState g q depth room (makeNodeId entityType entityId)).returned,
          p ∉ (endState g q depth b (makeNodeId entityType entityId)).returned) ∨
        ∃ e ∈ (endState g q depth room (makeNodeId entityType entityId)).collected,
          e ∉ (endState g q depth b (makeNodeId entityType entityId)).collected := by
  unfold Omits
  apply or_congr
  · constructor
    · intro ⟨⟨d, k⟩, hp, hmissing⟩
      have ⟨hreturned, hd⟩ := (mem_nodes hroot).mp hp
      exact ⟨(d.nodeId, k), hreturned, fun h => hmissing ((mem_nodes hroot).mpr ⟨h, hd⟩)⟩
    · intro ⟨⟨n, k⟩, hp, hmissing⟩
      have ⟨d, hd, hid⟩ := entity_of_returned hp
      rw [← hid] at hp hmissing hd
      exact ⟨(d, k), (mem_nodes hroot).mpr ⟨hp, hd⟩, fun h => hmissing ((mem_nodes hroot).mp h).1⟩
  · constructor
    · intro ⟨r, hr, hmissing⟩
      have ⟨e, he, heq⟩ := List.mem_map.mp ((edges_perm hroot).mem_iff.mp hr)
      rw [← heq] at hmissing
      exact ⟨e, he, fun h => hmissing ((mem_edges hroot).mpr h)⟩
    · intro ⟨e, he, hmissing⟩
      exact ⟨edgePayload e, (mem_edges hroot).mpr he, fun h => hmissing ((mem_edges hroot).mp h)⟩

/-- An entity at the depth has an edge to the root, a returned or an admitted entity, and the
edge was not returned. -/
def EndsShort (g : StoredGraph) (q : NeighborhoodQuery) (root : NodeId) (depth : Nat)
    (x : NeighborhoodExpansion) : Prop :=
  ∃ d e, (d, depth) ∈ x.nodes ∧ Candidate g.val q d.nodeId e ∧
    (other d.nodeId e ∈ root :: x.nodes.map (fun p => p.1.nodeId) ∨
      Admitted g.val q (other d.nodeId e)) ∧ edgePayload e ∉ x.edges

section
include hroot

theorem clipped_iff (hdepth : 1 ≤ depth) :
    clipped (searchOf g.val q (makeNodeId entityType entityId)) depth
        (endState g q depth b (makeNodeId entityType entityId)) = true ↔
      EndsShort g q (makeNodeId entityType entityId) depth
        (expandNeighborhood g.val entityType entityId q depth b) := by
  have hknown : ∀ n, n ∈ (searchOf g.val q (makeNodeId entityType entityId)).known
        (endState g q depth b (makeNodeId entityType entityId)) ↔
      n ∈ makeNodeId entityType entityId ::
        (expandNeighborhood g.val entityType entityId q depth b).nodes.map
          (fun p => p.1.nodeId) := by
    intro n
    have hids : ((expandNeighborhood g.val entityType entityId q depth b).nodes.map
        fun p => p.1.nodeId).Perm _ := (nodes_perm hroot).map fun p => p.1.nodeId
    rw [entityRows_ids fun p hp => entity_of_returned hp] at hids
    rw [List.mem_cons, hids.mem_iff]
    exact List.mem_cons
  unfold clipped EndsShort
  simp only [List.any_eq_true, List.mem_filter, Bool.and_eq_true, Bool.or_eq_true,
    decide_eq_true_eq]
  constructor
  case mp =>
    intro ⟨⟨n, k⟩, ⟨hp, hlast⟩, e, he, hmissing, hopen⟩
    have hk : k = depth := hlast
    rw [hk] at hp
    rcases List.mem_cons.mp hp with hp | hp
    · cases hp
      omega
    · have ⟨d, hd, hid⟩ := entity_of_returned hp
      refine ⟨d, e, ?_, ?_, ?_, ?_⟩
      · rw [mem_nodes hroot, hid]
        exact ⟨hp, hd⟩
      · rw [hid]
        exact mem_candidateEdges.mp he
      · rw [hid, ← hknown, ← admits_iff]
        exact hopen
      · rw [mem_edges hroot]
        exact hmissing
  case mpr =>
    intro ⟨d, e, hd, he, hopen, hmissing⟩
    rw [← hknown, ← admits_iff] at hopen
    rw [mem_edges hroot] at hmissing
    exact ⟨(d.nodeId, depth), ⟨List.mem_cons_of_mem _ ((mem_nodes hroot).mp hd).1, rfl⟩, e,
      mem_candidateEdges.mpr he, hmissing, hopen⟩

theorem tripped_iff_reason :
    (.nodeBudget ∈ (expandNeighborhood g.val entityType entityId q depth b).truncationReasons ∨
      .edgeBudget ∈ (expandNeighborhood g.val entityType entityId q depth b).truncationReasons) ↔
        ¬Search.Untripped (endState g q depth b (makeNodeId entityType entityId)) := by
  rw [mem_reasons hroot, mem_reasons hroot, Search.Untripped]
  cases (endState g q depth b (makeNodeId entityType entityId)).nodeBudget <;>
    cases (endState g q depth b (makeNodeId entityType entityId)).edgeBudget <;> simp

end

end

/-- The reasons of a partial result are exact: a budget is one when the expansion without
budgets has more, the depth when it cut an edge off; without a budget all is there. -/
theorem truncation_is_exact (g : StoredGraph) (entityType entityId : String)
    (q : NeighborhoodQuery) (depth : Nat) (b : Budgets) :
    (∀ room, HasRoom g room →
      ((.nodeBudget ∈ (expandNeighborhood g.val entityType entityId q (depth + 1)
            b).truncationReasons ∨
          .edgeBudget ∈ (expandNeighborhood g.val entityType entityId q (depth + 1)
            b).truncationReasons) ↔
        Omits (expandNeighborhood g.val entityType entityId q (depth + 1) b)
          (expandNeighborhood g.val entityType entityId q (depth + 1) room))) ∧
    (.depth ∈ (expandNeighborhood g.val entityType entityId q (depth + 1) b).truncationReasons ↔
      EndsShort g q (makeNodeId entityType entityId) (depth + 1)
        (expandNeighborhood g.val entityType entityId q (depth + 1) b)) ∧
    (¬(.nodeBudget ∈ (expandNeighborhood g.val entityType entityId q (depth + 1)
            b).truncationReasons ∨
          .edgeBudget ∈ (expandNeighborhood g.val entityType entityId q (depth + 1)
            b).truncationReasons) →
      Whole g q (makeNodeId entityType entityId) (depth + 1)
        (expandNeighborhood g.val entityType entityId q (depth + 1) b)) := by
  by_cases hroot : (g.val.nodes.get? (makeNodeId entityType entityId)).isSome
  · refine ⟨?_, ?_, ?_⟩
    · intro room hroom
      rw [tripped_iff_reason hroot, omits_iff hroot]
      exact Search.tripped_iff (untripped_of_hasRoom hroom _)
    · rw [mem_reasons hroot]
      exact clipped_iff hroot (by omega)
    · intro hnone
      rw [tripped_iff_reason hroot, not_not] at hnone
      exact whole_of_untripped hroot hnone
  · refine ⟨?_, ?_, ?_⟩
    · intro room _
      rw [expandNeighborhood_of_missing hroot, expandNeighborhood_of_missing hroot]
      simp [Omits]
    · rw [expandNeighborhood_of_missing hroot]
      simp [EndsShort]
    · intro _
      rw [expandNeighborhood_of_missing hroot]
      exact whole_of_missing hroot

/-- What a result keeps to, however small the budgets are. -/
structure Faithful (g : StoredGraph) (q : NeighborhoodQuery) (root : NodeId) (depth : Nat)
    (b : Budgets) (x : NeighborhoodExpansion) : Prop where
  nodes : ∀ p ∈ x.nodes, g.val.nodes.get? p.1.nodeId = some p.1 ∧ p.1.nodeId ≠ root ∧
    p.2 ≤ depth ∧ LeastDistance g.val q root p.1.nodeId p.2
  nodesOnce : (x.nodes.map fun p => p.1.nodeId).Nodup
  edges : ∀ r ∈ x.edges, ∃ e, r = edgePayload e ∧
    AtNearer g.val q root depth (Candidate g.val q) e ∧ ∀ n, Candidate g.val q n e →
      other n e ∈ root :: x.nodes.map fun p => p.1.nodeId
  edgesOnce : x.edges.Nodup
  fits : x.nodes.length ≤ b.maxNodes ∧ x.edges.length ≤ b.maxEdges

/-- Within any budgets a result is sound and closed: its distances are least, its edges lead
from nearer nodes, each end at which an edge was not found is the root or returned. -/
theorem expansion_is_faithful (g : StoredGraph) (entityType entityId : String)
    (q : NeighborhoodQuery) (depth : Nat) (b : Budgets) :
    Faithful g q (makeNodeId entityType entityId) depth b
      (expandNeighborhood g.val entityType entityId q depth b) := by
  by_cases hroot : (g.val.nodes.get? (makeNodeId entityType entityId)).isSome
  · have hsound := endState_sound g q depth b (makeNodeId entityType entityId)
    have hfits : Search.Fits b (endState g q depth b (makeNodeId entityType entityId)) :=
      Search.run_fits _ b depth
    have hperm : ((expandNeighborhood g.val entityType entityId q depth b).nodes.map
        fun p => p.1.nodeId).Perm _ := (nodes_perm hroot).map fun p => p.1.nodeId
    rw [entityRows_ids fun p hp => entity_of_returned hp] at hperm
    constructor
    case nodes =>
      intro p hp
      obtain ⟨hreturned, hstored⟩ := (mem_nodes hroot).mp hp
      refine ⟨hstored, ?_, (hsound.walks _ hreturned).2,
        (least_iff hroot).mp (Search.run_least _ b depth _ hreturned)⟩
      intro heq
      exact (List.nodup_cons.mp hsound.distinct).1 (List.mem_map.mpr ⟨_, hreturned, heq⟩)
    case nodesOnce =>
      rw [hperm.nodup_iff]
      exact (List.nodup_cons.mp hsound.distinct).2
    case edges =>
      intro r hr
      obtain ⟨e, he, rfl⟩ := List.mem_map.mp ((edges_perm hroot).mem_iff.mp hr)
      refine ⟨e, rfl, (within_iff hroot).mp (hsound.edges e he), ?_⟩
      intro n hn
      rw [List.mem_cons, hperm.mem_iff, ← List.mem_cons]
      exact hsound.closed e he n (mem_candidateEdges.mpr hn)
    case edgesOnce =>
      rw [(edges_perm hroot).nodup_iff]
      exact hsound.once.map edgePayload_injective
    case fits =>
      have hnodes := hperm.length_eq
      rw [List.length_map, List.length_map] at hnodes
      have hedges : (expandNeighborhood g.val entityType entityId q depth b).edges.length = _ :=
        (edges_perm hroot).length_eq
      rw [List.length_map] at hedges
      exact ⟨hnodes.le.trans hfits.1, hedges.le.trans hfits.2⟩
  · rw [expandNeighborhood_of_missing hroot]
    refine ⟨?_, List.nodup_nil, ?_, List.nodup_nil, Nat.zero_le _, Nat.zero_le _⟩ <;> simp

end Cruxible.Neighborhoods
