import Cruxible.Graph
import Mathlib.Data.List.Sort
import Mathlib.Data.String.Basic

/-!
# Edges at a node

The edges that leave and enter a node, in the order in which the graph library
lists them: grouped by the node at the other end, groups and members in the order
of insertion. Reads order edges and nodes by tuples of texts and numbers, which
compare position by position.
-/
namespace Cruxible.Neighbors
open JsonValue PythonDict AssertionState Cruxible.Graph

/-- One position of a sort key. A tuple inside a tuple is written out in place and
closed by `stop`, so that a proper prefix of it comes first. -/
inductive Part where
  | stop
  | text (s : String)
  | number (n : Nat)
  deriving DecidableEq, Repr

/-- Comparison of tuples; a proper prefix comes first. -/
def lexLe : List Part → List Part → Bool
  | [], _ => true
  | _ :: _, [] => false
  | .stop :: xs, .stop :: ys => lexLe xs ys
  | .stop :: _, _ :: _ => true
  | _ :: _, .stop :: _ => false
  | .text a :: xs, .text b :: ys => if a = b then lexLe xs ys else decide (a < b)
  | .number a :: xs, .number b :: ys => if a = b then lexLe xs ys else decide (a < b)
  | .text _ :: _, .number _ :: _ => true
  | .number _ :: _, .text _ :: _ => false

/-- `sorted(items, key=key)`, which keeps the order of equal keys. -/
def sortedBy {α : Type} (key : α → List Part) (items : List α) : List α :=
  items.insertionSort fun a b => lexLe (key a) (key b) = true

theorem sortedBy_perm {α : Type} (key : α → List Part) (items : List α) :
    (sortedBy key items).Perm items :=
  List.perm_insertionSort _ _

inductive Direction where
  | outgoing
  | incoming
  | both
  deriving DecidableEq, Repr

/-- Edges grouped by their other end, in the order of first appearance. -/
def groupedBy (far : EdgeData → NodeId) (edges : List EdgeData) : List EdgeData :=
  (edges.map far).eraseDups.flatMap fun n => edges.filter fun e => far e = n

theorem nodup_eraseDups {α : Type} [DecidableEq α] (xs : List α) : xs.eraseDups.Nodup := by
  induction hn : xs.length using Nat.strong_induction_on generalizing xs with
  | _ n ih =>
    cases xs with
    | nil => simp
    | cons x xs =>
      have hlen : (xs.filter fun y => !y == x).length < n := by
        have hle := List.length_filter_le (fun y => !y == x) xs
        simp only [List.length_cons] at hn
        omega
      rw [List.eraseDups_cons, List.nodup_cons]
      constructor
      · simp [List.mem_eraseDups]
      · exact ih _ hlen _ rfl

/-- Over distinct keys, the groups together are the members that have one of them. -/
theorem groups_perm (far : EdgeData → NodeId) (edges : List EdgeData) {ns : List NodeId}
    (hns : ns.Nodup) : (ns.flatMap fun n => edges.filter fun e => far e = n).Perm
      (edges.filter fun e => far e ∈ ns) := by
  induction ns with
  | nil => simp
  | cons n ns ih =>
    rw [List.nodup_cons] at hns
    have hsplit := List.filter_append_perm (fun e => decide (far e = n))
      (edges.filter fun e => far e ∈ n :: ns)
    have hhere : ((edges.filter fun e => far e ∈ n :: ns).filter fun e => far e = n) =
        edges.filter fun e => far e = n := by
      rw [List.filter_filter]
      congr 1
      funext e
      by_cases he : far e = n <;> simp [he]
    have hrest : ((edges.filter fun e => far e ∈ n :: ns).filter fun e => !decide (far e = n)) =
        edges.filter fun e => far e ∈ ns := by
      rw [List.filter_filter]
      congr 1
      funext e
      by_cases he : far e = n
      · simp [he, hns.1]
      · simp [he]
    rw [hhere, hrest] at hsplit
    exact ((ih hns.2).append_left _).trans hsplit

theorem groupedBy_perm (far : EdgeData → NodeId) (edges : List EdgeData) :
    (groupedBy far edges).Perm edges := by
  have hgroups := groups_perm far edges (nodup_eraseDups (edges.map far))
  have hall : (edges.filter fun e => far e ∈ (edges.map far).eraseDups) = edges := by
    rw [List.filter_eq_self]
    intro e he
    simpa [List.mem_eraseDups] using ⟨e, he, rfl⟩
  rw [hall] at hgroups
  exact hgroups

def outEdges (g : EntityGraph) (n : NodeId) : List EdgeData :=
  groupedBy EdgeData.toNode (g.edges.filter fun e => e.fromNode = n)

def inEdges (g : EntityGraph) (n : NodeId) : List EdgeData :=
  groupedBy EdgeData.fromNode (g.edges.filter fun e => e.toNode = n)

/-- A row of `get_neighbor_relationships`. -/
structure NeighborRow where
  outgoing : Bool
  edge : EdgeData
  entity : EntityInstance

/-- `get_neighbor_relationships`. A loop at the node is an outgoing edge; it is not
listed again among the incoming ones. -/
def getNeighborRelationships (g : EntityGraph) (entityType entityId : String)
    (relationshipType : Option String) (direction : Direction) : List NeighborRow :=
  let n := makeNodeId entityType entityId
  let matching := fun e : EdgeData => relationshipType.all fun r => e.relationshipType = r
  let out := if direction = .incoming then [] else (outEdges g n).filter matching
  let inc := if direction = .outgoing then []
    else (inEdges g n).filter fun e => matching e && !(direction = .both && e.fromNode = n)
  (out.filterMap fun e => (g.nodes.get? e.toNode).map fun d => ⟨true, e, d⟩) ++
    inc.filterMap fun e => (g.nodes.get? e.fromNode).map fun d => ⟨false, e, d⟩

theorem length_outEdges_le (g : EntityGraph) (n : NodeId) :
    (outEdges g n).length ≤ g.edges.length := by
  rw [outEdges, (groupedBy_perm _ _).length_eq]
  exact List.length_filter_le _ _

theorem length_inEdges_le (g : EntityGraph) (n : NodeId) :
    (inEdges g n).length ≤ g.edges.length := by
  rw [inEdges, (groupedBy_perm _ _).length_eq]
  exact List.length_filter_le _ _

theorem length_getNeighborRelationships_le (g : EntityGraph) (entityType entityId : String)
    (relationshipType : Option String) (direction : Direction) :
    (getNeighborRelationships g entityType entityId relationshipType direction).length ≤
      2 * g.edges.length := by
  have hout := length_outEdges_le g (makeNodeId entityType entityId)
  have hin := length_inEdges_le g (makeNodeId entityType entityId)
  have hsub : ∀ {b : Bool} {p : EdgeData → Bool} {f : EdgeData → Option NeighborRow}
      {es : List EdgeData}, es.length ≤ g.edges.length →
      ((if b = true then [] else es.filter p).filterMap f).length ≤ g.edges.length := by
    intro b p f es hes
    have hmap := List.length_filterMap_le f (if b = true then [] else es.filter p)
    have hfilter := List.length_filter_le p es
    cases b with
    | true => simp
    | false =>
      simp only [Bool.false_eq_true, if_false] at hmap ⊢
      omega
  simp only [getNeighborRelationships, List.length_append]
  have hleft := hsub (b := decide (direction = .incoming)) (p := fun e =>
    relationshipType.all fun r => e.relationshipType = r)
    (f := fun e => (g.nodes.get? e.toNode).map fun d => ⟨true, e, d⟩) hout
  have hright := hsub (b := decide (direction = .outgoing)) (p := fun e =>
    (relationshipType.all fun r => e.relationshipType = r) &&
      !(direction = .both && e.fromNode = makeNodeId entityType entityId))
    (f := fun e => (g.nodes.get? e.fromNode).map fun d => ⟨false, e, d⟩) hin
  simp only [decide_eq_true_eq] at hleft hright
  omega

end Cruxible.Neighbors
