import Cruxible.ComparisonStates
import Cruxible.GraphImages

/-!
# State diffs

`diff_edges` and `diff_entities` of `graph/diff.py`. Edges are matched by claim id
first; the others are grouped by their endpoints and type, equal digests cancel, and
what is left of a group is resolved or declared ambiguous. Entities are matched by
key, boundary stubs aside.
-/
namespace Cruxible.StateDiffs
open JsonValue PythonDict ComparisonStates
open GraphImages (EdgeKey IdentityKey makeNodeId splitNodeId)

structure StoredEntity where
  entityType : String
  entityId : String
  content : EntityContent

/-- An edge without a type is a malformed one. -/
structure StoredEdge where
  fromNode : String
  toNode : String
  key : EdgeKey
  relationshipType : String
  claimId : Option String
  content : EdgeContent

/-- Entities and edges in the order in which the graph iterates over them. -/
structure EntityGraph where
  entities : List StoredEntity
  edges : List StoredEdge

inductive OwnershipBasis where
  | unknown
  | pinned (ownedEntityTypes ownedRelationshipTypes : List String)

inductive OwnershipLabel where
  | upstream
  | localSide
  | crossBoundary
  | unknown
  deriving DecidableEq

def OwnershipBasis.isKnown : OwnershipBasis → Bool
  | .unknown => false
  | .pinned _ _ => true

structure GraphDiffSide where
  graph : EntityGraph
  ownership : OwnershipBasis
  claimIdentityMapDigest : Option String := none

def relationshipOwnership (basis : OwnershipBasis) (relationshipType fromType toType : String) :
    OwnershipLabel :=
  match basis with
  | .unknown => .unknown
  | .pinned entityTypes relationshipTypes =>
      if relationshipType ∈ relationshipTypes then .upstream
      else if fromType ∈ entityTypes ∨ toType ∈ entityTypes then .crossBoundary
      else .localSide

def entityOwnership (basis : OwnershipBasis) (entityType : String)
    (incidentRelationshipTypes : List String) : OwnershipLabel :=
  match basis with
  | .unknown => .unknown
  | .pinned entityTypes relationshipTypes =>
      let ownedSide := decide (entityType ∈ entityTypes)
      if incidentRelationshipTypes.any fun t => decide (t ∈ relationshipTypes) != ownedSide then
        .crossBoundary
      else if ownedSide then .upstream else .localSide

/-- `DIFF_BUCKET_NAMES`. -/
inductive Bucket where
  | added
  | removed
  | changed
  | ambiguous
  | identityConflict
  deriving DecidableEq

structure GraphDiffSelector where
  entityTypes : Option (List String) := none
  relationshipTypes : Option (List String) := none
  buckets : Option (List Bucket) := none
  changedOnly : Bool := false

namespace GraphDiffSelector

def wantsEntityType (s : GraphDiffSelector) (entityType : String) : Bool :=
  match s.entityTypes with
  | none => true
  | some types => decide (entityType ∈ types)

def wantsRelationshipType (s : GraphDiffSelector) (relationshipType : String) : Bool :=
  match s.relationshipTypes with
  | none => true
  | some types => decide (relationshipType ∈ types)

def wantsBucket (s : GraphDiffSelector) (bucket : Bucket) : Bool :=
  if s.changedOnly = true ∧ (bucket = .added ∨ bucket = .removed) then false
  else
    match s.buckets with
    | none => true
    | some buckets => decide (bucket ∈ buckets)

end GraphDiffSelector

/-- One tuple of `_iter_edges_raw`. -/
structure RawEdge where
  fromType : String
  fromId : String
  toType : String
  toId : String
  relationshipType : String
  key : EdgeKey
  claimId : Option String
  content : EdgeContent

def keyText : EdgeKey → String
  | .int k => toString k
  | .other label => "'" ++ label ++ "'"

def rawEdge (e : StoredEdge) : Except String RawEdge :=
  if e.relationshipType = "" then
    .error ("Graph edge '" ++ e.fromNode ++ "' -> '" ++ e.toNode ++ "' (key=" ++ keyText e.key ++
      ") is missing relationship_type")
  else
    match splitNodeId e.fromNode with
    | none => .error ("Invalid node_id: '" ++ e.fromNode ++ "'")
    | some source =>
        match splitNodeId e.toNode with
        | none => .error ("Invalid node_id: '" ++ e.toNode ++ "'")
        | some target =>
            .ok { fromType := source.1, fromId := source.2, toType := target.1,
                  toId := target.2, relationshipType := e.relationshipType, key := e.key,
                  claimId := e.claimId, content := e.content }

/-- `_iter_edges_raw`. -/
def iterEdgesRaw (g : EntityGraph) : Except String (List RawEdge) := g.edges.mapM rawEdge

structure EdgeRow where
  tupleKey : IdentityKey
  claimId : Option String
  edgeKey : EdgeKey
  ownership : OwnershipLabel
  state : EdgeState
  digest : String

structure EntityRow where
  key : String × String
  ownership : OwnershipLabel
  state : EntityState
  digest : String
  isStub : Bool

variable (hash : Value → String)

def edgeRow (basis : OwnershipBasis) (e : RawEdge) : EdgeRow where
  tupleKey := (e.relationshipType, e.fromType, e.fromId, e.toType, e.toId)
  claimId := e.claimId.filter (· ≠ "")
  edgeKey := e.key
  ownership := relationshipOwnership basis e.relationshipType e.fromType e.toType
  state := relationshipComparisonState e.content
  digest := stateDigest hash (relationshipComparisonState e.content).json

/-- `_edge_rows`. -/
def edgeRows (side : GraphDiffSide) (selector : GraphDiffSelector) :
    Except String (List EdgeRow) := do
  let edges ← iterEdgesRaw side.graph
  pure ((edges.filter fun e => selector.wantsRelationshipType e.relationshipType).map
    (edgeRow hash side.ownership))

/-- `_incident_relationship_types`, at one node. -/
def incidentRelationshipTypes (edges : List RawEdge) (node : String) : List String :=
  (edges.filter fun e => makeNodeId e.fromType e.fromId = node ∨ makeNodeId e.toType e.toId = node).map
    RawEdge.relationshipType

/-- `to_metadata_dict` is empty. -/
def EntityContent.undecorated (e : EntityContent) : Bool :=
  e.lifecycle.isNone && e.actorContext.isNone && e.extra.entries.isEmpty

def boundaryStub (side : GraphDiffSide) (edges : List RawEdge) (e : StoredEntity) : Bool :=
  let incident := incidentRelationshipTypes edges (makeNodeId e.entityType e.entityId)
  e.content.properties.entries.isEmpty && EntityContent.undecorated e.content &&
    !incident.isEmpty && decide (entityOwnership side.ownership e.entityType incident = .crossBoundary)

def boundaryStubKeys (side : GraphDiffSide) : Except String (List (String × String)) :=
  if side.ownership.isKnown then do
    let edges ← iterEdgesRaw side.graph
    pure ((side.graph.entities.filter (boundaryStub side edges)).map fun e =>
      (e.entityType, e.entityId))
  else pure []

def entityRow (basis : OwnershipBasis) (edges : List RawEdge) (stubs : List (String × String))
    (e : StoredEntity) : EntityRow where
  key := (e.entityType, e.entityId)
  ownership := entityOwnership basis e.entityType
    (incidentRelationshipTypes edges (makeNodeId e.entityType e.entityId))
  state := entityComparisonState e.content
  digest := stateDigest hash (entityComparisonState e.content).json
  isStub := decide ((e.entityType, e.entityId) ∈ stubs)

/-- `_entity_rows`. -/
def entityRows (side : GraphDiffSide) (selector : GraphDiffSelector)
    (stubs : List (String × String)) : Except String (Dict (String × String) EntityRow) := do
  let edges ← iterEdgesRaw side.graph
  pure (Dict.ofList ((side.graph.entities.filter fun e =>
    selector.wantsEntityType e.entityType).map fun e =>
      ((e.entityType, e.entityId), entityRow hash side.ownership edges stubs e)))

structure Counts where
  fromTotal : Nat := 0
  toTotal : Nat := 0
  unchanged : Nat := 0
  added : Nat := 0
  removed : Nat := 0
  changed : Nat := 0
  annotationOnly : Nat := 0
  ambiguousFrom : Nat := 0
  ambiguousTo : Nat := 0
  identityConflictFrom : Nat := 0
  identityConflictTo : Nat := 0
  excludedFrom : Nat := 0
  excludedTo : Nat := 0
  deriving DecidableEq

namespace Counts

def fromSum (c : Counts) : Nat :=
  c.unchanged + c.removed + c.changed + c.ambiguousFrom + c.identityConflictFrom + c.excludedFrom

def toSum (c : Counts) : Nat :=
  c.unchanged + c.added + c.changed + c.ambiguousTo + c.identityConflictTo + c.excludedTo

/-- The counts as Python prints their dictionary. -/
def text (c : Counts) : String :=
  let fields : List (String × Nat) := [("from_total", c.fromTotal), ("to_total", c.toTotal),
    ("unchanged", c.unchanged), ("added", c.added), ("removed", c.removed),
    ("changed", c.changed), ("annotation_only", c.annotationOnly),
    ("ambiguous_from", c.ambiguousFrom), ("ambiguous_to", c.ambiguousTo),
    ("identity_conflict_from", c.identityConflictFrom),
    ("identity_conflict_to", c.identityConflictTo), ("excluded_from", c.excludedFrom),
    ("excluded_to", c.excludedTo)]
  "\x7b" ++ ", ".intercalate (fields.map fun f => "'" ++ f.1 ++ "': " ++ toString f.2) ++ "\x7d"

/-- `assert_partition`. -/
def assertPartition (c : Counts) : Except String Unit :=
  if c.fromSum ≠ c.fromTotal ∨ c.toSum ≠ c.toTotal then
    .error ("State diff bucket partition broken: from " ++ toString c.fromSum ++ " != " ++
      toString c.fromTotal ++ ", to " ++ toString c.toSum ++ " != " ++ toString c.toTotal ++
      " (" ++ c.text ++ ")")
  else .ok ()

end Counts

/-- `_edge_side_summary`. -/
structure EdgeSideSummary where
  claimId : Option String
  ownership : OwnershipLabel
  state : EdgeState
  stateDigest : String
  diagnosticEdgeKey : EdgeKey

structure EdgePresentItem extends EdgeSideSummary where
  identity : IdentityKey

structure EntityPresentItem where
  identity : String × String
  ownership : OwnershipLabel
  state : EntityState
  stateDigest : String

inductive IdentityBasis where
  | claimId
  | tuple
  | entityKey
  deriving DecidableEq

structure EdgeChangedItem where
  identity : IdentityKey
  identityBasis : IdentityBasis
  reidentified : Bool
  fromClaimId : Option String
  toClaimId : Option String
  fromOwnership : OwnershipLabel
  toOwnership : OwnershipLabel
  fromStateDigest : String
  toStateDigest : String
  fromEdgeKey : EdgeKey
  toEdgeKey : EdgeKey
  body : ChangeBody

structure EntityChangedItem where
  identity : String × String
  identityBasis : IdentityBasis
  fromOwnership : OwnershipLabel
  toOwnership : OwnershipLabel
  fromStateDigest : String
  toStateDigest : String
  body : ChangeBody

structure AmbiguousItem where
  identity : IdentityKey
  countFrom : Nat
  countTo : Nat
  fromItems : List EdgeSideSummary
  toItems : List EdgeSideSummary

inductive ConflictKind where
  | duplicateWithinSide
  | crossBucket
  deriving DecidableEq

structure ConflictItem where
  claimId : String
  kind : ConflictKind
  countFrom : Nat
  countTo : Nat
  fromItems : List EdgePresentItem
  toItems : List EdgePresentItem

structure Asymmetry where
  entityKey : String × String
  stubIsFrom : Bool

/-- Stub detection does not apply to edges. -/
inductive Diagnostics where
  | edges
  | entities (stubDetection : Bool) (excludedFrom excludedTo : Nat) (asymmetry : List Asymmetry)

structure SectionDiff (Present Changed : Type) where
  counts : Counts := {}
  added : List Present := []
  removed : List Present := []
  changed : List Changed := []
  ambiguous : List AmbiguousItem := []
  identityConflict : List ConflictItem := []
  diagnostics : Diagnostics := .edges

abbrev EdgeSection := SectionDiff EdgePresentItem EdgeChangedItem

abbrev EntitySection := SectionDiff EntityPresentItem EntityChangedItem

/-- `apply_selector_to_section`: the counts stay whole. -/
def applySelector {P C : Type} (section' : SectionDiff P C) (selector : GraphDiffSelector) :
    SectionDiff P C :=
  { section' with
    added := if selector.wantsBucket .added then section'.added else []
    removed := if selector.wantsBucket .removed then section'.removed else []
    changed := if selector.wantsBucket .changed then section'.changed else []
    ambiguous := if selector.wantsBucket .ambiguous then section'.ambiguous else []
    identityConflict :=
      if selector.wantsBucket .identityConflict then section'.identityConflict else [] }

/-- A tuple of strings as its members, which Python compares one after the other. -/
def tupleTexts (k : IdentityKey) : List String := [k.1, k.2.1, k.2.2.1, k.2.2.2.1, k.2.2.2.2]

def pairTexts (k : String × String) : List String := [k.1, k.2]

/-- `sorted(xs, key=…)` with a key of texts. -/
def sortedBy {α : Type} (key : α → List String) (xs : List α) : List α :=
  xs.mergeSort fun a b => decide (key a ≤ key b)

/-- `_item_sort_key` of an edge's item; it has no entity. -/
def edgeSortKey (identity : IdentityKey) (digest : String) : List String :=
  tupleTexts identity ++ ["", "", digest]

def entitySortKey (identity : String × String) (digest : String) : List String :=
  ["", "", "", "", ""] ++ pairTexts identity ++ [digest]

/-- `_content_ordered`. -/
def contentOrdered (rows : List EdgeRow) : List EdgeRow :=
  sortedBy (fun r => tupleTexts r.tupleKey ++ [r.digest]) rows

def digestOrdered (rows : List EdgeRow) : List EdgeRow := sortedBy (fun r => [r.digest]) rows

def edgeSideSummary (r : EdgeRow) : EdgeSideSummary where
  claimId := r.claimId
  ownership := r.ownership
  state := r.state
  stateDigest := r.digest
  diagnosticEdgeKey := r.edgeKey

def edgePresentItem (r : EdgeRow) : EdgePresentItem where
  toEdgeSideSummary := edgeSideSummary r
  identity := r.tupleKey

def edgeChangedItem (r s : EdgeRow) (identityBasis : IdentityBasis) (reidentified : Bool) :
    EdgeChangedItem where
  identity := s.tupleKey
  identityBasis := identityBasis
  reidentified := reidentified
  fromClaimId := r.claimId
  toClaimId := s.claimId
  fromOwnership := r.ownership
  toOwnership := s.ownership
  fromStateDigest := r.digest
  toStateDigest := s.digest
  fromEdgeKey := r.edgeKey
  toEdgeKey := s.edgeKey
  body := changedChannels r.state.parts s.state.parts true

def appendChangedEdge (result : EdgeSection) (r s : EdgeRow) (identityBasis : IdentityBasis)
    (reidentified : Bool) : EdgeSection :=
  let item := edgeChangedItem r s identityBasis reidentified
  { result with
    counts := { result.counts with
      changed := result.counts.changed + 1
      annotationOnly := result.counts.annotationOnly + if item.body.annotationOnly then 1 else 0 }
    changed := result.changed ++ [item] }

/-- `_append_ambiguous`, for residuals that are not both empty. -/
def appendAmbiguous (result : EdgeSection) (identity : IdentityKey)
    (residualFrom residualTo : List EdgeRow) : EdgeSection :=
  { result with
    counts := { result.counts with
      ambiguousFrom := result.counts.ambiguousFrom + residualFrom.length
      ambiguousTo := result.counts.ambiguousTo + residualTo.length }
    ambiguous := result.ambiguous ++ [{
      identity := identity
      countFrom := residualFrom.length
      countTo := residualTo.length
      fromItems := residualFrom.map edgeSideSummary
      toItems := residualTo.map edgeSideSummary }] }

def appendConflict (result : EdgeSection) (claimId : String) (kind : ConflictKind)
    (conflictFrom conflictTo : List EdgeRow) : EdgeSection :=
  { result with
    counts := { result.counts with
      identityConflictFrom := result.counts.identityConflictFrom + conflictFrom.length
      identityConflictTo := result.counts.identityConflictTo + conflictTo.length }
    identityConflict := result.identityConflict ++ [{
      claimId := claimId
      kind := kind
      countFrom := conflictFrom.length
      countTo := conflictTo.length
      fromItems := (contentOrdered conflictFrom).map edgePresentItem
      toItems := (contentOrdered conflictTo).map edgePresentItem }] }

/-- The rows of a claim id with their positions, as `_index_by_claim_id` keeps them. -/
def rowsOfClaim (rows : List EdgeRow) (c : String) : List (EdgeRow × Nat) :=
  rows.zipIdx.filter fun r => r.1.claimId = some c

def claimIdsOf (rows : List EdgeRow) : List String := (rows.filterMap EdgeRow.claimId).dedup

def duplicatedIds (fromRows toRows : List EdgeRow) : List String :=
  ((claimIdsOf fromRows).filter fun c => 1 < (rowsOfClaim fromRows c).length) ++
    (claimIdsOf toRows).filter fun c => 1 < (rowsOfClaim toRows c).length

/-- `sorted(duplicated_ids | (set(from_by_claim) & set(to_by_claim)))`. -/
def sweptIds (fromRows toRows : List EdgeRow) : List String :=
  (duplicatedIds fromRows toRows ++
    (claimIdsOf fromRows).filter fun c => c ∈ claimIdsOf toRows).dedup.mergeSort

structure Sweep where
  result : EdgeSection
  consumedFrom : List Nat := []
  consumedTo : List Nat := []
  matched : List (EdgeRow × EdgeRow) := []

/-- One turn of the sweep over claim ids. -/
def sweepClaim (fromRows toRows : List EdgeRow) (s : Sweep) (c : String) : Sweep :=
  let conflictFrom := rowsOfClaim fromRows c
  let conflictTo := rowsOfClaim toRows c
  if c ∈ duplicatedIds fromRows toRows then
    { s with
      consumedFrom := s.consumedFrom ++ conflictFrom.map Prod.snd
      consumedTo := s.consumedTo ++ conflictTo.map Prod.snd
      result := appendConflict s.result c .duplicateWithinSide (conflictFrom.map Prod.fst)
        (conflictTo.map Prod.fst) }
  else
    match conflictFrom, conflictTo with
    | (fromRow, i) :: _, (toRow, j) :: _ =>
        let s := { s with
          consumedFrom := s.consumedFrom ++ [i]
          consumedTo := s.consumedTo ++ [j] }
        if fromRow.tupleKey = toRow.tupleKey then
          { s with matched := s.matched ++ [(fromRow, toRow)] }
        else
          { s with
            result := appendConflict s.result c .crossBucket (conflictFrom.map Prod.fst)
              (conflictTo.map Prod.fst) }
    | _, _ => s

def compareMatched (result : EdgeSection) (pair : EdgeRow × EdgeRow) : EdgeSection :=
  if pair.1.digest = pair.2.digest then
    { result with counts := { result.counts with unchanged := result.counts.unchanged + 1 } }
  else appendChangedEdge result pair.1 pair.2 .claimId false

/-- The rows at the positions that no claim id consumed. -/
def unconsumed (rows : List EdgeRow) (consumed : List Nat) : List EdgeRow :=
  (rows.zipIdx.filter fun r => r.2 ∉ consumed).map Prod.fst

def bucketOf (rows : List EdgeRow) (k : IdentityKey) : List EdgeRow :=
  rows.filter fun r => r.tupleKey = k

/-- `sorted(set(from_buckets) | set(to_buckets))`. -/
def tupleKeys (fromRows toRows : List EdgeRow) : List IdentityKey :=
  sortedBy tupleTexts ((fromRows ++ toRows).map EdgeRow.tupleKey).dedup

/-- The count of each digest in a bucket. -/
def byDigest (rows : List EdgeRow) (digest : String) : Nat :=
  rows.countP fun r => r.digest = digest

def decrement (available : String → Nat) (digest : String) : String → Nat :=
  fun d => if d = digest then available d - 1 else available d

structure Cancelled where
  residual : List EdgeRow
  remaining : String → Nat
  unchanged : Nat

/-- The loop over the from side: a row cancels while its digest is available. -/
def cancel (available : String → Nat) : List EdgeRow → Cancelled
  | [] => { residual := [], remaining := available, unchanged := 0 }
  | r :: rs =>
      if 0 < available r.digest then
        let rest := cancel (decrement available r.digest) rs
        { rest with unchanged := rest.unchanged + 1 }
      else
        let rest := cancel available rs
        { rest with residual := r :: rest.residual }

/-- The loop over the to side: the rows that the remaining counts pay for. -/
def residualTo (remaining : String → Nat) : List EdgeRow → List EdgeRow
  | [] => []
  | r :: rs =>
      if 0 < remaining r.digest then r :: residualTo (decrement remaining r.digest) rs
      else residualTo remaining rs

/-- `_reidentification_permitted`. -/
def reidentificationPermitted (fromSide toSide : GraphDiffSide) (r s : EdgeRow) : Bool :=
  match fromSide.claimIdentityMapDigest, toSide.claimIdentityMapDigest with
  | some d, some d' =>
      decide (d ≠ d') && decide (r.ownership = .upstream) && decide (s.ownership = .upstream)
  | _, _ => false

/-- `_resolve_edge_residual`. -/
def resolveEdgeResidual (fromSide toSide : GraphDiffSide) (result : EdgeSection)
    (residualFrom residualTo : List EdgeRow) : EdgeSection :=
  match residualFrom, residualTo with
  | [], [] => result
  | rs, [] =>
      { result with
        counts := { result.counts with removed := result.counts.removed + rs.length }
        removed := result.removed ++ rs.map edgePresentItem }
  | [], ss =>
      { result with
        counts := { result.counts with added := result.counts.added + ss.length }
        added := result.added ++ ss.map edgePresentItem }
  | [r], [s] =>
      let bothIdentified := r.claimId.isSome && s.claimId.isSome
      if bothIdentified && !reidentificationPermitted fromSide toSide r s then
        appendAmbiguous result r.tupleKey [r] [s]
      else appendChangedEdge result r s .tuple bothIdentified
  | r :: rs, ss => appendAmbiguous result r.tupleKey (r :: rs) ss

/-- The group of one key: equal digests cancel, and the residual is resolved. -/
def compareBucket (fromSide toSide : GraphDiffSide) (fromRows toRows : List EdgeRow)
    (result : EdgeSection) (k : IdentityKey) : EdgeSection :=
  let fromBucket := digestOrdered (bucketOf fromRows k)
  let toBucket := digestOrdered (bucketOf toRows k)
  let cancelled := cancel (byDigest toBucket) fromBucket
  let result := { result with
    counts := { result.counts with unchanged := result.counts.unchanged + cancelled.unchanged } }
  resolveEdgeResidual fromSide toSide result cancelled.residual
    (residualTo cancelled.remaining toBucket)

/-- `diff_edges` before the items are sorted. -/
def collectEdges (fromSide toSide : GraphDiffSide) (fromRows toRows : List EdgeRow) : EdgeSection :=
  let start : EdgeSection := {
    counts := { fromTotal := fromRows.length, toTotal := toRows.length } }
  let sweep := (sweptIds fromRows toRows).foldl (sweepClaim fromRows toRows) { result := start }
  let result := sweep.matched.foldl compareMatched sweep.result
  let fromRest := unconsumed fromRows sweep.consumedFrom
  let toRest := unconsumed toRows sweep.consumedTo
  (tupleKeys fromRest toRest).foldl (compareBucket fromSide toSide fromRest toRest) result

def sortEdgeItems (result : EdgeSection) : EdgeSection :=
  { result with
    added := sortedBy (fun i => edgeSortKey i.identity i.stateDigest) result.added
    removed := sortedBy (fun i => edgeSortKey i.identity i.stateDigest) result.removed
    changed := sortedBy (fun i => edgeSortKey i.identity i.toStateDigest) result.changed
    ambiguous := sortedBy (fun i => edgeSortKey i.identity "") result.ambiguous
    identityConflict := sortedBy (fun i => [i.claimId]) result.identityConflict }

def diffEdges (fromSide toSide : GraphDiffSide) (selector : GraphDiffSelector) :
    Except String EdgeSection := do
  let fromRows ← edgeRows hash fromSide selector
  let toRows ← edgeRows hash toSide selector
  let result := sortEdgeItems (collectEdges fromSide toSide fromRows toRows)
  result.counts.assertPartition
  pure (applySelector result selector)

def entityPresentItem (r : EntityRow) : EntityPresentItem where
  identity := r.key
  ownership := r.ownership
  state := r.state
  stateDigest := r.digest

def entityChangedItem (r s : EntityRow) : EntityChangedItem where
  identity := s.key
  identityBasis := .entityKey
  fromOwnership := r.ownership
  toOwnership := s.ownership
  fromStateDigest := r.digest
  toStateDigest := s.digest
  body := changedChannels r.state.parts s.state.parts false

structure EntityProgress where
  result : EntitySection := {}
  asymmetry : List Asymmetry := []

/-- One turn of the loop over the keys of both sides. -/
def compareEntity (fromRows toRows : Dict (String × String) EntityRow) (p : EntityProgress)
    (key : String × String) : EntityProgress :=
  let c := p.result.counts
  match fromRows.get? key, toRows.get? key with
  | none, none => p
  | some r, none =>
      if r.isStub then
        { p with result := { p.result with
            counts := { c with excludedFrom := c.excludedFrom + 1 } } }
      else
        { p with result := { p.result with
            counts := { c with removed := c.removed + 1 }
            removed := p.result.removed ++ [entityPresentItem r] } }
  | none, some s =>
      if s.isStub then
        { p with result := { p.result with
            counts := { c with excludedTo := c.excludedTo + 1 } } }
      else
        { p with result := { p.result with
            counts := { c with added := c.added + 1 }
            added := p.result.added ++ [entityPresentItem s] } }
  | some r, some s =>
      if r.isStub || s.isStub then
        { result := { p.result with
            counts := { c with
              excludedFrom := c.excludedFrom + 1
              excludedTo := c.excludedTo + 1 } }
          asymmetry := if r.isStub != s.isStub then
              p.asymmetry ++ [{ entityKey := key, stubIsFrom := r.isStub }]
            else p.asymmetry }
      else if r.digest = s.digest then
        { p with result := { p.result with counts := { c with unchanged := c.unchanged + 1 } } }
      else
        let item := entityChangedItem r s
        { p with result := { p.result with
            counts := { c with
              changed := c.changed + 1
              annotationOnly := c.annotationOnly + if item.body.annotationOnly then 1 else 0 }
            changed := p.result.changed ++ [item] } }

/-- `sorted(set(from_rows) | set(to_rows))`. -/
def entityKeys (fromRows toRows : Dict (String × String) EntityRow) : List (String × String) :=
  sortedBy pairTexts (fromRows.keys ++ toRows.keys).dedup

/-- `diff_entities` before the items are sorted. -/
def collectEntities (fromRows toRows : Dict (String × String) EntityRow) : EntityProgress :=
  (entityKeys fromRows toRows).foldl (compareEntity fromRows toRows)
    { result := { counts := { fromTotal := fromRows.keys.length
                              toTotal := toRows.keys.length } } }

def sortEntityItems (detectionEnabled : Bool) (p : EntityProgress) : EntitySection :=
  { p.result with
    added := sortedBy (fun i => entitySortKey i.identity i.stateDigest) p.result.added
    removed := sortedBy (fun i => entitySortKey i.identity i.stateDigest) p.result.removed
    changed := sortedBy (fun i => entitySortKey i.identity i.toStateDigest) p.result.changed
    diagnostics := .entities detectionEnabled p.result.counts.excludedFrom
      p.result.counts.excludedTo (sortedBy (fun a => pairTexts a.entityKey) p.asymmetry) }

/-- `boundary_stub_keys(side) if detection_enabled else frozenset()`. -/
def stubsWhen (detectionEnabled : Bool) (side : GraphDiffSide) :
    Except String (List (String × String)) :=
  if detectionEnabled then boundaryStubKeys side else pure []

def diffEntities (fromSide toSide : GraphDiffSide) (selector : GraphDiffSelector) :
    Except String EntitySection := do
  let detectionEnabled := fromSide.ownership.isKnown && toSide.ownership.isKnown
  let fromStubs ← stubsWhen detectionEnabled fromSide
  let toStubs ← stubsWhen detectionEnabled toSide
  let fromRows ← entityRows hash fromSide selector fromStubs
  let toRows ← entityRows hash toSide selector toStubs
  let result := sortEntityItems detectionEnabled (collectEntities fromRows toRows)
  result.counts.assertPartition
  pure (applySelector result selector)

end Cruxible.StateDiffs
