import Cruxible.Neighbors
import Cruxible.PropertyValidation

/-!
# Named queries

Evaluation of a named query: the traversal of its steps by a queue of paths, the
rows of its result, and the caps that cut either. `max_paths` bounds the paths
that a step retains, `max_paths_per_result` the rows of one result. The predicate
language of a step is embedded as functions that hold, fail or raise; identity
properties, which rows show and no step reads, are left out, and so are receipts and
the visibility that a caller gives for one run.
-/
namespace Cruxible.QueryEngine
open JsonValue PythonDict AssertionState Cruxible.Graph PropertyValidation Neighbors Fallible

inductive QueryVisibilityState where
  | live
  | accepted
  | all
  | notLive
  | pending
  | reviewable
  deriving DecidableEq, Repr

inductive QueryResultShape where
  | entity
  | path
  | relationship
  deriving DecidableEq, Repr

inductive QueryDedupe where
  | entity
  | path
  | none
  deriving DecidableEq, Repr

inductive QueryMode where
  | collection
  | traversal
  deriving DecidableEq, Repr

/-- `relationship_matches_query_state`. -/
def relationshipMatchesQueryState (m : RelationshipMetadata) (now : Timestamp) :
    QueryVisibilityState → Bool
  | .all => true
  | .live => relationshipIsLive m.assertion now
  | .notLive => !relationshipIsLive m.assertion now
  | .accepted => relationshipLifecycleIsActive m.assertion now &&
      m.assertion.review.status == .approved
  | .pending => relationshipLifecycleIsActive m.assertion now &&
      m.assertion.review.status == .pending
  | .reviewable => relationshipLifecycleIsActive m.assertion now &&
      (relationshipIsLive m.assertion now || m.assertion.review.status == .pending)

/-- `entity_matches_query_state`: entities have no review axis. -/
def entityMatchesQueryState (m : EntityMetadata) (now : Timestamp) : QueryVisibilityState → Bool
  | .all => true
  | .notLive => !m.isLive now
  | _ => m.isLive now

/-- `_anchor_in_scope`. -/
def anchorInScope (m : EntityMetadata) (now : Timestamp) (state : QueryVisibilityState) : Bool :=
  state == .all || state == .notLive || entityMatchesQueryState m now .live

structure QueryPathSegment where
  aliasName : Option String
  relationshipType : String
  fromType : String
  fromId : String
  toType : String
  toId : String
  edgeKey : Nat
  claimId : String
  properties : Properties
  metadata : RelationshipMetadata

/-- A row of `iter_step_relationships`. -/
structure Candidate where
  neighbor : EntityInstance
  segment : QueryPathSegment
  outgoing : Bool

structure TraversalState where
  entry : EntityInstance
  current : EntityInstance
  entities : List EntityInstance
  path : List QueryPathSegment

abbrev Params := Dict String Value

/-- A predicate on a candidate, seen from the state that reaches it. -/
abbrev Check := Params → EntityGraph → TraversalState → Candidate → Except CoreError Bool

structure TraversalStep where
  relationshipTypes : List String
  direction : Direction := .outgoing
  aliasName : Option String := none
  maxDepth : Nat := 1
  required : Bool := true
  /-- `filter`, on the properties of the edge. -/
  filter : Properties → Bool := fun _ => true
  /-- `target_filter`, `where`, `constraint`, `exclude_if_related`, `where_related`
  and `where_not_related`, in this order. -/
  checks : List Check := []

structure QueryRowContext where
  shape : QueryResultShape
  entry : EntityInstance
  result : EntityInstance
  entities : List EntityInstance
  path : List QueryPathSegment

/-- `include`: the number of relationships that it finds for a row. -/
structure QueryIncludeSpec where
  aliasName : String
  many : Bool := true
  required : Bool := false
  count : Params → EntityGraph → QueryRowContext → Except CoreError Nat

/-- `order_by`. Comparing two rows may raise; the order holds the rows it is given. -/
structure QueryOrder where
  run : Params → List QueryRowContext → Except CoreError (List QueryRowContext)
  run_perm : ∀ {params rows sorted}, run params rows = .ok sorted → sorted.Perm rows

structure NamedQuerySchema where
  mode : QueryMode := .traversal
  entryPoint : Option String := none
  traversal : List TraversalStep := []
  /-- The declared type, out of `list[...]` where it was written so. -/
  returns : String
  resultShape : QueryResultShape := .path
  dedupe : QueryDedupe := .path
  relationshipState : QueryVisibilityState := .live
  whereCheck : Option Check := none
  orderBy : Option QueryOrder := none
  includes : List QueryIncludeSpec := []
  limit : Option Nat := none
  maxPaths : Option Nat := none
  maxPathsPerResult : Option Nat := none

/-- What the engine takes from the configuration, and the clock. -/
structure QueryEnv where
  entityTypes : Dict String EntityTypeSchema := ∅
  /-- Relationships with their reverse names. -/
  relationships : List (RelationshipSchema × Option String) := []
  namedQueries : Dict String NamedQuerySchema := ∅
  /-- `_policy_should_suppress` of the policies active for a query and a relationship. -/
  suppresses : String → String → Direction → TraversalState → Candidate → Bool :=
    fun _ _ _ _ _ => false
  /-- `str` of a parameter. -/
  text : Value → String
  now : Timestamp := 0

/-- `resolve_relationship_reference`: the schema, and whether the reverse name was used. -/
def QueryEnv.resolveRelationshipReference (env : QueryEnv) (name : String) :
    Option (RelationshipSchema × Bool) :=
  match env.relationships.find? fun r => r.1.name = name with
  | some r => some (r.1, false)
  | none => (env.relationships.find? fun r => r.2 = some name).map fun r => (r.1, true)

/-- `_flip_relationship_direction`. -/
def flipRelationshipDirection : Direction → Direction
  | .outgoing => .incoming
  | .incoming => .outgoing
  | .both => .both

def QueryEnv.resolveStepReference (env : QueryEnv) (step : TraversalStep) (name : String) :
    Except CoreError (RelationshipSchema × Direction) :=
  match env.resolveRelationshipReference name with
  | none => .error (.relationshipNotFound name)
  | some (schema, isReverse) =>
      .ok (schema, if isReverse then flipRelationshipDirection step.direction else step.direction)

/-- `_requires_path_retention`. -/
def NamedQuerySchema.requiresPathRetention (q : NamedQuerySchema) : Bool :=
  q.resultShape == .path || q.resultShape == .relationship || q.dedupe == .path ||
    q.dedupe == .none

/-- `iter_step_relationships`. -/
def iterStepRelationships (g : EntityGraph) (entity : EntityInstance) (relationshipType : String)
    (direction : Direction) (aliasName : Option String) : List Candidate :=
  (getNeighborRelationships g entity.entityType entity.entityId (some relationshipType)
    direction).map fun row =>
      let source := if row.outgoing then entity else row.entity
      let target := if row.outgoing then row.entity else entity
      { neighbor := row.entity
        outgoing := row.outgoing
        segment :=
          { aliasName := aliasName, relationshipType := row.edge.relationshipType
            fromType := source.entityType, fromId := source.entityId
            toType := target.entityType, toId := target.entityId
            edgeKey := row.edge.key, claimId := row.edge.claimId
            properties := row.edge.properties, metadata := row.edge.metadata } }

/-- One segment of `_path_identity`. -/
def segmentIdentity (s : QueryPathSegment) : List Part :=
  [.text s.relationshipType, .text s.fromType, .text s.fromId, .text s.toType, .text s.toId,
    .number 0, .number s.edgeKey]

/-- `_path_identity`. -/
def pathIdentity (path : List QueryPathSegment) : List Part := path.flatMap segmentIdentity

/-- `_relationship_candidate_identity`. -/
def relationshipCandidateIdentity (c : Candidate) : List Part :=
  segmentIdentity c.segment ++ [.text c.neighbor.entityType, .text c.neighbor.entityId,
    .text (if c.outgoing then "outgoing" else "incoming")]

/-- `_traversal_state_identity`. -/
def traversalStateIdentity (s : TraversalState) : List Part :=
  [.text s.current.entityType, .text s.current.entityId] ++ pathIdentity s.path

/-- What one step is executed with. The cap is `max_paths` of a query that retains
paths; with a cap declared, states and candidates go in a stable order. -/
structure StepRun where
  env : QueryEnv
  graph : EntityGraph
  queryName : String
  params : Params
  relationshipState : QueryVisibilityState
  step : TraversalStep
  refs : List (String × Direction)
  collectEntityType : Option String
  retention : Bool
  stable : Bool
  maxPaths : Option Nat

namespace StepRun

/-- `_retained_path_cap_reached`. -/
def capReached (r : StepRun) (retained : List TraversalState) : Bool :=
  r.retention && r.maxPaths.any fun m => m ≤ retained.length

/-- `_matches_collect_entity_type`. -/
def collects (r : StepRun) (c : Candidate) : Bool :=
  r.collectEntityType.all fun t => c.neighbor.entityType = t

/-- The tests between finding a candidate and retaining it. A check can raise. -/
def admits (r : StepRun) (direction : Direction) (state : TraversalState) (c : Candidate) :
    Except CoreError Bool :=
  if !relationshipMatchesQueryState c.segment.metadata r.env.now r.relationshipState then .ok false
  else if r.retention && state.entities.any fun e => e.nodeId = c.neighbor.nodeId then .ok false
  else if !r.step.filter c.segment.properties then .ok false
  else do
    let checks := if r.collects c then r.step.checks else []
    let passed ← checks.allM fun check => check r.params r.graph state c
    pure (passed && !r.env.suppresses r.queryName c.segment.relationshipType direction state c)

def candidates (r : StepRun) (state : TraversalState) (ref : String × Direction) : List Candidate :=
  let found := iterStepRelationships r.graph state.current ref.1 ref.2 r.step.aliasName
  if r.stable then sortedBy relationshipCandidateIdentity found else found

end StepRun

/-- A queued path: the index of the input state it grew from, and its depth. -/
structure Queued where
  root : Nat
  state : TraversalState
  depth : Nat

structure Walk where
  queue : List Queued
  nextStates : List TraversalState := []
  seenExpanded : List NodeId := []
  seenResults : List NodeId := []
  producedRoots : List Nat := []
  truncated : Bool := false
  raised : Option CoreError := none

/-- `_record_max_paths_truncation`, with the queue cleared. -/
def Walk.cutOff (w : Walk) : Walk := { w with queue := [], truncated := true }

namespace StepRun

/-- What becomes of an admitted candidate. -/
def retain (r : StepRun) (item : Queued) (w : Walk) (c : Candidate) : Walk :=
  let nextState : TraversalState :=
    { entry := item.state.entry, current := c.neighbor
      entities := item.state.entities ++ [c.neighbor], path := item.state.path ++ [c.segment] }
  let nid := c.neighbor.nodeId
  let queued : Queued := { root := item.root, state := nextState, depth := item.depth + 1 }
  if r.retention then
    let next := w.nextStates ++ [nextState]
    let produced := w.producedRoots ++ [item.root]
    if r.capReached next then
      { w with nextStates := next, producedRoots := produced,
               truncated := w.truncated || item.depth + 1 < r.step.maxDepth }
    else { w with nextStates := next, producedRoots := produced, queue := w.queue ++ [queued] }
  else
    let emitted := r.collects c && nid ∉ w.seenResults
    let fresh := decide (nid ∉ w.seenExpanded)
    { w with
      nextStates := if emitted then w.nextStates ++ [nextState] else w.nextStates
      seenResults := if emitted then w.seenResults ++ [nid] else w.seenResults
      producedRoots := if emitted then w.producedRoots ++ [item.root] else w.producedRoots
      seenExpanded := if fresh then w.seenExpanded ++ [nid] else w.seenExpanded
      queue := if fresh then w.queue ++ [queued] else w.queue }

/-- One turn of the innermost loop. A raised error ends every loop. -/
def consider (r : StepRun) (item : Queued) (direction : Direction) (w : Walk) (c : Candidate) :
    Walk :=
  if w.raised.isSome then w
  else if r.capReached w.nextStates then w.cutOff
  else match r.admits direction item.state c with
    | .error e => { w with queue := [], raised := some e }
    | .ok false => w
    | .ok true => r.retain item w c

def considerRef (r : StepRun) (item : Queued) (w : Walk) (ref : String × Direction) : Walk :=
  if w.raised.isSome then w
  else if r.capReached w.nextStates then w.cutOff
  else (r.candidates item.state ref).foldl (r.consider item ref.2) w

/-- One popped path. -/
def expand (r : StepRun) (w : Walk) (item : Queued) : Walk :=
  if r.step.maxDepth ≤ item.depth then w
  else if r.capReached w.nextStates then w.cutOff
  else r.refs.foldl (r.considerRef item) w

/-- The loop over the queue. -/
def walk (r : StepRun) : Nat → Walk → Walk
  | 0, w => w
  | fuel + 1, w =>
      match w.queue with
      | [] => w
      | item :: rest => r.walk fuel (r.expand { w with queue := rest } item)

/-- The input states in the order in which they are queued, with their positions. -/
def indexedStates (r : StepRun) (states : List TraversalState) : List (Nat × TraversalState) :=
  let indexed := states.zipIdx.map fun p => (p.2, p.1)
  if r.stable then sortedBy (fun p => traversalStateIdentity p.2) indexed else indexed

def seed (r : StepRun) (states : List TraversalState) : Walk :=
  let seen := if r.retention then [] else states.map fun s => s.current.nodeId
  { queue := (r.indexedStates states).map fun p => { root := p.1, state := p.2, depth := 0 }
    seenExpanded := seen
    seenResults := seen }

/-- The paths below one queued path, when each can grow in at most `b` ways. -/
def pathsBelow (b : Nat) : Nat → Nat
  | 0 => 1
  | k + 1 => 1 + b * pathsBelow b k

def fanOut (r : StepRun) : Nat := r.refs.length * (2 * r.graph.edges.length)

def fuel (r : StepRun) (states : List TraversalState) : Nat :=
  states.length * pathsBelow r.fanOut r.step.maxDepth

/-- A step that is not required keeps the states from which it produced nothing. -/
def preserve (r : StepRun) (w : Walk) (input : Nat × TraversalState) : Walk :=
  if input.1 ∈ w.producedRoots then w
  else if r.capReached w.nextStates then { w with truncated := true }
  else { w with nextStates := w.nextStates ++ [input.2] }

def finish (r : StepRun) (states : List TraversalState) (w : Walk) : Walk :=
  if r.step.required || w.raised.isSome then w else (r.indexedStates states).foldl r.preserve w

/-- `_execute_step`, up to the return of its states. -/
def run (r : StepRun) (states : List TraversalState) : Walk :=
  r.finish states (r.walk (r.fuel states) (r.seed states))

/-- `_execute_step`: the next states, and whether the step was cut. -/
def execute (r : StepRun) (states : List TraversalState) :
    Except CoreError (List TraversalState × Bool) :=
  match (r.run states).raised with
  | some e => .error e
  | none => .ok ((r.run states).nextStates, (r.run states).truncated)

end StepRun

/-- The part of `_validate_effective_query_options` on relationship rows. -/
def validateRelationshipShape (env : QueryEnv) (queryName : String) (q : NamedQuerySchema) :
    Except CoreError Unit := do
  refuseIf (q.dedupe = .entity) (.queryExecution
    s!"Named query '{queryName}' with result_shape 'relationship' requires dedupe 'path' or 'none'")
  match q.mode with
  | .collection =>
      match env.resolveRelationshipReference q.returns with
      | none => .error (.relationshipNotFound q.returns)
      | some (schema, isReverse) => refuseIf (isReverse = true) (.queryExecution
          s!"Entryless relationship query '{queryName}' must return canonical relationship name '{schema.name}'")
  | .traversal =>
      match q.traversal.getLast? with
      | none => .error (.queryExecution
          s!"Named query '{queryName}' with result_shape 'relationship' requires traversal")
      | some final => do
          refuseIf (final.required = false) (.queryExecution
            s!"Named query '{queryName}' with result_shape 'relationship' requires the final traversal step to be required when using required false")
          let names ← final.relationshipTypes.mapM fun name => do
            let resolved ← env.resolveStepReference final name
            pure resolved.1.name
          let expected := ", ".intercalate names.eraseDups
          refuseIf (names.eraseDups ≠ [q.returns]) (.queryExecution
            s!"Named query '{queryName}' with result_shape 'relationship' must set returns to its final relationship type ({expected})")

/-- `_validate_effective_query_options`, without overrides. -/
def validateEffectiveQueryOptions (env : QueryEnv) (queryName : String) (q : NamedQuerySchema) :
    Except CoreError Unit := do
  let including := q.mode == .collection && !q.includes.isEmpty
  refuseIf (q.resultShape = .entity ∧ q.dedupe ≠ .entity) (.queryExecution
    s!"Named query '{queryName}' with result_shape 'entity' requires dedupe 'entity'")
  refuseIf (q.resultShape = .entity ∧ q.traversal.any fun step => !step.required) (.queryExecution
    s!"Named query '{queryName}' with required false traversal steps requires result_shape 'path' or 'relationship'")
  refuseIf (q.resultShape = .entity ∧ (q.maxPaths.isSome ∨ q.maxPathsPerResult.isSome))
    (.queryExecution
      s!"Named query '{queryName}' with path budgets requires result_shape 'path' or 'relationship'")
  refuseIf (q.relationshipState = .pending ∧ q.resultShape = .entity ∧
      including = false) (.queryExecution
    s!"Named query '{queryName}' with relationship_state 'pending' requires result_shape 'path' or 'relationship'")
  refuseIf (q.relationshipState = .pending ∧ q.dedupe = .entity ∧
      including = false) (.queryExecution
    s!"Named query '{queryName}' with relationship_state 'pending' requires dedupe 'path' or 'none'")
  refuseIf (q.relationshipState = .reviewable ∧ q.resultShape ≠ .path ∧
      ¬(q.mode = .collection ∧ q.resultShape = .relationship) ∧ including = false)
    (.queryExecution
      s!"Named query '{queryName}' with relationship_state 'reviewable' requires result_shape 'path'")
  refuseIf (q.relationshipState = .reviewable ∧ q.dedupe = .entity ∧
      including = false) (.queryExecution
    s!"Named query '{queryName}' with relationship_state 'reviewable' requires dedupe 'path' or 'none'")
  if q.resultShape = .relationship then validateRelationshipShape env queryName q else pure ()

/-- `_resolve_declared_entity_return_type`. -/
def resolveDeclaredEntityReturnType (env : QueryEnv) (queryName : String) (q : NamedQuerySchema) :
    Except CoreError (Option String) :=
  if q.resultShape = .relationship ∨ q.returns = "AnyEntity" then .ok none
  else if (env.entityTypes.get? q.returns).isNone then .error (.queryExecution
    s!"Named query '{queryName}' declares unknown result entity type '{q.returns}'")
  else .ok (some q.returns)

/-- `_step_can_reach_entity_type`: the references are tried in order up to the first hit. -/
def stepCanReachEntityType (env : QueryEnv) (step : TraversalStep) (entityType : String) :
    List String → Except CoreError Bool
  | [] => .ok false
  | name :: names => do
      let resolved ← env.resolveStepReference step name
      if (resolved.2 ≠ .incoming ∧ resolved.1.toEntity = entityType) ∨
          (resolved.2 ≠ .outgoing ∧ resolved.1.fromEntity = entityType) then pure true
      else stepCanReachEntityType env step entityType names

/-- `_step_collect_entity_type`. -/
def stepCollectEntityType (env : QueryEnv) (q : NamedQuerySchema) (declared : Option String)
    (step : TraversalStep) (stepIndex : Nat) : Except CoreError (Option String) :=
  match declared with
  | none => .ok none
  | some t =>
      if q.resultShape ≠ .entity ∨ stepIndex + 1 ≠ q.traversal.length then .ok none
      else do
        let reaches ← stepCanReachEntityType env step t step.relationshipTypes
        pure (if reaches then some t else none)

/-- `_dedupe_states`: the first state of every key. -/
def dedupeStates (dedupe : QueryDedupe) (states : List TraversalState) : List TraversalState :=
  match dedupe with
  | .none => states
  | .entity => states.eraseDupsBy fun s t => s.current.nodeId = t.current.nodeId
  | .path => states.eraseDupsBy fun s t => pathIdentity s.path = pathIdentity t.path

/-- `_build_result_contexts`: a relationship row needs a segment. -/
def buildResultContexts (shape : QueryResultShape) (states : List TraversalState) :
    List QueryRowContext :=
  (states.filter fun s => !(shape == .relationship && s.path.isEmpty)).map fun s =>
    { shape := shape, entry := s.entry, result := s.current, entities := s.entities
      path := s.path }

/-- `_filter_contexts_by_entity_state`: relationship rows are gated on their anchors only. -/
def filterContextsByEntityState (now : Timestamp) (state : QueryVisibilityState)
    (shape : QueryResultShape) (rows : List QueryRowContext) : List QueryRowContext :=
  if state = .all then rows
  else rows.filter fun c =>
    (shape == .relationship || entityMatchesQueryState c.result.metadata now state) &&
      c.entities.all fun e => anchorInScope e.metadata now state

/-- `_validate_result_context_return_types`. -/
def validateResultContextReturnTypes (queryName : String) (declared : Option String)
    (rows : List QueryRowContext) : Except CoreError Unit :=
  match declared with
  | none => .ok ()
  | some t =>
      match rows.find? fun c => c.result.entityType ≠ t with
      | none => .ok ()
      | some c => .error (.queryExecution
          s!"Named query '{queryName}' returned {c.result.entityType}:{c.result.entityId} but declares result entity type '{t}'")

/-- The includes of one row; whether the row stays. -/
def evaluateIncludes (params : Params) (g : EntityGraph) (row : QueryRowContext) :
    List QueryIncludeSpec → Except CoreError Bool
  | [] => .ok true
  | spec :: specs => do
      let count ← spec.count params g row
      refuseIf (spec.many = false ∧ 1 < count) (.queryExecution
        s!"Include '{spec.aliasName}' matched {count} relationships; set many: true or narrow the include predicates")
      if spec.required ∧ count = 0 then pure false else evaluateIncludes params g row specs

/-- `_apply_includes`. -/
def applyIncludes (params : Params) (g : EntityGraph) (includes : List QueryIncludeSpec)
    (rows : List QueryRowContext) : Except CoreError (List QueryRowContext) :=
  rows.filterM fun row => evaluateIncludes params g row includes

/-- `stable_row_identity`. -/
def stableRowIdentity (c : QueryRowContext) : List Part :=
  match c.shape with
  | .path => [.text "path", .text c.entry.entityType, .text c.entry.entityId] ++
      pathIdentity c.path ++ [.stop, .text c.result.entityType, .text c.result.entityId]
  | .relationship => .text "relationship" :: (c.path.getLast?.map segmentIdentity).getD []
  | .entity => [.text "entity", .text c.result.entityType, .text c.result.entityId]

/-- The rows that `max_paths_per_result` leaves of an ordered list. -/
def retainPerResult (m : Nat) : Dict (String × String) Nat → List QueryRowContext →
    List QueryRowContext
  | _, [] => []
  | counts, c :: rows =>
      let key := (c.result.entityType, c.result.entityId)
      let count := (counts.get? key).getD 0
      if m ≤ count then retainPerResult m counts rows
      else c :: retainPerResult m (counts.set key (count + 1)) rows

/-- `_apply_path_budgets`: the rows, and the reasons for which they are not all. -/
def applyPathBudgets (maxPaths maxPathsPerResult : Option Nat) (truncated : Bool)
    (rows : List QueryRowContext) : List QueryRowContext × List String :=
  if maxPaths.isNone ∧ maxPathsPerResult.isNone then (rows, [])
  else
    let ordered := sortedBy stableRowIdentity rows
    let retained := maxPathsPerResult.elim ordered fun m => retainPerResult m ∅ ordered
    (retained, (if truncated then ["max_paths"] else []) ++
      if retained.length < ordered.length then ["max_paths_per_result"] else [])

/-- `sort_query_row_contexts`. -/
def sortQueryRowContexts (params : Params) (order : Option QueryOrder)
    (rows : List QueryRowContext) : Except CoreError (List QueryRowContext) :=
  match order with
  | none => .ok (sortedBy stableRowIdentity rows)
  | some o => o.run params rows

structure QueryResult where
  results : List QueryRowContext
  totalResults : Nat
  truncationReasons : List String

/-- The end of both modes: order, total, limit. -/
def limitResults (params : Params) (q : NamedQuerySchema) (rows : List QueryRowContext)
    (reasons : List String) : Except CoreError QueryResult := do
  let sorted ← sortQueryRowContexts params q.orderBy rows
  pure
    { results := q.limit.elim sorted sorted.take
      totalResults := sorted.length
      truncationReasons := reasons ++
        if q.limit.any fun l => l < sorted.length then ["limit"] else [] }

/-- `_resolve_entry_entity`. -/
def resolveEntryEntity (env : QueryEnv) (g : EntityGraph) (entryPoint : String) (params : Params) :
    Except CoreError EntityInstance :=
  match env.entityTypes.get? entryPoint with
  | none => .error (.queryExecution s!"Entry point entity type '{entryPoint}' not in config")
  | some schema =>
      match schema.getPrimaryKey with
      | none => .error (.queryExecution s!"Entity type '{entryPoint}' has no primary key")
      | some pk =>
          let given := (params.get? pk).getD .null
          let keys := env.text (.array ((params.keys.insertionSort (· ≤ ·)).map .str))
          if given.same .null then .error (.queryExecution
            s!"Parameter '{pk}' required for entry point '{entryPoint}'. Got params: {keys}")
          else
            match g.getEntity entryPoint (env.text given) with
            | none => .error (.entityNotFound entryPoint (env.text given))
            | some entity => .ok entity

/-- The run of one step under a cap; the order is that of the declared query. -/
def stepRun (env : QueryEnv) (g : EntityGraph) (queryName : String) (q : NamedQuerySchema)
    (params : Params) (maxPaths : Option Nat) (declared : Option String) (step : TraversalStep)
    (stepIndex : Nat) : Except CoreError StepRun := do
  let collect ← stepCollectEntityType env q declared step stepIndex
  let refs ← step.relationshipTypes.mapM fun name => do
    let resolved ← env.resolveStepReference step name
    pure (resolved.1.name, resolved.2)
  pure
    { env := env, graph := g, queryName := queryName, params := params
      relationshipState := q.relationshipState, step := step, refs := refs
      collectEntityType := collect, retention := q.requiresPathRetention
      stable := q.requiresPathRetention && q.maxPaths.isSome
      maxPaths := maxPaths }

/-- The loop over the steps. -/
def traverse (env : QueryEnv) (g : EntityGraph) (queryName : String) (q : NamedQuerySchema)
    (params : Params) (declared : Option String) (entry : EntityInstance) :
    Except CoreError (List TraversalState × Bool) :=
  q.traversal.zipIdx.foldlM (fun acc s => do
    let r ← stepRun env g queryName q params q.maxPaths declared s.1 s.2
    let out ← r.execute acc.1
    pure (out.1, acc.2 || out.2))
    ([{ entry := entry, current := entry, entities := [entry], path := [] }], false)

/-- From the states of the last step to the rows before the budgets. -/
def resultRows (env : QueryEnv) (g : EntityGraph) (queryName : String) (q : NamedQuerySchema)
    (params : Params) (declared : Option String) (states : List TraversalState) :
    Except CoreError (List QueryRowContext) := do
  let rows := filterContextsByEntityState env.now q.relationshipState q.resultShape
    (buildResultContexts q.resultShape (dedupeStates q.dedupe states))
  validateResultContextReturnTypes queryName declared rows
  applyIncludes params g q.includes rows

/-- A pseudo segment for the predicates of an entity collection. -/
def selfSegment (e : EntityInstance) : QueryPathSegment :=
  { aliasName := none, relationshipType := "", fromType := e.entityType, fromId := e.entityId
    toType := e.entityType, toId := e.entityId, edgeKey := 0, claimId := ""
    properties := ∅, metadata := {} }

def passesWhere (q : NamedQuerySchema) (params : Params) (g : EntityGraph) (s : TraversalState)
    (c : Candidate) : Except CoreError Bool :=
  match q.whereCheck with
  | none => .ok true
  | some check => check params g s c

/-- `_collection_entity_contexts`. -/
def collectionEntityContexts (env : QueryEnv) (g : EntityGraph) (queryName : String)
    (q : NamedQuerySchema) (params : Params) : Except CoreError (List QueryRowContext) := do
  refuseIf ((env.entityTypes.get? q.returns).isNone = true) (.queryExecution
    s!"Entryless query '{queryName}' declares unknown result entity type '{q.returns}'")
  let entities := (g.nodes.entries.map Prod.snd).filter fun e => e.entityType = q.returns
  let kept ← entities.filterM fun e => passesWhere q params g
    { entry := e, current := e, entities := [e], path := [] }
    { neighbor := e, segment := selfSegment e, outgoing := true }
  pure (kept.map fun e =>
    { shape := .entity, entry := e, result := e, entities := [e], path := [] })

/-- A stored edge with both of its entities, as a path of one segment. -/
def edgeState (g : EntityGraph) (e : EdgeData) : Option (TraversalState × Candidate) :=
  let source := splitNodeId e.fromNode
  let target := splitNodeId e.toNode
  match g.getEntity source.1 source.2, g.getEntity target.1 target.2 with
  | some a, some b =>
      let segment : QueryPathSegment :=
        { aliasName := none, relationshipType := e.relationshipType
          fromType := source.1, fromId := source.2, toType := target.1, toId := target.2
          edgeKey := e.key, claimId := e.claimId, properties := e.properties
          metadata := e.metadata }
      some ({ entry := a, current := a, entities := [a, b], path := [segment] },
        { neighbor := b, segment := segment, outgoing := true })
  | _, _ => none

/-- `_collection_relationship_contexts`. -/
def collectionRelationshipContexts (env : QueryEnv) (g : EntityGraph) (queryName : String)
    (q : NamedQuerySchema) (params : Params) : Except CoreError (List QueryRowContext) := do
  let edges := sortedBy (fun p => segmentIdentity p.2.segment)
    ((g.edges.filter fun e => e.relationshipType = q.returns &&
      relationshipMatchesQueryState e.metadata env.now q.relationshipState).filterMap (edgeState g))
  let kept ← edges.filterM fun p => do
    let passed ← passesWhere q params g p.1 p.2
    pure (passed && !env.suppresses queryName q.returns .outgoing p.1 p.2)
  pure (kept.map fun p =>
    { shape := .relationship, entry := p.1.entry, result := p.2.neighbor
      entities := p.1.entities, path := p.1.path })

/-- `_execute_collection_query`, which knows no path budget. -/
def executeCollectionQuery (env : QueryEnv) (g : EntityGraph) (queryName : String)
    (q : NamedQuerySchema) (params : Params) : Except CoreError QueryResult := do
  refuseIf (q.resultShape = .path) (.queryExecution
    s!"Collection query '{queryName}' does not support result_shape 'path'")
  refuseIf (q.traversal.isEmpty = false) (.queryExecution
    s!"Collection query '{queryName}' must not define traversal")
  let collected ← if q.resultShape = .entity then collectionEntityContexts env g queryName q params
    else collectionRelationshipContexts env g queryName q params
  let visible := filterContextsByEntityState env.now q.relationshipState q.resultShape collected
  let rows ← applyIncludes params g q.includes visible
  limitResults params q rows []

/-- `execute_query_definition`. -/
def executeQueryDefinition (env : QueryEnv) (g : EntityGraph) (queryName : String)
    (q : NamedQuerySchema) (params : Params) : Except CoreError QueryResult := do
  validateEffectiveQueryOptions env queryName q
  let declared ← resolveDeclaredEntityReturnType env queryName q
  match q.mode with
  | .collection => executeCollectionQuery env g queryName q params
  | .traversal =>
      match q.entryPoint with
      | none => .error (.queryExecution s!"Traversal query '{queryName}' requires entry_point")
      | some entryPoint => do
          let entry ← resolveEntryEntity env g entryPoint params
          let reached ← traverse env g queryName q params declared entry
          let rows ← resultRows env g queryName q params declared reached.1
          let budget := applyPathBudgets q.maxPaths q.maxPathsPerResult reached.2 rows
          limitResults params q budget.1 budget.2

/-- `execute_query`. -/
def executeQuery (env : QueryEnv) (g : EntityGraph) (queryName : String) (params : Params) :
    Except CoreError QueryResult :=
  match env.namedQueries.get? queryName with
  | none => .error (.queryNotFound queryName)
  | some q => executeQueryDefinition env g queryName q params

end Cruxible.QueryEngine
