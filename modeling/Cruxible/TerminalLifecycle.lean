import Cruxible.FreeWrites
import Cruxible.Runs

/-!
# Settled records under free writes

A relationship that is retracted or superseded and an entity that is retired or
superseded are settled. Every free write refuses to *enter* a settled status,
and most of them never touch a lifecycle slice. The exception is a typed
lifecycle on a direct write: on an edge it replaces the stored slice whatever
that slice says, and on an entity the guard looks at `retired` only. A run that
sends no typed lifecycle to a settled record keeps every settled slice whole.
-/
namespace Cruxible.TerminalLifecycle
open JsonValue PythonDict AssertionState AppendOnly Cruxible.Graph PropertyValidation
  GraphOperations
open DirectWrites WorkflowApply FreeWrites Runs

/-- One request against the committed graph. -/
def perform (g : EntityGraph) (r : Environment × FreeWrite) : Except CoreError EntityGraph :=
  r.2.apply r.1 g

def entitySettled (l : Option EntityLifecycleState) : Prop :=
  ∃ s, l = some s ∧ s.status.terminal = true

def relationshipSettled (l : RelationshipLifecycleState) : Prop := l.status.terminal = true

/-- The request sends no typed lifecycle to a stored settled record. -/
def LeavesSettled (g : EntityGraph) (r : Environment × FreeWrite) : Prop :=
  (∀ e ∈ r.2.entities, e.metadata.lifecycle.isSome = true →
    ∀ d, g.nodes.get? e.nodeId = some d → d.metadata.lifecycleStatus.terminal = false) ∧
  (∀ q ∈ r.2.requests, q.lifecycle.isSome = true →
    ∀ e, g.findRelationshipEdge q.edge.fromType q.edge.fromId q.edge.toType q.edge.toId
      q.edge.relationshipType = some e → e.lifecycle.status.terminal = false)

/-- The settled records of one graph stand unchanged in another. -/
structure KeepsSettled (g h : EntityGraph) : Prop where
  entities : ∀ n d, g.nodes.get? n = some d → d.metadata.lifecycleStatus.terminal = true →
    ∃ d', h.nodes.get? n = some d' ∧ d'.metadata.lifecycle = d.metadata.lifecycle
  relationships : ∀ (i : Nat) (e : EdgeData), g.edges[i]? = some e →
    e.lifecycle.status.terminal = true →
    ∃ e' : EdgeData, h.edges[i]? = some e' ∧ e'.claimId = e.claimId ∧ e'.lifecycle = e.lifecycle

theorem entitySettled_iff (m : EntityMetadata) :
    entitySettled m.lifecycle ↔ m.lifecycleStatus.terminal = true := by
  cases hl : m.lifecycle with
  | none => simp [entitySettled, EntityMetadata.lifecycleStatus, hl, EntityLifecycleStatus.terminal]
  | some l => simp [entitySettled, EntityMetadata.lifecycleStatus, hl]

variable {g : EntityGraph}

/-- The condition on a request is what the lifecycle frame asks of it. -/
theorem LeavesSettled.respects {r : Environment × FreeWrite} (h : LeavesSettled g r) :
    Respects entitySettled relationshipSettled g r.2 where
  entities := by
    intro e he l hl
    constructor
    · rintro hlive ⟨s, hs, hterm⟩
      obtain rfl := Option.some.inj hs
      simp [hlive, EntityLifecycleStatus.terminal] at hterm
    · intro d hd
      have hopen := h.1 e he (by simp [hl]) d hd
      rw [entitySettled_iff, hopen]
      simp
  relationships := by
    intro q hq l hl
    constructor
    · intro hopen hsettled
      rw [relationshipSettled, hopen] at hsettled
      cases hsettled
    · intro e he hsettled
      have hopen := h.2 q hq (by simp [hl]) e he
      rw [relationshipSettled, hopen] at hsettled
      cases hsettled

theorem keepsSettled_of_evolves {h : EntityGraph}
    (he : Evolves (lifecycleFrame entitySettled relationshipSettled) g h) : KeepsSettled g h where
  entities := by
    intro n d hd hterm
    obtain ⟨d', hd', hkeep, -⟩ := he.nodes n d hd
    exact ⟨d', hd', hkeep ((entitySettled_iff d.metadata).mpr hterm)⟩
  relationships := by
    intro i e hi hterm
    obtain ⟨e', hi', hid, hkeep, -⟩ := he.edges.getElem? hi
    exact ⟨e', hi', hid.1, hkeep hterm⟩

/-- Over every run of free writes that sends no typed lifecycle to a settled
record, every record that is settled at the start keeps its slice whole. -/
theorem settled_records_keep_their_lifecycle (g : EntityGraph)
    (run : List (Environment × FreeWrite)) (h : Throughout perform LeavesSettled g run) :
    KeepsSettled g (after perform g run) := by
  apply keepsSettled_of_evolves
  apply after_related (C := LeavesSettled) (Evolves.refl _) Evolves.trans _ h
  intro s r t hC hok
  apply evolves_freeWrite hok _ _ hC.respects
  · rintro ⟨s, hs, -⟩
    cases hs
  · intro hsettled
    cases hsettled

def merged : EntityLifecycleState :=
  { status := .superseded, reason := some "merged",
    supersededBy := some { entityType := some "Service", entityId := some "b" } }

def withdrawn : RelationshipLifecycleState :=
  { status := .retracted, reason := some "wrong", closedBy := some "ops" }

/-- Service `a` depends on `b` by a retracted claim, and `c` is superseded by `b`. -/
def settledGraph : EntityGraph where
  nodes := Dict.ofList [service "a" none, service "b" none, service "c" (some merged)]
  edges := [
    { fromNode := makeNodeId "Service" "a", toNode := makeNodeId "Service" "b", key := 0,
      relationshipType := "depends_on", claimId := "CLM-1", properties := ∅,
      metadata := { assertion := { lifecycle := withdrawn } } }]
  edgeCounter := 1
  claimIds := ["CLM-1"]

/-- An ordinary property update of the retracted edge is accepted, and the
retraction survives it. -/
theorem settled_edge_survives_update :
    (perform settledGraph (plainEnvironment,
      .addRelationships "cli" "edit" [{ edge := dependsOn "a" "b" 2 }])).isOk = true ∧
    KeepsSettled settledGraph (after perform settledGraph
      [(plainEnvironment, .addRelationships "cli" "edit" [{ edge := dependsOn "a" "b" 2 }])]) := by
  constructor
  · decide +kernel
  · apply settled_records_keep_their_lifecycle
    refine ⟨?_, trivial⟩
    intro t _
    constructor
    · intro e he
      cases he
    · intro q hq
      rw [List.mem_singleton.mp hq]
      intro hl
      cases hl

/-- A typed `active` on the retracted edge and a typed `live` on the superseded
entity are both accepted and both erase the settlement. -/
theorem typed_lifecycle_revives_settled_records :
    ¬ (∀ (g : EntityGraph) (run : List (Environment × FreeWrite)),
        KeepsSettled g (after perform g run)) ∧
    ((after perform settledGraph [(plainEnvironment, .addRelationships "cli" "edit"
        [{ edge := dependsOn "a" "b" 2, lifecycle := some { status := .active } }])]).edges.map
      EdgeData.lifecycle = [{ status := .active }]) ∧
    (((after perform settledGraph [(plainEnvironment, .addEntities
        [{ entityType := "Service", entityId := "c",
           metadata := { lifecycle := some { status := .live } } }])]).getEntity
      "Service" "c").map (fun d => d.metadata.lifecycle) = some (some { status := .live })) := by
  have hedge : (after perform settledGraph [(plainEnvironment, .addRelationships "cli" "edit"
      [{ edge := dependsOn "a" "b" 2, lifecycle := some { status := .active } }])]).edges.map
      EdgeData.lifecycle = [{ status := .active }] := by
    decide +kernel
  refine ⟨?_, hedge, by decide +kernel⟩
  intro hall
  have hkeep := (hall settledGraph [(plainEnvironment, .addRelationships "cli" "edit"
    [{ edge := dependsOn "a" "b" 2, lifecycle := some { status := .active } }])]).relationships 0
  obtain ⟨e', he', -, hlife⟩ := hkeep _ rfl rfl
  have hmem : e'.lifecycle ∈ [({ status := .active } : RelationshipLifecycleState)] := by
    rw [← hedge]
    exact List.mem_map_of_mem (List.mem_of_getElem? he')
  rw [List.mem_singleton.mp hmem] at hlife
  cases hlife

end Cruxible.TerminalLifecycle
