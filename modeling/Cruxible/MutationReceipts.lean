import Cruxible.EntityChanges

/-!
# Receipts of entity writes

Adding entities and the batch write run inside one receipt boundary: the write
nodes are recorded when everything has been validated, the rows are saved after
that, and the receipt is stored with the rows when the save succeeds. A refusal
rolls the rows back and stores the nodes that had been recorded so far in a
receipt that is not committed.
-/
namespace Cruxible.MutationReceipts
open JsonValue PythonDict AssertionState AppendOnly Fallible Cruxible.Graph PropertyValidation
open GraphOperations GroupDrift DirectWrites FreeWrites Storage EntityChanges

inductive ChangeKind where
  | created
  | updated
  deriving DecidableEq, Repr

/-- An `entity_write` node with its change detail. -/
structure EntityWriteNode where
  entityType : String
  entityId : String
  changeKind : ChangeKind
  propertyChanges : List PropertyChangeItem
  timestamp : Timestamp
  deriving DecidableEq

/-- A stored receipt: the coordinates that its proposal names, and its write
nodes. -/
structure Receipt where
  receiptId : String
  committed : Bool
  createdAt : Timestamp
  subjects : List (String × String) := []
  entityWrites : List EntityWriteNode := []
  deriving DecidableEq

/-- The rows of `receipt_entities` that a receipt is filed under. -/
def Receipt.indexedEntities (r : Receipt) : List (String × String) :=
  (r.entityWrites.map (fun n => (n.entityType, n.entityId)) ++ r.subjects).filter
    fun c => c.1 ≠ "" ∧ c.2 ≠ ""

/-- `_entity_property_change_detail`. -/
def entityPropertyChangeDetail (g : EntityGraph) (v : ValidatedEntity) :
    ChangeKind × List PropertyChangeItem :=
  let previous := match g.getEntity v.entity.entityType v.entity.entityId with
    | some d => d.properties
    | none => ∅
  if v.isUpdate then (.updated, propertyValueChanges v.entity.properties previous true false)
  else (.created, propertyValueChanges v.entity.properties ∅ true false)

inductive EntityRequest where
  | addEntities (entities : List EntityInstance)
  | batchDirectWrite (source sourceRef : String) (entities : List EntityInstance)
      (requests : List RelationshipRequest)

namespace EntityRequest

def entities : EntityRequest → List EntityInstance
  | .addEntities entities => entities
  | .batchDirectWrite _ _ entities _ => entities

def relationships : EntityRequest → List RelationshipInstance
  | .addEntities _ => []
  | .batchDirectWrite _ _ _ requests => requests.map (·.edge)

/-- The coordinates of `build_proposal`. -/
def subjects (r : EntityRequest) : List (String × String) :=
  r.entities.map (fun e => (e.entityType, e.entityId)) ++
    r.relationships.flatMap (fun e => [(e.fromType, e.fromId), (e.toType, e.toId)])

/-- Whether `record_proposal` can encode the submitted body, which is written
with the canonical serializer. -/
def encodable (r : EntityRequest) : Bool :=
  r.entities.all (fun e => storable e.properties && storable e.metadata.extra) &&
    r.relationships.all (fun e => storable e.properties && metadataStorable e.metadata)

end EntityRequest

/-- One call, with the readings of the clock, the minted receipt id, and whether
the receipt and the commit go through. -/
structure Mutation where
  w : WriteContext
  guards : Guards
  call : Call := {}
  request : EntityRequest
  receiptId : String := ""
  clock : Nat → Timestamp := fun _ => 0
  createdAt : Timestamp := 0
  persists : Bool := true

namespace Mutation

/-- The ownership check, which runs before the receipt boundary opens. -/
def checkOwnership (m : Mutation) : Except CoreError Unit :=
  match m.request with
  | .addEntities entities => checkUpstreamTypeOwnership m.w (entities.map (·.entityType)) []
  | .batchDirectWrite _ _ entities requests =>
      checkUpstreamTypeOwnership m.w (entities.map (·.entityType))
        (requests.map (·.edge.relationshipType))

/-- Everything up to the first recorded write. -/
def prepare (m : Mutation) (g : EntityGraph) : Except CoreError PreparedBatch :=
  match m.request with
  | .addEntities entities => do
      let b ← serviceAddEntities m.w m.guards g entities
      return { entities := b }
  | .batchDirectWrite source sourceRef entities requests =>
      prepareBatchDirectWrite m.w m.guards g source sourceRef entities requests m.call

/-- The source that the relationship writes of a call carry. -/
def origin (m : Mutation) : String × String :=
  match m.request with
  | .addEntities _ => ("add_entity", "")
  | .batchDirectWrite source sourceRef _ _ => (source, sourceRef)

/-- The write nodes, in the order of the members. -/
def recordEntityWrites (m : Mutation) (g : EntityGraph) (b : EntityBatch) : List EntityWriteNode :=
  b.validated.zipIdx.map fun p =>
    { entityType := p.1.entity.entityType, entityId := p.1.entity.entityId,
      changeKind := (entityPropertyChangeDetail g p.1).1,
      propertyChanges := (entityPropertyChangeDetail g p.1).2, timestamp := m.clock p.2 }

/-- `save_graph_for_mutation`, after the relationships of a batch are applied. -/
def save (m : Mutation) (g : EntityGraph) (p : PreparedBatch) : Except CoreError EntityGraph := do
  let applied ← applyAllPrepared m.w m.origin.1 m.origin.2 m.call p.entities.graph p.relationships
  let d ← upsertEntities g (touchedEntities p.entities)
  upsertRelationships d applied.touched

def receipt (m : Mutation) (committed : Bool) (nodes : List EntityWriteNode) : Receipt :=
  { receiptId := m.receiptId, committed := committed, createdAt := m.createdAt,
    subjects := m.request.subjects, entityWrites := nodes }

end Mutation

structure Instance where
  store : EntityGraph
  receipts : List Receipt := []

/-- A refusal receipt is kept when it can be stored; the rows are not. -/
def Instance.refuse (s : Instance) (m : Mutation) (nodes : List EntityWriteNode) : Instance :=
  if m.persists then { s with receipts := s.receipts ++ [m.receipt false nodes] } else s

/-- `mutation_receipt` around one call. -/
def perform (s : Instance) (m : Mutation) : Instance :=
  match m.checkOwnership with
  | .error _ => s
  | .ok () =>
      if m.request.encodable = false then s
      else
        match m.prepare s.store with
        | .error _ => s.refuse m []
        | .ok p =>
            match m.save s.store p with
            | .error _ => s.refuse m (m.recordEntityWrites s.store p.entities)
            | .ok next =>
                if m.persists then
                  { store := next,
                    receipts := s.receipts ++
                      [m.receipt true (m.recordEntityWrites s.store p.entities)] }
                else s

/-- Everything that a call can do to an instance. -/
inductive Performed (s : Instance) (m : Mutation) : Instance → Prop
  | unchanged : Performed s m s
  | refused : m.persists = true → Performed s m
      { s with receipts := s.receipts ++ [m.receipt false []] }
  | rolledBack {p : PreparedBatch} {e : CoreError} :
      m.checkOwnership = .ok () → m.request.encodable = true →
      m.prepare s.store = .ok p → m.save s.store p = .error e → m.persists = true →
      Performed s m { s with receipts := s.receipts ++
        [m.receipt false (m.recordEntityWrites s.store p.entities)] }
  | committed {p : PreparedBatch} {next : EntityGraph} :
      m.prepare s.store = .ok p → m.save s.store p = .ok next → m.persists = true →
      Performed s m { store := next, receipts := s.receipts ++
        [m.receipt true (m.recordEntityWrites s.store p.entities)] }

theorem performed (s : Instance) (m : Mutation) : Performed s m (perform s m) := by
  unfold perform Instance.refuse
  split
  · exact .unchanged
  · rename_i howned
    split
    · exact .unchanged
    · rename_i henc
      rw [Bool.not_eq_false] at henc
      split
      · split_ifs with hp
        · exact .refused hp
        · exact .unchanged
      · rename_i p hprep
        split
        · rename_i e hsave
          split_ifs with hp
          · exact .rolledBack howned henc hprep hsave hp
          · exact .unchanged
        · rename_i next hsave
          split_ifs with hp
          · exact .committed hprep hsave hp
          · exact .unchanged

section OneEntity
variable {w : WriteContext} {g : EntityGraph} {t i : String}

theorem writeEntity_wellFormed (hg : WellFormed g) (v : ValidatedEntity) :
    WellFormed (writeEntity g v) := by
  cases hu : v.isUpdate with
  | true =>
    rw [writeEntity_update g v hu]
    unfold EntityGraph.modifyNode
    split
    · exact hg
    · rename_i d hd
      exact hg.setNode (hg.keyed _ d hd)
  | false =>
    simp only [writeEntity, hu, Bool.false_eq_true, if_false, EntityGraph.addEntity]
    exact hg.setNode rfl

variable {v : ValidatedEntity} {h next : EntityGraph} {b b' : EntityBatch}
  {es : List EntityInstance} {reference : EntityBatch → EntityGraph} {m : Mutation}
  {p : PreparedBatch}

theorem writeEntity_of_ne {n : NodeId} (hn : v.entity.nodeId ≠ n) :
    (writeEntity g v).nodes.get? n = g.nodes.get? n := by
  cases hu : v.isUpdate with
  | true =>
    rw [writeEntity_update g v hu]
    unfold EntityGraph.modifyNode
    split
    · rfl
    · exact Dict.get?_set_of_ne _ _ hn
  | false =>
    simp only [writeEntity, hu, Bool.false_eq_true, if_false, EntityGraph.addEntity]
    exact Dict.get?_set_of_ne _ _ hn

/-- The record that a validated member leaves on its node. -/
def writtenRecord (previous : Option EntityInstance) (v : ValidatedEntity) : EntityInstance :=
  match previous with
  | some d => overwrite d v.entity
  | none => v.entity

theorem writeEntity_self (hv : v.isUpdate = (h.nodes.get? v.entity.nodeId).isSome) :
    (writeEntity h v).nodes.get? v.entity.nodeId =
      some (writtenRecord (h.nodes.get? v.entity.nodeId) v) := by
  cases hd : h.nodes.get? v.entity.nodeId with
  | none =>
    rw [hd] at hv
    simp only [Option.isSome_none] at hv
    simp [writeEntity, hv, EntityGraph.addEntity, writtenRecord]
  | some d =>
    rw [hd] at hv
    simp only [Option.isSome_some] at hv
    simp [writeEntity_update h v hv, EntityGraph.modifyNode, hd, writtenRecord]

/-- Either no member of the call reaches the node, or exactly one does, and the
node holds what that member wrote over the loaded record. -/
inductive NodeEffect (w : WriteContext) (g : EntityGraph) (t i : String)
    (validated : List ValidatedEntity) (entities : List EntityInstance)
    (result : Option EntityInstance) : Prop
  | untouched : (∀ v ∈ validated, v.entity.nodeId ≠ makeNodeId t i) →
      result = g.nodes.get? (makeNodeId t i) → NodeEffect w g t i validated entities result
  | written {pre post : List ValidatedEntity} {v : ValidatedEntity} {e : EntityInstance} :
      validated = pre ++ v :: post →
      (∀ x ∈ pre ++ post, x.entity.nodeId ≠ makeNodeId t i) →
      e ∈ entities → e.nodeId = makeNodeId t i →
      validateEntity w g e.entityType e.entityId e.properties e.metadata = .ok v →
      v.entity.entityType = t → v.entity.entityId = i →
      v.isUpdate = (g.nodes.get? (makeNodeId t i)).isSome →
      result = some (writtenRecord (g.nodes.get? (makeNodeId t i)) v) →
      NodeEffect w g t i validated entities result

theorem NodeEffect.cons {validated : List ValidatedEntity} {entities : List EntityInstance}
    {result : Option EntityInstance} (h : NodeEffect w g t i validated entities result)
    {v : ValidatedEntity} (hv : v.entity.nodeId ≠ makeNodeId t i) (e : EntityInstance) :
    NodeEffect w g t i (v :: validated) (e :: entities) result := by
  cases h with
  | untouched hskip hres =>
    refine .untouched ?_ hres
    intro x hx
    rcases List.mem_cons.mp hx with rfl | hx
    · exact hv
    · exact hskip x hx
  | @written pre post x e' hsplit hskip hmem hnode hval ht hi hup hres =>
    refine @NodeEffect.written _ _ _ _ _ _ _ (v :: pre) post x e' ?_ ?_
      (List.mem_cons_of_mem e hmem) hnode hval ht hi hup hres
    · rw [hsplit, List.cons_append]
    · intro y hy
      rw [List.cons_append] at hy
      rcases List.mem_cons.mp hy with rfl | hy
      · exact hv
      · exact hskip y hy

/-- Validation reads the graph only at the member's node. -/
theorem validateEntity_congr {e : EntityInstance}
    (hn : h.nodes.get? e.nodeId = g.nodes.get? e.nodeId) :
    validateEntity w h e.entityType e.entityId e.properties e.metadata =
      validateEntity w g e.entityType e.entityId e.properties e.metadata := by
  have hhas : h.hasEntity e.entityType e.entityId = g.hasEntity e.entityType e.entityId := by
    unfold EntityGraph.hasEntity EntityGraph.getEntity
    exact congrArg Option.isSome hn
  simp only [validateEntity, hhas]

theorem validateEntity_spelling {p : Properties} {m : EntityMetadata}
    (hv : validateEntity w h t i p m = .ok v) :
    v.entity.entityType = t ∧ v.entity.entityId = i := by
  unfold validateEntity at hv
  split at hv
  · cases hv
  · split_ifs at hv
    simp only at hv
    split at hv
    · cases hv
    · split_ifs at hv
      rw [Except.ok.injEq] at hv
      subst hv
      exact ⟨rfl, rfl⟩

theorem adds_skip (h : Adds w reference b es b') (hseen : (t, i) ∈ b.seen)
    (hspell : ∀ e ∈ es, e.nodeId = makeNodeId t i → (e.entityType, e.entityId) = (t, i)) :
    b'.graph.nodes.get? (makeNodeId t i) = b.graph.nodes.get? (makeNodeId t i) ∧
      ∃ vs, b'.validated = b.validated ++ vs ∧ ∀ v ∈ vs, v.entity.nodeId ≠ makeNodeId t i := by
  induction h with
  | nil => exact ⟨rfl, [], by simp, by simp⟩
  | @cons b mid b' e es v hfresh hmidseen hv hgraph hvalidated _ ih =>
    obtain ⟨hnode, vs, hvs, hne⟩ := ih (by simp [hmidseen, hseen])
      fun x hx => hspell x (List.mem_cons_of_mem e hx)
    have hen : v.entity.nodeId ≠ makeNodeId t i := by
      intro hn
      rw [(validateEntity_ok hv).1] at hn
      have hkey := hspell e List.mem_cons_self hn
      rw [hkey] at hfresh
      exact hfresh hseen
    refine ⟨?_, v :: vs, ?_, ?_⟩
    · rw [hnode, hgraph, writeEntity_of_ne hen]
    · rw [hvs, hvalidated, List.append_assoc, List.singleton_append]
    · intro x hx
      rcases List.mem_cons.mp hx with rfl | hx
      · exact hen
      · exact hne x hx

theorem adds_node (h : Adds w reference b es b')
    (href : ∀ b : EntityBatch, b.graph.nodes.get? (makeNodeId t i) =
        g.nodes.get? (makeNodeId t i) →
      (reference b).nodes.get? (makeNodeId t i) = g.nodes.get? (makeNodeId t i))
    (hb : b.graph.nodes.get? (makeNodeId t i) = g.nodes.get? (makeNodeId t i))
    (hspell : ∀ e ∈ es, e.nodeId = makeNodeId t i → (e.entityType, e.entityId) = (t, i)) :
    ∃ vs, b'.validated = b.validated ++ vs ∧
      NodeEffect w g t i vs es (b'.graph.nodes.get? (makeNodeId t i)) := by
  induction h with
  | nil => exact ⟨[], by simp, .untouched (by simp) hb⟩
  | @cons b mid b' e es v hfresh hmidseen hv hgraph hvalidated hrest ih =>
    have hspell' : ∀ x ∈ es, x.nodeId = makeNodeId t i →
        (x.entityType, x.entityId) = (t, i) :=
      fun x hx => hspell x (List.mem_cons_of_mem e hx)
    obtain ⟨hvnode, -, hvup⟩ := validateEntity_ok hv
    by_cases hen : e.nodeId = makeNodeId t i
    · have hkey := hspell e List.mem_cons_self hen
      obtain ⟨hnode, vs, hvs, hne⟩ := adds_skip hrest
        (by rw [hmidseen, hkey]; exact List.mem_cons_self) hspell'
      have hval : validateEntity w g e.entityType e.entityId e.properties e.metadata = .ok v := by
        rw [← hv]
        exact (validateEntity_congr (by rw [hen]; exact href b hb)).symm
      have hspelling := validateEntity_spelling hv
      simp only [Prod.mk.injEq] at hkey
      have hn : v.entity.nodeId = makeNodeId t i := hvnode.trans hen
      have hup : v.isUpdate = (g.nodes.get? (makeNodeId t i)).isSome := by
        rw [(validateEntity_ok hval).2.2, EntityGraph.hasEntity, EntityGraph.getEntity]
        exact congrArg (fun n => (g.nodes.get? n).isSome) hen
      refine ⟨v :: vs, ?_, @NodeEffect.written _ _ _ _ _ _ _ [] vs v e rfl ?_
        List.mem_cons_self hen hval (hspelling.1.trans hkey.1) (hspelling.2.trans hkey.2) hup ?_⟩
      · rw [hvs, hvalidated, List.append_assoc, List.singleton_append]
      · exact hne
      · have hself := writeEntity_self (h := b.graph) (v := v) (by rw [hn, hb]; exact hup)
        rw [hn, hb] at hself
        rw [hnode, hgraph]
        exact hself
    · have hvn : v.entity.nodeId ≠ makeNodeId t i := fun hn => hen (hvnode.symm.trans hn)
      obtain ⟨vs, hvs, heffect⟩ := ih
        (by rw [hgraph, writeEntity_of_ne hvn]; exact hb) hspell'
      refine ⟨v :: vs, ?_, heffect.cons hvn e⟩
      rw [hvs, hvalidated, List.append_assoc, List.singleton_append]

theorem adds_wellFormed (h : Adds w reference b es b') (hb : WellFormed b.graph) :
    WellFormed b'.graph := by
  induction h with
  | nil => exact hb
  | @cons _ _ _ _ _ v _ _ _ hgraph _ _ ih =>
    apply ih
    rw [hgraph]
    exact writeEntity_wellFormed hb v

/-- Both kinds of call run the same loop; they differ in the graph that a member
is validated against. -/
theorem prepare_ok (hok : m.prepare g = .ok p) :
    ∃ reference, (reference = (fun _ => g) ∨ reference = EntityBatch.graph) ∧
      Adds m.w reference { graph := g } m.request.entities p.entities := by
  unfold Mutation.prepare at hok
  split at hok
  · rename_i entities hreq
    obtain ⟨b, hb, hok⟩ := bind_eq_ok.mp hok
    obtain rfl := pure_eq_ok.mp hok
    obtain ⟨hfold, herrors, -⟩ := addEntities_accepted hb
    refine ⟨fun _ => g, .inl rfl, ?_⟩
    simpa only [hreq, EntityRequest.entities] using (adds_of_foldlM hfold herrors).2
  · rename_i source sourceRef entities requests hreq
    obtain ⟨rb, proposed, drifts, -, haccepted⟩ := prepareBatch_accepted hok
    refine ⟨EntityBatch.graph, .inr rfl, ?_⟩
    simpa only [hreq, EntityRequest.entities] using
      (adds_of_foldlM haccepted.folded haccepted.entityErrors).2

theorem prepare_wellFormed (hok : m.prepare g = .ok p) (hg : WellFormed g) :
    WellFormed p.entities.graph := by
  obtain ⟨reference, -, hadds⟩ := prepare_ok hok
  exact adds_wellFormed hadds hg

theorem prepare_node (hok : m.prepare g = .ok p)
    (hspell : ∀ e ∈ m.request.entities, e.nodeId = makeNodeId t i →
      (e.entityType, e.entityId) = (t, i)) :
    NodeEffect m.w g t i p.entities.validated m.request.entities
      (p.entities.graph.nodes.get? (makeNodeId t i)) := by
  obtain ⟨reference, href, hadds⟩ := prepare_ok hok
  have hreads : ∀ b : EntityBatch, b.graph.nodes.get? (makeNodeId t i) =
        g.nodes.get? (makeNodeId t i) →
      (reference b).nodes.get? (makeNodeId t i) = g.nodes.get? (makeNodeId t i) := by
    intro b hb
    rcases href with rfl | rfl
    · rfl
    · exact hb
  obtain ⟨vs, hvs, heffect⟩ := adds_node hadds hreads rfl hspell
  rw [hvs]
  exact heffect

theorem touchedEntities_rows (hb : WellFormed b.graph) :
    ∀ r ∈ touchedEntities b, b.graph.nodes.get? r.nodeId = some r := by
  intro r hr
  obtain ⟨v, -, hget⟩ := List.mem_filterMap.mp hr
  rw [hb.keyed _ r hget]
  exact hget

variable {store : EntityGraph}

theorem save_get? (hwell : WellFormed p.entities.graph) (hsave : m.save store p = .ok next)
    (n : NodeId) :
    next.nodes.get? n =
      if n ∈ (touchedEntities p.entities).map EntityInstance.nodeId
      then p.entities.graph.nodes.get? n else store.nodes.get? n := by
  unfold Mutation.save at hsave
  obtain ⟨applied, -, hsave⟩ := bind_eq_ok.mp hsave
  obtain ⟨d, hd, hsave⟩ := bind_eq_ok.mp hsave
  rw [upsertRelationships_nodes hsave, upsertEntities_get? hd (touchedEntities_rows hwell)]

theorem save_wellFormed (hsave : m.save store p = .ok next) (hstore : WellFormed store) :
    WellFormed next := by
  unfold Mutation.save at hsave
  obtain ⟨applied, -, hsave⟩ := bind_eq_ok.mp hsave
  obtain ⟨d, hd, hsave⟩ := bind_eq_ok.mp hsave
  exact upsertRelationships_wellFormed hsave (upsertEntities_wellFormed hd hstore)

theorem mem_touchedEntities (hb : WellFormed b.graph) (hv : v ∈ b.validated) {d : EntityInstance}
    (hd : b.graph.getEntity v.entity.entityType v.entity.entityId = some d) :
    makeNodeId v.entity.entityType v.entity.entityId ∈
      (touchedEntities b).map EntityInstance.nodeId :=
  List.mem_map.mpr ⟨d, List.mem_filterMap.mpr ⟨v, hv, hd⟩, hb.keyed _ _ hd⟩

theorem save_node (hok : m.prepare g = .ok p) (hsave : m.save g p = .ok next) (hg : WellFormed g)
    (heffect : NodeEffect m.w g t i p.entities.validated m.request.entities
      (p.entities.graph.nodes.get? (makeNodeId t i))) :
    WellFormed next ∧
      next.nodes.get? (makeNodeId t i) = p.entities.graph.nodes.get? (makeNodeId t i) := by
  have hwell := prepare_wellFormed hok hg
  refine ⟨save_wellFormed hsave hg, ?_⟩
  rw [save_get? hwell hsave]
  split_ifs with hn
  · rfl
  · cases heffect with
    | untouched _ hres => exact hres.symm
    | @written pre post v e hsplit _ _ _ _ ht hi _ hres =>
      exfalso
      apply hn
      have hrow := mem_touchedEntities hwell (v := v) (by simp [hsplit])
        (by rw [EntityGraph.getEntity, ht, hi]; exact hres)
      rw [ht, hi] at hrow
      exact hrow

end OneEntity

end Cruxible.MutationReceipts
