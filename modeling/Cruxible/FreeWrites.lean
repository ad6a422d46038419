import Cruxible.GovernedWrites
import Cruxible.WorkflowApply

/-!
# Free writes and their lifecycle frame

All writers of the graph that are not lifecycle verbs, as one request type. The
frame theorem says what any of them does to lifecycle slices: for a class of
slices that fresh records do not belong to, a record in the class keeps its
slice, and no record joins the class, as long as the request carries no typed
lifecycle for a stored record of the class.
-/
namespace Cruxible.FreeWrites
open JsonValue PythonDict AssertionState AppendOnly Fallible Cruxible.Graph PropertyValidation
open GraphOperations GroupDrift DirectWrites Feedback GovernedWrites WorkflowApply

/-- What the process supplies to one call. -/
structure Environment where
  w : WriteContext
  guards : Guards
  workflowGuards : WorkflowGuards
  profiles : Dict String FeedbackProfileSchema := ∅
  graphWrite : Bool := true
  call : Call := {}

inductive FreeWrite where
  | addEntities (entities : List EntityInstance)
  | addRelationships (source sourceRef : String) (requests : List RelationshipRequest)
  | batchDirectWrite (source sourceRef : String) (entities : List EntityInstance)
      (requests : List RelationshipRequest)
  | feedback (requests : List FeedbackRequest)
  | attest (observation : Observation)
  | approveGroup (relationshipType groupId resolutionId : String) (members : List ApprovalMember)
      (stampExisting : Bool)
  | applyEntities (stepId : String) (set : EntitySet)
  | applyRelationships (workflowName stepId : String) (mint : Nat → String)
      (set : RelationshipSet)

/-- The graph that an accepted write persists. -/
def FreeWrite.apply (env : Environment) (g : EntityGraph) : FreeWrite → Except CoreError EntityGraph
  | .addEntities entities => do
      let b ← serviceAddEntities env.w env.guards g entities
      return b.graph
  | .addRelationships source sourceRef requests => do
      let s ← serviceAddRelationships env.w env.guards g source sourceRef requests env.call
      return s.graph
  | .batchDirectWrite source sourceRef entities requests => do
      let (_, s) ← serviceBatchDirectWrite env.w env.guards g source sourceRef entities requests
        env.call
      return s.graph
  | .feedback requests =>
      serviceFeedback env.w env.profiles env.graphWrite g requests env.call
  | .attest observation => serviceAttest env.w g observation env.call
  | .approveGroup relationshipType groupId resolutionId members stampExisting =>
      approveGroupEdges env.w env.guards g relationshipType groupId (some resolutionId) members
        stampExisting env.call
  | .applyEntities stepId set => do
      let (h, _) ← applyEntitySet env.w env.workflowGuards stepId env.call g set
      return h
  | .applyRelationships workflowName stepId mint set => do
      let (h, _) ← applyRelationshipSet env.w env.workflowGuards workflowName stepId env.call mint
        g set
      return h

/-- The entity members of a write that can carry a typed lifecycle. -/
def FreeWrite.entities : FreeWrite → List EntityInstance
  | .addEntities entities => entities
  | .batchDirectWrite _ _ entities _ => entities
  | _ => []

/-- The relationship members of a write that can carry a typed lifecycle. -/
def FreeWrite.requests : FreeWrite → List RelationshipRequest
  | .addRelationships _ _ requests => requests
  | .batchDirectWrite _ _ _ requests => requests
  | _ => []

section Frame
variable (KE : Option EntityLifecycleState → Prop) (KR : RelationshipLifecycleState → Prop)

/-- A record of the class keeps its slice and none joins; identities stay. -/
def lifecycleFrame : Frame where
  node d d' := (KE d.metadata.lifecycle → d'.metadata.lifecycle = d.metadata.lifecycle) ∧
    (KE d'.metadata.lifecycle → KE d.metadata.lifecycle)
  newNode d := ¬KE d.metadata.lifecycle
  edge e e' := (e'.claimId = e.claimId ∧ e'.fromNode = e.fromNode ∧ e'.toNode = e.toNode ∧
      e'.key = e.key ∧ e'.relationshipType = e.relationshipType) ∧
    (KR e.lifecycle → e'.lifecycle = e.lifecycle) ∧ (KR e'.lifecycle → KR e.lifecycle)
  newEdge e := ¬KR e.lifecycle
  node_refl := fun _ => ⟨fun _ => rfl, id⟩
  node_trans := by
    rintro a b c ⟨hab, hba⟩ ⟨hbc, hcb⟩
    refine ⟨?_, hba ∘ hcb⟩
    intro ha
    have hb := hab ha
    rw [hbc (hb ▸ ha), hb]
  newNode_node := fun hnew hab hb => hnew (hab.2 hb)
  edge_refl := fun _ => ⟨⟨rfl, rfl, rfl, rfl, rfl⟩, fun _ => rfl, id⟩
  edge_trans := by
    rintro a b c ⟨⟨i₁, i₂, i₃, i₄, i₅⟩, hab, hba⟩ ⟨⟨j₁, j₂, j₃, j₄, j₅⟩, hbc, hcb⟩
    refine ⟨⟨j₁.trans i₁, j₂.trans i₂, j₃.trans i₃, j₄.trans i₄, j₅.trans i₅⟩, ?_, hba ∘ hcb⟩
    intro ha
    have hb := hab ha
    rw [hbc (hb ▸ ha), hb]
  newEdge_edge := fun hnew hab hb => hnew (hab.2.2 hb)

/-- The request carries no typed lifecycle for a stored entity of the class, and
a writable one that it carries is outside the class. -/
def EntityFree (g : EntityGraph) (e : EntityInstance) : Prop :=
  ∀ l, e.metadata.lifecycle = some l →
    (l.status = .live → ¬KE (some l)) ∧
    ∀ d, g.nodes.get? e.nodeId = some d → ¬KE d.metadata.lifecycle

/-- The same for the first stored edge of a tuple. -/
def RelationshipFree (g : EntityGraph) (r : RelationshipInstance)
    (lifecycle : Option RelationshipLifecycleState) : Prop :=
  ∀ l, lifecycle = some l →
    (l.status.terminal = false → ¬KR l) ∧
    ∀ e, g.findRelationshipEdge r.fromType r.fromId r.toType r.toId r.relationshipType = some e →
      ¬KR e.lifecycle

/-- Every member of a free write is free of the class. -/
structure Respects (g : EntityGraph) (f : FreeWrite) : Prop where
  entities : ∀ e ∈ f.entities, EntityFree KE g e
  relationships : ∀ q ∈ f.requests, RelationshipFree KR g q.edge q.lifecycle

end Frame

section Evolves
variable {KE : Option EntityLifecycleState → Prop} {KR : RelationshipLifecycleState → Prop}
  {g₀ g h : EntityGraph} (hg : Evolves (lifecycleFrame KE KR) g₀ g)

include hg in
theorem node_outside {n : NodeId}
    (hbase : ∀ d, g₀.nodes.get? n = some d → ¬KE d.metadata.lifecycle) :
    ∀ d, g.nodes.get? n = some d → ¬KE d.metadata.lifecycle := by
  intro d hd
  cases h₀ : g₀.nodes.get? n with
  | none => exact hg.newNodes n d h₀ hd
  | some d₀ =>
    obtain ⟨d', hd', hr⟩ := hg.nodes n d₀ h₀
    obtain rfl : d = d' := by
      rw [hd] at hd'
      exact Option.some.inj hd'
    exact fun hK => hbase d₀ h₀ (hr.2 hK)

theorem edgeMatches_congr {e e' : EdgeData} (hf : e'.fromNode = e.fromNode)
    (ht : e'.toNode = e.toNode) (hk : e'.key = e.key)
    (hr : e'.relationshipType = e.relationshipType) (a b : NodeId) (r : String) (key : Option Nat) :
    EntityGraph.edgeMatches a b r key e' = EntityGraph.edgeMatches a b r key e := by
  simp only [EntityGraph.edgeMatches, hf, ht, hk, hr]

include hg in
theorem edge_outside {ft fi tt ti r : String} {key : Option Nat}
    (hbase : ∀ e, g₀.findRelationshipEdge ft fi tt ti r key = some e → ¬KR e.lifecycle) :
    ∀ e, g.findRelationshipEdge ft fi tt ti r key = some e → ¬KR e.lifecycle := by
  intro e he
  have hmatch : ∀ a b, (lifecycleFrame KE KR).edge a b →
      EntityGraph.edgeMatches (makeNodeId ft fi) (makeNodeId tt ti) r key b =
        EntityGraph.edgeMatches (makeNodeId ft fi) (makeNodeId tt ti) r key a :=
    fun a b hab => edgeMatches_congr hab.1.2.1 hab.1.2.2.1 hab.1.2.2.2.1 hab.1.2.2.2.2 _ _ _ _
  rcases hg.edges.find?_right hmatch he with ⟨x, hx, hxe⟩ | hnew
  · exact fun hK => hbase x hx (hxe.2.2 hK)
  · exact hnew

variable {v : ValidatedEntity} {w : WriteContext}

section
include hg

theorem evolves_freeEntity (hE : ¬KE none) (hfree : EntityFree KE g₀ v.entity)
    (hlive : ∀ l, v.entity.metadata.lifecycle = some l → l.status = .live)
    (hcreate : v.isUpdate = false → g₀.nodes.get? v.entity.nodeId = none) :
    Evolves (lifecycleFrame KE KR) g₀ (writeEntity g v) := by
  apply evolves_writeEntity hg v
  · intro hu d hd
    cases hl : v.entity.metadata.lifecycle with
    | none => simp [lifecycleFrame, overwrite, EntityMetadata.merge, hl]
    | some l =>
      have hout := node_outside hg (hfree l hl).2 d hd
      have hnew := (hfree l hl).1 (hlive l hl)
      simp [lifecycleFrame, overwrite, EntityMetadata.merge, hl, hout, hnew]
  · intro hu
    refine ⟨hcreate hu, ?_⟩
    cases hl : v.entity.metadata.lifecycle with
    | none => simpa [lifecycleFrame, hl] using hE
    | some l =>
      have hnew := (hfree l hl).1 (hlive l hl)
      simpa [lifecycleFrame, hl] using hnew

theorem evolves_applyEntity (hE : ¬KE none) {source : String}
    {warning : Option EntityIdentityWarning}
    (hok : applyEntity w g v source false = .ok (h, warning)) (hfree : EntityFree KE g₀ v.entity)
    (hcreate : v.isUpdate = false → g₀.nodes.get? v.entity.nodeId = none) :
    Evolves (lifecycleFrame KE KR) g₀ h := by
  obtain ⟨rfl, -, -, hterminal⟩ := applyEntity_ok hok
  exact evolves_freeEntity hg hE hfree (refuseTerminal_entity hterminal) hcreate

theorem evolves_freeRelationship (hE : ¬KE none) (hR : ¬KR { status := .active })
    {v : ValidatedRelationship} {a : RelationshipWrite} {d : RelationshipInstance}
    (hok : applyRelationship w g v a = .ok (h, d)) (ht : a.trusted = false)
    (hkey : v.relationship.edgeKey = none)
    (hfree : RelationshipFree KR g₀ v.relationship a.lifecycle) :
    Evolves (lifecycleFrame KE KR) g₀ h := by
  have hwritable := applyRelationship_lifecycle hok ht
  apply evolves_applyRelationship hg hok
  · intro _ e he
    rw [hkey] at he
    refine ⟨⟨rfl, rfl, rfl, rfl, rfl⟩, ?_⟩
    cases hl : a.lifecycle with
    | none => simp [EdgeData.lifecycle, updatedEdge, updatedMetadata, hl]
    | some l =>
      have hout : ¬KR e.lifecycle := edge_outside hg (hfree l hl).2 e he
      have hnew := (hfree l hl).1 (hwritable l hl)
      have hslice : (updatedEdge v.relationship a e).lifecycle = l := by
        simp [EdgeData.lifecycle, updatedEdge, updatedMetadata, hl]
      rw [hslice]
      exact ⟨fun hK => absurd hK hout, fun hK => absurd hK hnew⟩
  · intro _ _ k
    change ¬KR (createdEdge k v.relationship a).lifecycle
    cases hl : a.lifecycle with
    | none =>
      have hslice : (createdEdge k v.relationship a).lifecycle = { status := .active } := by
        simp only [EdgeData.lifecycle, createdEdge, createdMetadata, initialAssertion, hl]
        split_ifs <;> rfl
      rw [hslice]
      exact hR
    | some l =>
      have hslice : (createdEdge k v.relationship a).lifecycle = l := by
        simp [EdgeData.lifecycle, createdEdge, createdMetadata, hl]
      rw [hslice]
      exact (hfree l hl).1 (hwritable l hl)
  · intro t i
    exact hE

theorem evolves_keepLifecycle (a b c d r : String) (key : Option Nat) {f : EdgeData → EdgeData}
    (hid : ∀ e, (f e).claimId = e.claimId ∧ (f e).fromNode = e.fromNode ∧
      (f e).toNode = e.toNode ∧ (f e).key = e.key ∧ (f e).relationshipType = e.relationshipType)
    (hlife : ∀ e, (f e).lifecycle = e.lifecycle) :
    Evolves (lifecycleFrame KE KR) g₀ (g.modifyEdge a b c d r key f) := by
  apply hg.trans
  apply Evolves.modifyEdge
  · exact fun e => (hid e).1
  · exact fun e => (hid e).2.2.2.1
  · intro e _
    exact ⟨hid e, fun _ => hlife e, fun hK => hlife e ▸ hK⟩

theorem evolves_stampDrift (r : RelationshipInstance) (drift : Option GroupContentDrift)
    (receiptId : Option String) (actorContext : Option GovernedActorContext) (now : Timestamp) :
    Evolves (lifecycleFrame KE KR) g₀
      (stampGroupApprovalDrift g r drift receiptId actorContext now) := by
  obtain ⟨f, hsame | hrewrite⟩ :=
    stampGroupApprovalDrift_eq g r drift receiptId actorContext now
  · rw [hsame]
    exact hg
  · rw [hrewrite]
    exact evolves_keepLifecycle hg _ _ _ _ _ _ (fun _ => ⟨rfl, rfl, rfl, rfl, rfl⟩)
      (fun _ => rfl)

end

end Evolves

section Writers
variable {KE : Option EntityLifecycleState → Prop} {KR : RelationshipLifecycleState → Prop}
  {g₀ g h : EntityGraph}

theorem hasEntity_eq_false {t i : String} :
    g.hasEntity t i = false ↔ g.nodes.get? (makeNodeId t i) = none := by
  simp [EntityGraph.hasEntity, EntityGraph.getEntity]

theorem absent_of_evolves {F : Frame} (hg : Evolves F g₀ g) {n : NodeId}
    (hn : g.nodes.get? n = none) : g₀.nodes.get? n = none := by
  cases h₀ : g₀.nodes.get? n with
  | none => rfl
  | some d =>
    obtain ⟨d', hd', -⟩ := hg.nodes n d h₀
    rw [hn] at hd'
    cases hd'

variable {source sourceRef : String} {w : WriteContext} {guards : Guards} {c : Call} {t : Applied}
  {b : EntityBatch} {hint label stepId : String}

theorem evolves_addEntityMember {reference : EntityBatch → EntityGraph} {b' : EntityBatch}
    {member : Nat × EntityInstance} (hok : addEntityMember w source reference b member = .ok b')
    (hE : ¬KE none) (hg : Evolves (lifecycleFrame KE KR) g₀ b.graph)
    (hfree : EntityFree KE g₀ member.2)
    (href : ∀ n, (reference b).nodes.get? n = none → g₀.nodes.get? n = none) :
    Evolves (lifecycleFrame KE KR) g₀ b'.graph := by
  obtain ⟨i, e⟩ := member
  rcases addEntityMember_cases hok with ⟨error, rfl⟩ | ⟨-, v, k, warning, hv, hk, rfl⟩
  · exact hg
  · obtain ⟨hnode, hmeta, hupdate⟩ := validateEntity_ok hv
    apply evolves_applyEntity hg hE hk
    · intro l hl
      have hfreeL := hfree l (hmeta ▸ hl)
      rw [hnode]
      exact hfreeL
    · intro hu
      rw [hnode]
      exact href _ (hasEntity_eq_false.mp (hupdate ▸ hu))

theorem evolves_serviceAddEntities {entities : List EntityInstance}
    (hok : serviceAddEntities w guards g entities = .ok b) (hE : ¬KE none)
    (hfree : ∀ e ∈ entities, EntityFree KE g e) : Evolves (lifecycleFrame KE KR) g b.graph := by
  obtain ⟨hfold, -⟩ := addEntities_accepted hok
  apply foldlM_invariant (fun b => Evolves (lifecycleFrame KE KR) g b.graph) _ _ hfold
  · exact Evolves.refl _ g
  · intro p hp b b'' hb hstep
    have hmem : p.1 ∈ entities := (List.mem_zipIdx hp).2.2 ▸ List.getElem_mem _
    exact evolves_addEntityMember hstep hE hb (hfree p.1 hmem) (fun _ => id)

/-- What the validation loop knows of a member it let through. -/
structure Prepared (requests : List RelationshipRequest) (p : PreparedRelationship) : Prop where
  requested : p.request ∈ requests
  tuple : p.validated.relationship.identityTuple = p.request.edge.identityTuple
  noKey : p.validated.relationship.edgeKey = none

theorem prepared_of_member {requests : List RelationshipRequest} {b b' : RelationshipBatch}
    {member : Nat × RelationshipRequest}
    (hok : prepareRelationshipMember w label hint g b member = .ok b') (hmem : member.2 ∈ requests)
    (hb : ∀ p ∈ b.prepared, Prepared requests p) : ∀ p ∈ b'.prepared, Prepared requests p := by
  obtain ⟨i, q⟩ := member
  rcases prepareRelationshipMember_cases hok with ⟨error, rfl⟩ | ⟨-, v, hv, -, rfl⟩
  · exact hb
  · obtain ⟨htuple, hkey, -, -⟩ := validateRelationship_ok hv
    intro p hp
    rcases List.mem_append.mp hp with hp | hp
    · exact hb p hp
    · rw [List.mem_singleton.mp hp]
      exact ⟨hmem, htuple, hkey⟩

theorem prepareRelationships_ok {requests : List RelationshipRequest} {b : RelationshipBatch}
    (hok : prepareRelationships w label hint g requests = .ok b) :
    ∀ p ∈ b.prepared, Prepared requests p := by
  unfold prepareRelationships at hok
  apply foldlM_invariant (fun b : RelationshipBatch => ∀ p ∈ b.prepared, Prepared requests p) _ _ hok
  · simp
  · intro p hp b b' hb hstep
    have hmem : p.1 ∈ requests := (List.mem_zipIdx hp).2.2 ▸ List.getElem_mem _
    exact prepared_of_member hstep hmem hb

theorem relationshipFree_of_tuple {r r' : RelationshipInstance}
    {lifecycle : Option RelationshipLifecycleState} (h : r'.identityTuple = r.identityTuple)
    (hfree : RelationshipFree KR g r lifecycle) : RelationshipFree KR g r' lifecycle := by
  simp only [RelationshipInstance.identityTuple, Prod.mk.injEq] at h
  obtain ⟨h₁, h₂, h₃, h₄, h₅⟩ := h
  simpa only [RelationshipFree, h₁, h₂, h₃, h₄, h₅] using hfree

theorem evolves_applyPrepared {requests : List RelationshipRequest}
    {m : PreparedRelationship × Option GroupContentDrift} {s : Applied}
    (hok : applyPrepared w source sourceRef c s m = .ok t) (hE : ¬KE none)
    (hR : ¬KR { status := .active }) (hg : Evolves (lifecycleFrame KE KR) g₀ s.graph)
    (hm : Prepared requests m.1) (hfree : ∀ q ∈ requests, RelationshipFree KR g₀ q.edge q.lifecycle) :
    Evolves (lifecycleFrame KE KR) g₀ t.graph := by
  unfold applyPrepared at hok
  obtain ⟨⟨k, d⟩, hk, hok⟩ := bind_eq_ok.mp hok
  rw [pure_eq_ok] at hok
  rw [← hok]
  apply evolves_stampDrift
  apply evolves_freeRelationship hg hE hR hk rfl hm.noKey
  exact relationshipFree_of_tuple hm.tuple (hfree _ hm.requested)

theorem evolves_applyAllPrepared {requests : List RelationshipRequest}
    {ms : List (PreparedRelationship × Option GroupContentDrift)}
    (hok : applyAllPrepared w source sourceRef c g ms = .ok t) (hE : ¬KE none)
    (hR : ¬KR { status := .active }) (hg : Evolves (lifecycleFrame KE KR) g₀ g)
    (hm : ∀ m ∈ ms, Prepared requests m.1)
    (hfree : ∀ q ∈ requests, RelationshipFree KR g₀ q.edge q.lifecycle) :
    Evolves (lifecycleFrame KE KR) g₀ t.graph := by
  unfold applyAllPrepared at hok
  apply foldlM_invariant (fun s : Applied => Evolves (lifecycleFrame KE KR) g₀ s.graph) hg _ hok
  intro m hmem a b ha hstep
  exact evolves_applyPrepared hstep hE hR ha (hm m hmem) hfree

theorem prepared_zip {requests : List RelationshipRequest} {ps : List PreparedRelationship}
    {ds : List (Option GroupContentDrift)} (hp : ∀ p ∈ ps, Prepared requests p) :
    ∀ m ∈ ps.zip ds, Prepared requests m.1 := by
  rintro ⟨p, d⟩ hm
  exact hp p (List.of_mem_zip hm).1

theorem evolves_serviceAddRelationships {requests : List RelationshipRequest}
    (hok : serviceAddRelationships w guards g source sourceRef requests c = .ok t) (hE : ¬KE none)
    (hR : ¬KR { status := .active })
    (hfree : ∀ q ∈ requests, RelationshipFree KR g q.edge q.lifecycle) :
    Evolves (lifecycleFrame KE KR) g t.graph := by
  obtain ⟨-, b, drifts, hb, -, -, hall⟩ := addRelationships_accepted hok
  exact evolves_applyAllPrepared hall hE hR (Evolves.refl _ g)
    (prepared_zip (prepareRelationships_ok hb)) hfree

theorem evolves_serviceBatchDirectWrite {entities : List EntityInstance}
    {requests : List RelationshipRequest} {eb : EntityBatch}
    (hok : serviceBatchDirectWrite w guards g source sourceRef entities requests c = .ok (eb, t))
    (hE : ¬KE none) (hR : ¬KR { status := .active }) (hentities : ∀ e ∈ entities, EntityFree KE g e)
    (hrequests : ∀ q ∈ requests, RelationshipFree KR g q.edge q.lifecycle) :
    Evolves (lifecycleFrame KE KR) g t.graph := by
  obtain ⟨rb, proposed, drifts, hk, haccepted⟩ := batch_accepted hok
  have hmid : Evolves (lifecycleFrame KE KR) g eb.graph := by
    apply foldlM_invariant (fun b => Evolves (lifecycleFrame KE KR) g b.graph) _ _ haccepted.folded
    · exact Evolves.refl _ g
    · intro p hp b b'' hb hstep
      have hmem : p.1 ∈ entities := (List.mem_zipIdx hp).2.2 ▸ List.getElem_mem _
      exact evolves_addEntityMember hstep hE hb (hentities p.1 hmem)
        (fun _ hn => absent_of_evolves hb hn)
  exact evolves_applyAllPrepared hk hE hR hmid
    (prepared_zip (prepareRelationships_ok haccepted.prepared)) hrequests

theorem evolves_serviceFeedback {profiles : Dict String FeedbackProfileSchema} {graphWrite : Bool}
    {requests : List FeedbackRequest}
    (hok : serviceFeedback w profiles graphWrite g requests c = .ok h) :
    Evolves (lifecycleFrame KE KR) g h := by
  unfold serviceFeedback at hok
  obtain ⟨⟨⟩, -, hok⟩ := bind_eq_ok.mp hok
  obtain ⟨records, -, hok⟩ := bind_eq_ok.mp hok
  obtain ⟨⟨⟩, -, hok⟩ := bind_eq_ok.mp hok
  apply foldlM_invariant (fun k => Evolves (lifecycleFrame KE KR) g k) _ _ hok
  · exact Evolves.refl _ g
  · intro p _ a b ha hstep
    obtain ⟨k, rfl, rfl⟩ := applyFeedbackRecord_ok hstep
    have hverdict := evolves_keepLifecycle ha p.1.target.fromType p.1.target.fromId
      p.1.target.toType p.1.target.toId p.1.target.relationshipType p.1.target.edgeKey
      (f := feedbackEdge p.1 c.now) (fun _ => ⟨rfl, rfl, rfl, rfl, rfl⟩) (fun _ => rfl)
    split_ifs
    · exact evolves_keepLifecycle hverdict _ _ _ _ _ _ (fun _ => ⟨rfl, rfl, rfl, rfl, rfl⟩)
        (fun _ => rfl)
    · exact hverdict

theorem evolves_serviceAttest {o : Observation} (hok : serviceAttest w g o c = .ok h)
    (hE : ¬KE none) (hR : ¬KR { status := .active }) : Evolves (lifecycleFrame KE KR) g h := by
  unfold serviceAttest at hok
  obtain ⟨target, -, hok⟩ := bind_eq_ok.mp hok
  split at hok
  · rw [pure_eq_ok] at hok
    exact hok ▸ Evolves.refl _ g
  · split_ifs at hok
    · obtain ⟨⟨k, created⟩, hk, hok⟩ := bind_eq_ok.mp hok
      obtain rfl := pure_eq_ok.mp hok
      unfold createPendingClaim at hk
      obtain ⟨v, hv, hk⟩ := bind_eq_ok.mp hk
      obtain ⟨-, hkey, -, -⟩ := validateRelationship_ok hv
      split_ifs at hk
      · rw [pure_eq_ok] at hk
        exact (Prod.mk.inj hk).1 ▸ Evolves.refl _ g
      · obtain ⟨⟨k', d⟩, happly, hk⟩ := bind_eq_ok.mp hk
        rw [pure_eq_ok] at hk
        rw [← (Prod.mk.inj hk).1]
        refine evolves_freeRelationship (Evolves.refl _ g) hE hR happly rfl hkey ?_
        intro l hl
        cases hl

variable {members : List ApprovalMember} {s : EntityGraph × Counts}

theorem validInputs_noKey {a : ApprovalValidation}
    (hok : validateApprovalMembers w g members = .ok a) :
    ∀ p ∈ a.validInputs, p.1.relationship.edgeKey = none := by
  unfold validateApprovalMembers at hok
  apply foldlM_invariant
    (fun a : ApprovalValidation => ∀ p ∈ a.validInputs, p.1.relationship.edgeKey = none) _ _ hok
  · simp
  · intro m _ a b ha hstep
    unfold validateApprovalMember at hstep
    simp only at hstep
    split_ifs at hstep
    · rw [Except.ok.injEq] at hstep
      exact hstep ▸ ha
    · split at hstep
      · rw [Except.ok.injEq] at hstep
        exact hstep ▸ ha
      · cases hstep
      · rename_i v hv
        rw [Except.ok.injEq] at hstep
        rw [← hstep]
        intro p hp
        rcases List.mem_append.mp hp with hp | hp
        · exact ha p hp
        · rw [List.mem_singleton.mp hp]
          exact (validateRelationship_ok hv).2.1

theorem evolves_stampExistingEdges (hg : Evolves (lifecycleFrame KE KR) g₀ g)
    (groupId : String) (resolutionId : Option String) (c : Call) (skipped : List RelationshipInstance) :
    Evolves (lifecycleFrame KE KR) g₀
      (skipped.foldl (stampExistingEdge groupId resolutionId c) g) := by
  induction skipped generalizing g with
  | nil => exact hg
  | cons r rs ih =>
    apply ih
    rcases stampExistingEdge_eq groupId resolutionId c g r with hsame | hrewrite
    · rw [hsame]
      exact hg
    · rw [hrewrite]
      exact evolves_keepLifecycle hg _ _ _ _ _ _ (fun _ => ⟨rfl, rfl, rfl, rfl, rfl⟩)
        (fun _ => rfl)

theorem evolves_approveGroupEdges {relationshipType groupId : String} {resolutionId : Option String}
    {stampExisting : Bool}
    (hok : approveGroupEdges w guards g relationshipType groupId resolutionId members
      stampExisting c = .ok h) (hE : ¬KE none) (hR : ¬KR { status := .active }) :
    Evolves (lifecycleFrame KE KR) g h := by
  unfold approveGroupEdges at hok
  obtain ⟨⟨⟩, -, hok⟩ := bind_eq_ok.mp hok
  obtain ⟨a, ha, hok⟩ := bind_eq_ok.mp hok
  obtain ⟨⟨⟩, -, hok⟩ := bind_eq_ok.mp hok
  obtain ⟨k, hk, hok⟩ := bind_eq_ok.mp hok
  have hcreated : Evolves (lifecycleFrame KE KR) g k := by
    unfold applyResolvedRelationships at hk
    apply foldlM_invariant (fun k => Evolves (lifecycleFrame KE KR) g k) _ _ hk
    · exact Evolves.refl _ g
    · intro p hp a b hb hstep
      obtain ⟨⟨b', d⟩, happly, hstep⟩ := bind_eq_ok.mp hstep
      obtain rfl := pure_eq_ok.mp hstep
      refine evolves_freeRelationship hb hE hR happly rfl (validInputs_noKey ha p hp) ?_
      intro l hl
      cases hl
  split_ifs at hok
  · rw [pure_eq_ok] at hok
    exact hok ▸ evolves_stampExistingEdges hcreated groupId resolutionId c a.skippedExisting
  · rw [pure_eq_ok] at hok
    exact hok ▸ hcreated

theorem gather_ok {ι α : Type} {label : ι → String} {validate : ι → Except CoreError α}
    {xs : List ι} {vs : List α} {es : List String}
    (hok : gather label validate xs = .ok (vs, es)) : ∀ v ∈ vs, ∃ x ∈ xs, validate x = .ok v := by
  induction xs generalizing vs es with
  | nil =>
    have hnil : ([] : List α) = vs := congrArg Prod.fst (Except.ok.inj hok)
    simp [← hnil]
  | cons x xs ih =>
    unfold gather at hok
    split at hok
    · obtain ⟨⟨vs', es'⟩, hrest, hok⟩ := bind_eq_ok.mp hok
      rw [pure_eq_ok] at hok
      obtain ⟨rfl, -⟩ := Prod.mk.inj hok
      intro v hv
      obtain ⟨y, hy, hyv⟩ := ih hrest v hv
      exact ⟨y, List.mem_cons_of_mem _ hy, hyv⟩
    · cases hok
    · rename_i v₀ hv₀
      obtain ⟨⟨vs', es'⟩, hrest, hok⟩ := bind_eq_ok.mp hok
      rw [pure_eq_ok] at hok
      obtain ⟨rfl, -⟩ := Prod.mk.inj hok
      intro v hv
      rcases List.mem_cons.mp hv with rfl | hv
      · exact ⟨x, List.mem_cons_self, hv₀⟩
      · obtain ⟨y, hy, hyv⟩ := ih hrest v hv
        exact ⟨y, List.mem_cons_of_mem _ hy, hyv⟩

theorem evolves_applyEntityMember {t : EntityGraph × Counts} {v : ValidatedEntity}
    (hok : applyEntityMember w c s v = .ok t) (hE : ¬KE none)
    (hg : Evolves (lifecycleFrame KE KR) g₀ s.1) (hlife : v.entity.metadata.lifecycle = none) :
    Evolves (lifecycleFrame KE KR) g₀ t.1 := by
  unfold applyEntityMember at hok
  simp only at hok
  split at hok
  · split_ifs at hok
    · obtain ⟨⟨k, warning⟩, hk, hok⟩ := bind_eq_ok.mp hok
      rw [pure_eq_ok] at hok
      rw [← hok]
      apply evolves_applyEntity hg hE hk
      · intro l hl
        rw [show _ = none from hlife] at hl
        cases hl
      · intro hu
        cases hu
    · rw [Except.ok.injEq] at hok
      rw [← hok]
      exact hg
  · rename_i hn
    obtain ⟨⟨k, warning⟩, hk, hok⟩ := bind_eq_ok.mp hok
    rw [pure_eq_ok] at hok
    rw [← hok]
    apply evolves_applyEntity hg hE hk
    · intro l hl
      rw [show _ = none from hlife] at hl
      cases hl
    · intro _
      exact absent_of_evolves hg hn

theorem evolves_applyEntitySet {guards : WorkflowGuards} {set : EntitySet}
    {preview : ApplyEntitiesPreview}
    (hok : applyEntitySet w guards stepId c g set = .ok (h, preview)) (hE : ¬KE none) :
    Evolves (lifecycleFrame KE KR) g h := by
  obtain ⟨validated, hv, -, hfold⟩ := applyEntitySet_accepted hok
  apply foldlM_invariant
    (fun s : EntityGraph × Counts => Evolves (lifecycleFrame KE KR) g s.1) _ _ hfold
  · exact Evolves.refl _ g
  · intro v hvmem a b ha hstep
    obtain ⟨e, -, he⟩ := gather_ok hv v hvmem
    obtain ⟨-, hmeta, -⟩ := validateEntity_ok he
    exact evolves_applyEntityMember hstep hE ha (by rw [hmeta])

theorem evolves_applyRelationshipMember {t : EntityGraph × Counts}
    {m : ValidatedRelationship × String} (hok : applyRelationshipMember w sourceRef c s m = .ok t)
    (hE : ¬KE none) (hR : ¬KR { status := .active }) (hg : Evolves (lifecycleFrame KE KR) g₀ s.1)
    (hkey : m.1.relationship.edgeKey = none) : Evolves (lifecycleFrame KE KR) g₀ t.1 := by
  obtain ⟨k, counts⟩ := s
  obtain ⟨v, minted⟩ := m
  unfold applyRelationshipMember at hok
  simp only at hok
  split at hok
  · obtain ⟨⟨k', d⟩, happly, hok⟩ := bind_eq_ok.mp hok
    rw [pure_eq_ok] at hok
    rw [← hok]
    refine evolves_freeRelationship hg hE hR happly rfl hkey ?_
    intro l hl
    cases hl
  · split_ifs at hok
    · obtain ⟨⟨k', d⟩, happly, hok⟩ := bind_eq_ok.mp hok
      rw [pure_eq_ok] at hok
      rw [← hok]
      apply evolves_stampDrift
      refine evolves_freeRelationship hg hE hR happly rfl hkey ?_
      intro l hl
      cases hl
    · rw [Except.ok.injEq] at hok
      rw [← hok]
      exact hg

theorem evolves_applyRelationshipSet {guards : WorkflowGuards} {workflowName : String}
    {mint : Nat → String} {set : RelationshipSet} {preview : ApplyRelationshipsPreview}
    (hok : applyRelationshipSet w guards workflowName stepId c mint g set = .ok (h, preview))
    (hE : ¬KE none) (hR : ¬KR { status := .active }) : Evolves (lifecycleFrame KE KR) g h := by
  unfold applyRelationshipSet at hok
  obtain ⟨⟨⟩, -, hok⟩ := bind_eq_ok.mp hok
  obtain ⟨⟨validated, errors⟩, hv, hok⟩ := bind_eq_ok.mp hok
  obtain ⟨⟨⟩, -, hok⟩ := bind_eq_ok.mp hok
  obtain ⟨⟨⟩, -, hok⟩ := bind_eq_ok.mp hok
  obtain ⟨⟨k, counts⟩, hfold, hok⟩ := bind_eq_ok.mp hok
  rw [pure_eq_ok] at hok
  obtain ⟨rfl, -⟩ := Prod.mk.inj hok
  apply foldlM_invariant
    (fun s : EntityGraph × Counts => Evolves (lifecycleFrame KE KR) g s.1) _ _ hfold
  · exact Evolves.refl _ g
  · intro m hm a b ha hstep
    obtain ⟨⟨v, i⟩, hvi, rfl⟩ := List.mem_map.mp hm
    have hvmem : v ∈ validated := (List.mem_zipIdx hvi).2.2 ▸ List.getElem_mem _
    obtain ⟨r, -, hr⟩ := gather_ok hv v hvmem
    obtain ⟨v', hv', hr⟩ := bind_eq_ok.mp hr
    rw [pure_eq_ok] at hr
    refine evolves_applyRelationshipMember hstep hE hR ha ?_
    rw [← hr]
    exact (validateRelationship_ok hv').2.1

theorem evolves_freeWrite {env : Environment} {f : FreeWrite} (hok : f.apply env g = .ok h)
    (hE : ¬KE none) (hR : ¬KR { status := .active }) (hfree : Respects KE KR g f) :
    Evolves (lifecycleFrame KE KR) g h := by
  cases f with
  | addEntities entities =>
    obtain ⟨b, hb, hok⟩ := bind_eq_ok.mp hok
    rw [pure_eq_ok] at hok
    exact hok ▸ evolves_serviceAddEntities hb hE hfree.entities
  | addRelationships source sourceRef requests =>
    obtain ⟨t, ht, hok⟩ := bind_eq_ok.mp hok
    rw [pure_eq_ok] at hok
    exact hok ▸ evolves_serviceAddRelationships ht hE hR hfree.relationships
  | batchDirectWrite source sourceRef entities requests =>
    obtain ⟨⟨eb, k⟩, hk, hok⟩ := bind_eq_ok.mp hok
    rw [pure_eq_ok] at hok
    exact hok ▸ evolves_serviceBatchDirectWrite hk hE hR hfree.entities hfree.relationships
  | feedback requests => exact evolves_serviceFeedback hok
  | attest observation => exact evolves_serviceAttest hok hE hR
  | approveGroup relationshipType groupId resolutionId members stampExisting =>
    exact evolves_approveGroupEdges hok hE hR
  | applyEntities stepId set =>
    obtain ⟨⟨k, preview⟩, hk, hok⟩ := bind_eq_ok.mp hok
    rw [pure_eq_ok] at hok
    exact hok ▸ evolves_applyEntitySet hk hE
  | applyRelationships workflowName stepId mint set =>
    obtain ⟨⟨k, preview⟩, hk, hok⟩ := bind_eq_ok.mp hok
    rw [pure_eq_ok] at hok
    exact hok ▸ evolves_applyRelationshipSet hk hE hR

end Writers

/-- A runtime for configurations without dates and id patterns. -/
def plainRuntime : TextRuntime where
  str := fun
    | .str s => s
    | _ => ""
  dateFromIsoformat := fun _ => false
  datetimeFromIsoformat := fun _ => none
  datetimeFromIsoformat_isoText := by
    intro s d m h
    cases h
  fullmatch := fun pattern text => pattern = text
  normalizeIdentityValue := id

/-- One entity type with one text property and one relationship type. -/
def serviceConfig : CoreConfig where
  entityTypes := Dict.ofList
    [("Service", { properties := Dict.ofList [("tier", { optional := true })] })]
  relationships := [
    { name := "depends_on", fromEntity := "Service", toEntity := "Service",
      properties := Dict.ofList [("weight", { type := .int, optional := true })] }]

/-- No guard is configured. -/
def plainEnvironment : Environment where
  w := { rt := plainRuntime, config := serviceConfig }
  guards := { entity := fun _ _ _ => [], relationship := fun _ _ => [] }
  workflowGuards := { entity := fun _ _ => .ok (), relationship := fun _ _ => .ok () }

def service (id : String) (lifecycle : Option EntityLifecycleState) : NodeId × EntityInstance :=
  (makeNodeId "Service" id,
    { entityType := "Service", entityId := id, metadata := { lifecycle := lifecycle } })

/-- One service depends on another with a weight. -/
def dependsOn (from_ to_ : String) (weight : Int) : RelationshipInstance :=
  { relationshipType := "depends_on", fromType := "Service", fromId := from_,
    toType := "Service", toId := to_, properties := Dict.ofList [("weight", .int weight)] }

end Cruxible.FreeWrites
