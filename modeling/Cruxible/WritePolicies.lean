import Cruxible.DriftRuns
import Cruxible.UniqueIdentities

/-!
# The write policy over runs of direct writes

Every direct write funnels into the two chokepoints, which look the policy of the
written type up for themselves. Over a run of adds and batches, whatever pending
and lifecycle flags they carry, the edges of a proposal-only type stand as they
were or are new and pending; an edge that is pending stands as it was, whatever
its type; and a mint-only type gains no entity except from the minting source.
-/
namespace Cruxible.WritePolicies
open JsonValue PythonDict AssertionState AppendOnly Fallible Cruxible.Graph PropertyValidation
open GraphOperations GroupDrift DirectWrites FreeWrites EntityChanges EdgeChanges DriftRuns
open UniqueIdentities Runs

inductive DirectWrite where
  | addEntities (entities : List EntityInstance)
  | addRelationships (source sourceRef : String) (requests : List RelationshipRequest)
  | batchDirectWrite (source sourceRef : String) (entities : List EntityInstance)
      (requests : List RelationshipRequest)

def DirectWrite.write : DirectWrite → FreeWrite
  | .addEntities entities => .addEntities entities
  | .addRelationships source sourceRef requests => .addRelationships source sourceRef requests
  | .batchDirectWrite source sourceRef entities requests =>
      .batchDirectWrite source sourceRef entities requests

/-- The provenance under which a write reaches the chokepoints. -/
def DirectWrite.source : DirectWrite → String
  | .addEntities _ => "add_entity"
  | .addRelationships source _ _ => source
  | .batchDirectWrite source _ _ _ => source

/-- One direct write against the committed graph. -/
def perform (g : EntityGraph) (r : Environment × DirectWrite) : Except CoreError EntityGraph :=
  r.2.write.apply r.1 g

/-- The review of the edge is open. -/
def EdgeData.isPending (e : EdgeData) : Prop := e.metadata.assertion.review.status = .pending

section Edges
variable {P : String → Prop} {w : WriteContext} {g g₀ h k : EntityGraph}

/-- Edges of the types in `P` and pending edges are left alone; a new edge of a
type in `P` is pending. -/
def heldFrame (P : String → Prop) : Frame where
  node _ _ := True
  newNode _ := True
  edge e e' := e'.relationshipType = e.relationshipType ∧
    (P e.relationshipType ∨ EdgeData.isPending e → e' = e)
  newEdge e := P e.relationshipType → EdgeData.isPending e
  node_refl _ := trivial
  node_trans _ _ := trivial
  newNode_node _ _ := trivial
  edge_refl _ := ⟨rfl, fun _ => rfl⟩
  edge_trans := by
    intro a b c hab hbc
    refine ⟨hbc.1.trans hab.1, fun ha => ?_⟩
    have hb := hab.2 ha
    rw [hbc.2 (hb ▸ ha), hb]
  newEdge_edge := by
    intro a b hnew hab hb
    have ha : P a.relationshipType := hab.1 ▸ hb
    rw [hab.2 (.inl ha)]
    exact hnew ha

theorem refuseRelationshipPolicy_ok {relationshipType source : String} {pending : Bool}
    (hok : refuseRelationshipPolicy w relationshipType source pending = .ok ())
    (hsource : isGovernedSource source = false) :
    pending = true ∨ effectiveRelationshipWritePolicy w relationshipType ≠ .proposalOnly := by
  by_contra hboth
  rw [not_or, not_not, Bool.not_eq_true] at hboth
  simp [refuseRelationshipPolicy, hsource, hboth.1, hboth.2] at hok

variable {d : RelationshipInstance} {v : ValidatedRelationship} {a : RelationshipWrite}
  {call : Call} {sourceRef : String} {t : Applied}

theorem applyRelationship_policy (hok : applyRelationship w g v a = .ok (h, d)) :
    refuseRelationshipPolicy w v.relationship.relationshipType a.source a.pending = .ok () := by
  unfold applyRelationship at hok
  have ⟨_, hpolicy, _⟩ := bind_eq_ok.mp hok
  exact hpolicy

theorem applyRelationship_update (hok : applyRelationship w g v a = .ok (h, d))
    (hu : v.isUpdate = true) (hp : a.pending = false) :
    h = g.modifyEdge v.relationship.fromType v.relationship.fromId v.relationship.toType
      v.relationship.toId v.relationship.relationshipType v.relationship.edgeKey
      (updatedEdge v.relationship a) ∧
    ∀ e, g.findRelationshipEdge v.relationship.fromType v.relationship.fromId
      v.relationship.toType v.relationship.toId v.relationship.relationshipType
      v.relationship.edgeKey = some e → ¬EdgeData.isPending e := by
  unfold applyRelationship at hok
  have ⟨_, _, hok⟩ := bind_eq_ok.mp hok
  have ⟨_, _, hok⟩ := bind_eq_ok.mp hok
  rw [if_pos hu] at hok
  have ⟨hgraph, hrefuse⟩ := updateRelationship_ok hok
  refine ⟨hgraph, fun e he hpending => ?_⟩
  have hstatus : e.metadata.assertion.review.status = .pending := hpending
  simp [refuseWriteOntoPendingEdge, EntityGraph.getRelationship, he, hp, hstatus] at hrefuse

theorem edge_type {a b c d r : String} {key : Option Nat} {e : EdgeData}
    (he : g.findRelationshipEdge a b c d r key = some e) : e.relationshipType = r := by
  have hmatch := List.find?_some he
  simp only [EntityGraph.edgeMatches, Bool.and_eq_true, decide_eq_true_eq] at hmatch
  exact hmatch.2

/-- What both relationship writes know of a member that they apply. -/
structure Ready (w : WriteContext) (k : EntityGraph)
    (m : PreparedRelationship × Option GroupContentDrift) : Prop where
  validated : Validated w k m.1
  staged : m.1.request.pending = true → m.1.validated.isUpdate = false
  drifted : m.2.isSome → m.1.validated.isUpdate = true ∧
    effectiveRelationshipWritePolicy w m.1.request.edge.relationshipType ≠ .proposalOnly

theorem held_member {source : String} {m : PreparedRelationship × Option GroupContentDrift}
    {s : Applied} (hok : applyPrepared w source sourceRef call s m = .ok t)
    (hg : Evolves (heldFrame P) g₀ s.graph) (hm : Ready w k m)
    (hP : ∀ r, P r → effectiveRelationshipWritePolicy w r = .proposalOnly)
    (hsource : isGovernedSource source = false) : Evolves (heldFrame P) g₀ t.graph := by
  obtain ⟨h₁, h₂, h₃, h₄, h₅, hkey, _, _⟩ := hm.validated.fields
  unfold applyPrepared at hok
  obtain ⟨⟨h, durable⟩, happly, hok⟩ := bind_eq_ok.mp hok
  rw [pure_eq_ok] at hok
  rw [← hok]
  have hpolicy : m.1.request.pending = true ∨
      effectiveRelationshipWritePolicy w m.1.validated.relationship.relationshipType ≠
        .proposalOnly :=
    refuseRelationshipPolicy_ok (applyRelationship_policy happly) hsource
  have hunstaged : m.1.validated.isUpdate = true → m.1.request.pending = false := by
    intro hu
    by_contra hpending
    rw [hm.staged (by simpa using hpending)] at hu
    cases hu
  have hwritable : m.1.validated.isUpdate = true →
      ¬P m.1.validated.relationship.relationshipType := by
    intro hu hPr
    rcases hpolicy with hpending | hother
    · rw [hunstaged hu] at hpending
      cases hpending
    · exact hother (hP _ hPr)
  have hh : Evolves (heldFrame P) g₀ h := by
    apply evolves_applyRelationship hg happly
    · intro hu e he
      refine ⟨rfl, fun hheld => ?_⟩
      rcases hheld with hPe | hpending
      · exact absurd (edge_type he ▸ hPe) (hwritable hu)
      · exact absurd hpending ((applyRelationship_update happly hu (hunstaged hu)).2 e he)
    · intro _ _ j hPr
      rcases hpolicy with hpending | hother
      · have hstaged : initialAssertion (relationshipWrite source sourceRef call m.1.request) =
            { review := { status := .pending, source := .agent, updatedAt := some call.now,
                          updatedBy := some "relationship:add_pending",
                          actorContext := call.actorContext } } := by
          simp [initialAssertion, relationshipWrite, hpending]
        simp [EdgeData.isPending, createdEdge, createdMetadata, hstaged]
      · exact absurd (hP _ hPr) hother
    · exact fun _ _ => trivial
  cases hd : m.2 with
  | none => exact hh
  | some drift =>
    obtain ⟨hu, hother⟩ := hm.drifted (by rw [hd]; rfl)
    obtain ⟨hgraph, hopen⟩ := applyRelationship_update happly hu (hunstaged hu)
    obtain ⟨f, hstamp⟩ := stampGroupApprovalDrift_eq h m.1.request.edge (some drift)
      call.receiptId call.actorContext call.now
    rcases hstamp with hsame | hstamp
    · simp only [hsame]
      exact hh
    · simp only [hstamp]
      apply hh.trans
      apply Evolves.modifyEdge
      · exact fun _ => rfl
      · exact fun _ => rfl
      · intro e' he'
        refine ⟨rfl, fun hheld => ?_⟩
        rcases hheld with hPe | hpending
        · exact absurd (hP _ (edge_type he' ▸ hPe)) hother
        · have hfound := EntityGraph.findRelationshipEdge_modifyEdge s.graph
            m.1.validated.relationship.fromType m.1.validated.relationship.fromId
            m.1.validated.relationship.toType m.1.validated.relationship.toId
            m.1.validated.relationship.relationshipType m.1.validated.relationship.edgeKey
            (f := updatedEdge m.1.validated.relationship
              (relationshipWrite source sourceRef call m.1.request))
            (fun _ => ⟨rfl, rfl, rfl, rfl⟩)
          rw [← h₁, ← h₂, ← h₃, ← h₄, ← h₅, ← hkey, hgraph, hfound] at he'
          obtain ⟨e, he, hupdated⟩ := Option.map_eq_some_iff.mp he'
          rw [← hupdated] at hpending
          exact absurd hpending (hopen e he)

theorem held_members {source : String} {ms : List (PreparedRelationship × Option GroupContentDrift)}
    (hok : applyAllPrepared w source sourceRef call g ms = .ok t) (hg : Evolves (heldFrame P) g₀ g)
    (hms : ∀ m ∈ ms, Ready w k m)
    (hP : ∀ r, P r → effectiveRelationshipWritePolicy w r = .proposalOnly)
    (hsource : isGovernedSource source = false) : Evolves (heldFrame P) g₀ t.graph := by
  unfold applyAllPrepared at hok
  apply foldlM_invariant (fun s : Applied => Evolves (heldFrame P) g₀ s.graph) hg _ hok
  intro m hm s t hs hstep
  exact held_member hstep hs (hms m hm) hP hsource

end Edges

section Members
variable {w : WriteContext} {g k : EntityGraph} {requests : List RelationshipRequest}
  {b : RelationshipBatch} {hint label : String}

theorem prepared_staged (hok : prepareRelationships w label hint k requests = .ok b) :
    ∀ p ∈ b.prepared, p.request.pending = true → p.validated.isUpdate = false := by
  unfold prepareRelationships at hok
  apply foldlM_invariant (fun b : RelationshipBatch =>
    ∀ p ∈ b.prepared, p.request.pending = true → p.validated.isUpdate = false) _ _ hok
  · intro p hp
    cases hp
  · intro member _ b b' hb hstep
    rcases prepareRelationshipMember_cases hstep with ⟨error, rfl⟩ | ⟨_, v, _, hstaged, rfl⟩
    · exact hb
    · intro p hp
      rcases List.mem_append.mp hp with hp | hp
      · exact hb p hp
      · rw [List.mem_singleton.mp hp]
        intro hpending
        have hq : member.1.pending = true := hpending
        simpa [hq] using hstaged

theorem detected_drift {source : String} {p : PreparedRelationship}
    {drift : Option GroupContentDrift} (hedges : k.edges = g.edges) (hp : Validated w k p)
    (hok : detectContentDrift w source g p = .ok drift) (hsome : drift.isSome) :
    p.validated.isUpdate = true ∧
      effectiveRelationshipWritePolicy w p.request.edge.relationshipType ≠ .proposalOnly := by
  have ⟨h₁, h₂, h₃, h₄, h₅, _, _, hupdate⟩ := hp.fields
  unfold detectContentDrift at hok
  simp only at hok
  split at hok
  case h_1 =>
    rw [← Except.ok.inj hok] at hsome
    cases hsome
  case h_2 existing hexisting =>
    have hfound : p.validated.isUpdate = true := by
      have ⟨e, he, _⟩ := Option.map_eq_some_iff.mp hexisting
      rw [hupdate, foundEdge, EntityGraph.findRelationshipEdge, hedges]
      rw [h₁, h₂, h₃, h₄, h₅] at he
      exact Option.isSome_iff_exists.mpr ⟨e, he⟩
    split at hok
    case h_1 =>
      rw [← Except.ok.inj hok] at hsome
      cases hsome
    case h_2 =>
      split_ifs at hok with hpolicy
      · rw [← Except.ok.inj hok] at hsome
        cases hsome
      · exact ⟨hfound, h₅ ▸ hpolicy⟩

theorem ready_of_members {source : String} {drifts : List (Option GroupContentDrift)}
    (hedges : k.edges = g.edges) (hb : prepareRelationships w label hint k requests = .ok b)
    (herr : b.errors = []) (hdrifts : b.prepared.mapM (detectContentDrift w source g) = .ok drifts) :
    ∀ m ∈ b.prepared.zip drifts, Ready w k m := by
  intro m hm
  have hval := (members_of_prepared hb herr hdrifts).1 m hm
  constructor
  case validated => exact hval
  case staged => exact prepared_staged hb m.1 (List.of_mem_zip hm).1
  case drifted => exact detected_drift hedges hval (drift_of_zip hdrifts m hm)

theorem writeEntity_edges (h : EntityGraph) (v : ValidatedEntity) :
    (writeEntity h v).edges = h.edges := by
  have hmodify : ∀ (j : EntityGraph) n f, (j.modifyNode n f).edges = j.edges := by
    intro j n f
    unfold EntityGraph.modifyNode
    split <;> rfl
  cases hu : v.isUpdate with
  | true => rw [writeEntity_update h v hu, hmodify]
  | false => simp only [writeEntity, hu, Bool.false_eq_true, if_false, EntityGraph.addEntity]

theorem addEntityMember_applies {source : String} {reference : EntityBatch → EntityGraph}
    {b b' : EntityBatch} {member : Nat × EntityInstance}
    (hok : addEntityMember w source reference b member = .ok b') :
    b'.graph = b.graph ∨ ∃ v warning, applyEntity w b.graph v source false = .ok (b'.graph, warning) := by
  obtain ⟨i, e⟩ := member
  rcases addEntityMember_cases hok with ⟨error, rfl⟩ | ⟨_, v, k, warning, _, happly, rfl⟩
  · exact .inl rfl
  · exact .inr ⟨v, warning, happly⟩

end Members

section Entities
variable {M : String → Prop} {w : WriteContext} {g h : EntityGraph}

/-- Every entity of a type in `M` has stood there before. -/
def Unminted (M : String → Prop) (g h : EntityGraph) : Prop :=
  ∀ n d, h.nodes.get? n = some d → M d.entityType →
    ∃ d₀, g.nodes.get? n = some d₀ ∧ d₀.entityType = d.entityType

theorem Unminted.refl (M : String → Prop) (g : EntityGraph) : Unminted M g g :=
  fun _ d hd _ => ⟨d, hd, rfl⟩

theorem Unminted.trans {k : EntityGraph} (a : Unminted M g h) (b : Unminted M h k) :
    Unminted M g k := by
  intro n d hd hM
  have ⟨d', hd', htype'⟩ := b n d hd hM
  have ⟨d₀, hd₀, htype⟩ := a n d' hd' (htype' ▸ hM)
  exact ⟨d₀, hd₀, htype.trans htype'⟩

theorem unminted_writeEntity {v : ValidatedEntity} (hg : Unminted M g h)
    (htype : ¬M v.entity.entityType) : Unminted M g (writeEntity h v) := by
  refine hg.trans ?_
  intro n d hd hM
  cases hu : v.isUpdate with
  | true =>
    rw [writeEntity_update h v hu] at hd
    unfold EntityGraph.modifyNode at hd
    split at hd
    case h_1 => exact ⟨d, hd, rfl⟩
    case h_2 d' hd' =>
      rw [Dict.get?_set] at hd
      split_ifs at hd with hn
      · rw [← Option.some.inj hd]
        exact ⟨d', hn ▸ hd', rfl⟩
      · exact ⟨d, hd, rfl⟩
  | false =>
    simp only [writeEntity, hu, Bool.false_eq_true, if_false, EntityGraph.addEntity] at hd
    rw [Dict.get?_set] at hd
    split_ifs at hd with hn
    · rw [← Option.some.inj hd] at hM
      exact absurd hM htype
    · exact ⟨d, hd, rfl⟩

theorem refuseEntityPolicy_ok {entityType source : String}
    (hok : refuseEntityPolicy w entityType source = .ok ()) (hsource : source ≠ tokenMintSource) :
    effectiveEntityWritePolicy w entityType ≠ .mintOnly := by
  intro hpolicy
  simp [refuseEntityPolicy, hpolicy, hsource] at hok

variable {members : List (EntityInstance × Nat)} {reference : EntityBatch → EntityGraph}
  {b b' : EntityBatch}

theorem unminted_members {source : String}
    (hok : members.foldlM (fun b p => addEntityMember w source reference b (p.2, p.1)) b = .ok b')
    (hM : ∀ t, M t → effectiveEntityWritePolicy w t = .mintOnly ∧ source ≠ tokenMintSource)
    (hg : Unminted M g b.graph) : Unminted M g b'.graph := by
  apply foldlM_invariant (fun b : EntityBatch => Unminted M g b.graph) hg _ hok
  intro p _ b b' hb hstep
  rcases addEntityMember_applies hstep with hsame | ⟨v, warning, happly⟩
  · rw [hsame]
    exact hb
  · have ⟨hgraph, hpolicy, _⟩ := applyEntity_ok happly
    rw [hgraph]
    apply unminted_writeEntity hb
    intro hMv
    have ⟨hmint, hsource⟩ := hM _ hMv
    exact refuseEntityPolicy_ok hpolicy hsource hmint

theorem members_edges {source : String}
    (hok : members.foldlM (fun b p => addEntityMember w source reference b (p.2, p.1)) b = .ok b') :
    b'.graph.edges = b.graph.edges := by
  apply foldlM_invariant (fun c : EntityBatch => c.graph.edges = b.graph.edges) rfl _ hok
  intro p _ c c' hc hstep
  rcases addEntityMember_applies hstep with hsame | ⟨v, warning, happly⟩
  · rw [hsame]
    exact hc
  · rw [(applyEntity_ok happly).1, writeEntity_edges]
    exact hc

end Entities

section Calls
variable {P M : String → Prop} {w : WriteContext} {g : EntityGraph}

/-- What a run of direct writes leaves of the records that the policy protects. -/
structure Held (P M : String → Prop) (g h : EntityGraph) : Prop where
  edges : Grows (heldFrame P).edge (heldFrame P).newEdge g.edges h.edges
  nodes : Unminted M g h

variable {h : EntityGraph} {entities : List EntityInstance} {requests : List RelationshipRequest}

theorem held_of_edges (hedges : h.edges = g.edges) (hnodes : Unminted M g h) : Held P M g h where
  edges := by
    rw [hedges]
    exact Grows.refl (heldFrame P).edge_refl g.edges
  nodes := hnodes

theorem Unminted.of_nodes (hnodes : h.nodes = g.nodes) : Unminted M g h := by
  intro n d hd _
  rw [hnodes] at hd
  exact ⟨d, hd, rfl⟩

/-- The write sees the types in `P` as proposal-only, and the types in `M` as
mint-only without being the minting source. -/
structure Governs (P M : String → Prop) (w : WriteContext) (source : String) : Prop where
  staged : ∀ r, P r → effectiveRelationshipWritePolicy w r = .proposalOnly
  minted : ∀ t, M t → effectiveEntityWritePolicy w t = .mintOnly ∧ source ≠ tokenMintSource

theorem refuseGoverned_ok {source entryPoint : String}
    (hok : refuseGovernedSourceAtDirectWriteEntry source entryPoint = .ok ()) :
    isGovernedSource source = false := by
  unfold refuseGovernedSourceAtDirectWriteEntry at hok
  split_ifs at hok with h
  exact Bool.not_eq_true _ ▸ h

variable {guards : Guards}

theorem held_addEntities {b : EntityBatch} (hok : serviceAddEntities w guards g entities = .ok b)
    (hgov : Governs P M w "add_entity") : Held P M g b.graph := by
  have ⟨hfold, _⟩ := addEntities_accepted hok
  exact held_of_edges (members_edges hfold) (unminted_members hfold hgov.minted (Unminted.refl M g))

variable {sourceRef : String} {t : Applied}

theorem held_addRelationships {source : String} {c : Call}
    (hok : serviceAddRelationships w guards g source sourceRef requests c = .ok t)
    (hgov : Governs P M w source) : Held P M g t.graph := by
  have ⟨hsource, b, drifts, hb, herrors, hdrifts, hok⟩ := addRelationships_accepted hok
  have hready := ready_of_members rfl hb herrors hdrifts
  have hevolves := held_members hok (Evolves.refl (heldFrame P) g) hready hgov.staged
    (refuseGoverned_ok hsource)
  constructor
  case edges => exact hevolves.edges
  case nodes => exact Unminted.of_nodes (applyAllPrepared_nodes hok fun m hm => (hready m hm).validated)

theorem held_batchDirectWrite {source : String} {c : Call} {eb : EntityBatch}
    (hok : serviceBatchDirectWrite w guards g source sourceRef entities requests c = .ok (eb, t))
    (hgov : Governs P M w source) : Held P M g t.graph := by
  have ⟨hfold, _, hnodes, _⟩ := batchDirectWrite_ok hok
  have ⟨rb, proposed, drifts, happlied, haccepted⟩ := batch_accepted hok
  have hedges : eb.graph.edges = g.edges := members_edges hfold
  have hready := ready_of_members hedges haccepted.prepared haccepted.relationshipErrors
    haccepted.detected
  have hevolves := held_members happlied (Evolves.refl (heldFrame P) eb.graph) hready hgov.staged
    (refuseGoverned_ok haccepted.ungoverned)
  constructor
  case edges => exact hedges ▸ hevolves.edges
  case nodes =>
    exact (unminted_members hfold hgov.minted (Unminted.refl M g)).trans (Unminted.of_nodes hnodes)

theorem held_perform {r : Environment × DirectWrite} (hok : perform g r = .ok h)
    (hgov : Governs P M r.1.w r.2.source) : Held P M g h := by
  obtain ⟨env, d⟩ := r
  cases d with
  | addEntities entities =>
    have ⟨b, hb, hok⟩ := bind_eq_ok.mp hok
    rw [pure_eq_ok] at hok
    exact hok ▸ held_addEntities hb hgov
  | addRelationships source sourceRef requests =>
    have ⟨t, ht, hok⟩ := bind_eq_ok.mp hok
    rw [pure_eq_ok] at hok
    exact hok ▸ held_addRelationships ht hgov
  | batchDirectWrite source sourceRef entities requests =>
    have ⟨⟨eb, t⟩, ht, hok⟩ := bind_eq_ok.mp hok
    rw [pure_eq_ok] at hok
    exact hok ▸ held_batchDirectWrite ht hgov

theorem Held.refl (P M : String → Prop) (g : EntityGraph) : Held P M g g where
  edges := Grows.refl (heldFrame P).edge_refl g.edges
  nodes := Unminted.refl M g

theorem Held.trans {k : EntityGraph} (a : Held P M g h) (b : Held P M h k) : Held P M g k where
  edges := a.edges.trans b.edges (fun _ _ _ => (heldFrame P).edge_trans)
    (fun _ _ => (heldFrame P).newEdge_edge)
  nodes := a.nodes.trans b.nodes

end Calls

/-- What the write policy and an open review promise of two graphs. -/
structure PolicyHolds (P M : String → Prop) (g h : EntityGraph) : Prop where
  /-- An edge of a type in `P` is neither changed nor moved. -/
  governed : ∀ (i : Nat) (e : EdgeData), g.edges[i]? = some e → P e.relationshipType →
    h.edges[i]? = some e
  /-- A new edge of a type in `P` waits for its review and is not live. -/
  staged : ∀ (i : Nat) (e : EdgeData), h.edges[i]? = some e → P e.relationshipType →
    g.edges[i]? = some e ∨ g.edges[i]? = none ∧ EdgeData.isPending e ∧
      ∀ now, relationshipIsLive e.metadata.assertion now = false
  /-- A pending edge of any type is neither changed nor moved. -/
  reviewed : ∀ (i : Nat) (e : EdgeData), g.edges[i]? = some e → EdgeData.isPending e →
    h.edges[i]? = some e
  /-- There is no new entity of a type in `M`. -/
  minted : ∀ n d, h.nodes.get? n = some d → M d.entityType →
    ∃ d₀, g.nodes.get? n = some d₀ ∧ d₀.entityType = d.entityType

theorem pending_not_live {a : RelationshipAssertion} (h : a.review.status = .pending)
    (now : Timestamp) : relationshipIsLive a now = false := by
  simp [relationshipIsLive, h]

theorem Held.policyHolds {P M : String → Prop} {g h : EntityGraph} (hheld : Held P M g h) :
    PolicyHolds P M g h := by
  have hkept : ∀ (i : Nat) (e : EdgeData), g.edges[i]? = some e →
      P e.relationshipType ∨ EdgeData.isPending e → h.edges[i]? = some e := by
    intro i e he hprotected
    have ⟨e', he', _, hsame⟩ := hheld.edges.getElem? he
    rw [he', hsame hprotected]
  constructor
  case governed => exact fun i e he hP => hkept i e he (.inl hP)
  case reviewed => exact fun i e he hpending => hkept i e he (.inr hpending)
  case minted => exact hheld.nodes
  case staged =>
    intro i e he hP
    rcases hheld.edges.getElem?_right he with ⟨e₀, he₀, htype, hsame⟩ | ⟨hnone, hnew⟩
    · left
      rw [he₀, hsame (.inl (htype ▸ hP))]
    · exact .inr ⟨hnone, hnew hP, pending_not_live (hnew hP)⟩

def governedConfig : CoreConfig where
  entityTypes := Dict.ofList [("Service", {}), ("Credential", { writePolicy := some .mintOnly })]
  relationships := [
    { name := "depends_on", fromEntity := "Service", toEntity := "Service",
      writePolicy := some .proposalOnly }]

def governedEnvironment : Environment :=
  { plainEnvironment with w := { rt := plainRuntime, config := governedConfig } }

def twoServices : EntityGraph where
  nodes := Dict.ofList [service "a" none, service "b" none]

/-- Dependency `a -> b`, proposed or written outright. -/
def dependency (pending : Bool) : RelationshipRequest where
  edge := { relationshipType := "depends_on", fromType := "Service", fromId := "a",
            toType := "Service", toId := "b" }
  pending := pending
  mintedClaimId := "CLM-1"

/-- A proposal, an outright write of the proposed edge, and a minted credential. -/
def mixedRun : List (Environment × DirectWrite) :=
  [(governedEnvironment, .addRelationships "cli" "add" [dependency true]),
    (governedEnvironment, .addRelationships "cli" "add" [dependency false]),
    (governedEnvironment, .batchDirectWrite "cli" "batch"
      [{ entityType := "Credential", entityId := "k" }] [])]

/-- **The chokepoint.** Take any relationship types that every accepted write of a
run sees as proposal-only, and any entity types that every accepted write sees as
mint-only without being the minting source. Over the run no edge of the former
changes or becomes live, no new one is anything but pending, no pending edge of any
type is touched, and no entity of the latter comes into being. -/
theorem write_policy_is_a_chokepoint (P M : String → Prop) (g : EntityGraph)
    (run : List (Environment × DirectWrite))
    (h : Throughout perform (fun _ r => Governs P M r.1.w r.2.source) g run) :
    PolicyHolds P M g (after perform g run) := by
  apply Held.policyHolds
  exact after_related (Held.refl P M) Held.trans (fun hgov hok => held_perform hok hgov) h

theorem mixed_run_is_governed :
    (after perform twoServices mixedRun).edges.length = 1 ∧
      PolicyHolds (· = "depends_on") (· = "Credential") twoServices
        (after perform twoServices mixedRun) := by
  have hgoverns : ∀ source, source ≠ tokenMintSource →
      Governs (· = "depends_on") (· = "Credential") governedEnvironment.w source := by
    intro source hsource
    constructor
    case staged =>
      intro r hr
      rw [hr]
      decide +kernel
    case minted =>
      intro t ht
      rw [ht]
      exact ⟨by decide +kernel, hsource⟩
  constructor
  case left => decide +kernel
  case right =>
    apply write_policy_is_a_chokepoint
    exact ⟨fun _ _ => hgoverns "cli" (by decide), fun _ _ => hgoverns "cli" (by decide),
      fun _ _ => hgoverns "cli" (by decide), trivial⟩

end Cruxible.WritePolicies
