import Cruxible.DriftMarkers

/-!
# Drift markers over runs of requests

A run of direct writes and approvals acts on a claim as a sequence of writes of
its edge and of new approvals of its current content. A call reaches an edge with
at most one of its members, and the drift of that member is measured against the
edge that it overwrites.
-/
namespace Cruxible.DriftRuns
open JsonValue PythonDict AssertionState AppendOnly Fallible Cruxible.Graph PropertyValidation
open GraphOperations GroupDrift DirectWrites GovernedWrites EdgeChanges FreeWrites Runs
open DriftMarkers

def edgeOf (g : EntityGraph) (claimId : String) : Option EdgeData :=
  g.edges.find? (fun e => e.claimId = claimId)

/-- The stored properties that an accepted request would leave. -/
def requestedContent (w : WriteContext) (g : EntityGraph) (r : RelationshipInstance) :
    Option Properties :=
  (w.config.getRelationship r.relationshipType).bind fun schema =>
    let stored := match g.getRelationship r.fromType r.fromId r.toType r.toId
        r.relationshipType with
      | some existing => existing.properties
      | none => ∅
    (validatePropertyPayload w.rt w.config schema.properties (stored.update r.properties)
      true none none).toOption.map PropertyValidationResult.properties

section Members
variable {w : WriteContext} {g k : EntityGraph} {c : String}

theorem getRelationship_congr (hedges : k.edges = g.edges) (a b d e r : String)
    (key : Option Nat) : k.getRelationship a b d e r key = g.getRelationship a b d e r key := by
  simp only [EntityGraph.getRelationship, EntityGraph.findRelationshipEdge, hedges]

theorem reaches_congr (hedges : k.edges = g.edges) (t : RelationshipInstance)
    (key : Option Nat) (c : String) : reaches k t key c = reaches g t key c := by
  unfold reaches EntityGraph.findRelationshipEdge
  rw [hedges]

variable {p : PreparedRelationship} {r : RelationshipInstance}
  {ms : List (PreparedRelationship × Option GroupContentDrift)}
  {drifts : List (Option GroupContentDrift)} {guards : Guards} {members : List ApprovalMember}

theorem content_of_validated (hedges : k.edges = g.edges) (hp : Validated w k p) :
    requestedContent w g p.request.edge = some p.validated.relationship.properties := by
  have ⟨hint, v, hv, hval⟩ := hp
  rw [hval]
  unfold validateRelationship at hv
  simp only [getRelationship_congr hedges] at hv
  unfold requestedContent
  split at hv
  · cases hv
  · rename_i schema hschema
    rw [hschema, Option.bind_some]
    split_ifs at hv
    split at hv
    · cases hv
    · rename_i result hresult
      split_ifs at hv
      rw [Except.ok.injEq] at hv
      rw [← hv]
      exact congrArg (fun r => r.toOption.map PropertyValidationResult.properties) hresult

variable {e : EdgeData} {source sourceRef : String} {call : Call} {s : Applied}
  {requests : List RelationshipRequest}

theorem drift_of_member {drift : Option GroupContentDrift}
    (hdrift : detectContentDrift w source g p = .ok drift)
    (he : foundEdge g p.validated.relationship none = some e)
    (happly : refuseRelationshipPolicy w p.validated.relationship.relationshipType source
      p.request.pending = .ok ()) : drift = groupContentDrift p.validated.relationship (row e) := by
  unfold detectContentDrift at hdrift
  simp only [EntityGraph.getRelationship, he, Option.map_some] at hdrift
  have hsame : ∀ x : RelationshipInstance, x.properties = e.properties → x.metadata = e.metadata →
      groupContentDrift p.validated.relationship x =
        groupContentDrift p.validated.relationship (row e) := by
    intro x hp hm
    have hchange : contentChange p.validated.relationship x =
        contentChange p.validated.relationship (row e) := by
      simp only [contentChange, hp, row]
    unfold groupContentDrift
    rw [hchange, hp, hm]
    rfl
  rw [hsame _ rfl rfl] at hdrift
  split at hdrift
  · rename_i hnone
    rw [hnone]
    exact (Except.ok.inj hdrift).symm
  · rename_i d hd
    rw [hd]
    split_ifs at hdrift with hpolicy hgoverned
    · rw [not_or, Bool.not_eq_true, Bool.not_eq_true] at hgoverned
      unfold refuseRelationshipPolicy at happly
      rw [if_pos ⟨hgoverned.1, hgoverned.2, hpolicy⟩] at happly
      cases happly
    · exact (Except.ok.inj hdrift).symm

variable {h : EntityGraph} {t : Applied}

theorem stamp_found
    (he : foundEdge h r none = some e) (drift : Option GroupContentDrift) (call : Call) :
    foundEdge (stampGroupApprovalDrift h r drift call.receiptId call.actorContext call.now) r
      none = some (stampedEdge drift call e) := by
  cases drift with
  | none => exact he
  | some d =>
    have hread : ∀ x : RelationshipInstance, x.properties = e.properties →
        x.metadata = e.metadata →
        recomputedDrift x d call.receiptId call.actorContext call.now =
          recomputedDrift (row e) d call.receiptId call.actorContext call.now := by
      intro x hp hm
      cases x
      dsimp only at hp hm
      subst hp hm
      rfl
    unfold stampGroupApprovalDrift stampedEdge
    simp only [EntityGraph.getRelationship, he, Option.map_some, Option.bind_some]
    rw [hread _ rfl rfl]
    cases hmarker : recomputedDrift (row e) d call.receiptId call.actorContext call.now with
    | none => exact he
    | some marker =>
      simp only [EntityGraph.replaceRelationshipState]
      rw [modifyEdge_key he, foundEdge_modifyEdge, he]
      · rfl
      · exact fun _ => ⟨rfl, rfl, rfl, rfl⟩

theorem edge_of_hit {m : PreparedRelationship × Option GroupContentDrift}
    (hok : applyPrepared w source sourceRef call s m = .ok t)
    (hg : Evolves (keepFrame c True) k s.graph) (hm : Validated w k m.1)
    (he : foundEdge k m.1.request.edge none = some e) (hc : e.claimId = c) :
    refuseRelationshipPolicy w m.1.validated.relationship.relationshipType source
      m.1.request.pending = .ok () ∧
    foundEdge t.graph m.1.request.edge none =
      some (stampedEdge m.2 call (updatedEdge m.1.validated.relationship
        (relationshipWrite source sourceRef call m.1.request) e)) := by
  have ⟨hpolicy, h, durable, _, hfound, hgraph, _⟩ := applied_of_hit hok hg hm he hc
  refine ⟨hpolicy, ?_⟩
  rw [hgraph]
  exact stamp_found hfound m.2 call

theorem claimId_stampedEdge (drift : Option GroupContentDrift) (call : Call) (e : EdgeData) :
    (stampedEdge drift call e).claimId = e.claimId := by
  unfold stampedEdge
  split <;> rfl

theorem keeps_of_misses {h₀ : EntityGraph}
    (hok : ms.foldlM (applyPrepared w source sourceRef call) s = .ok t)
    (hg : Evolves (keepFrame c True) k s.graph) (hc : c ∈ k.claimIds)
    (hms : ∀ m ∈ ms, Validated w h₀ m.1 ∧ reaches k m.1.request.edge none c = false) :
    Evolves (keepFrame c True) k t.graph := by
  induction ms generalizing s with
  | nil =>
    have hst : s = t := by simpa [pure, Except.pure] using hok
    exact hst ▸ hg
  | cons m ms ih =>
    have ⟨mid, hmid, hrest⟩ := foldlM_cons_eq_ok.mp hok
    have ⟨hval, hmiss⟩ := hms m List.mem_cons_self
    have hkeep := evolves_member hmid hg hval hc (fun _ => hmiss)
    exact ih hrest hkeep (fun x hx => hms x (List.mem_cons_of_mem m hx))

theorem edgeOf_of_keeps (hg : Evolves (keepFrame c True) g k) (he : edgeOf g c = some e) :
    edgeOf k c = some e := by
  have hec : e.claimId = c := by simpa using List.find?_some he
  have ⟨y, hy, hrel⟩ := hg.edges.find? (p := fun x : EdgeData => decide (x.claimId = c))
    (fun a b hab => by rw [hab.1.1]) he
  have hye : y = e := hrel.2 trivial hec
  rw [hye] at hy
  exact hy

theorem edge_of_members (hok : applyAllPrepared w source sourceRef call k ms = .ok s)
    (hw : WellFormed k) (hval : ∀ m ∈ ms, Validated w k m.1)
    (hnodup : (ms.map fun m => m.1.request.edge.identityTuple).Nodup) (he : edgeOf k c = some e) :
    WellFormed s.graph ∧
    (edgeOf s.graph c = some e ∨
      ∃ m ∈ ms, reaches k m.1.request.edge none c = true ∧
        refuseRelationshipPolicy w m.1.validated.relationship.relationshipType source
          m.1.request.pending = .ok () ∧
        edgeOf s.graph c = some (stampedEdge m.2 call
          (updatedEdge m.1.validated.relationship
            (relationshipWrite source sourceRef call m.1.request) e))) := by
  have hec : e.claimId = c := by simpa using List.find?_some he
  have hc : c ∈ k.claimIds := hec ▸ hw.indexed e (List.mem_of_find?_eq_some he)
  unfold applyAllPrepared at hok
  by_cases hany : ∃ m ∈ ms, reaches k m.1.request.edge none c = true
  · have ⟨m, hm, hreach⟩ := hany
    have hmval := hval m hm
    have ⟨ms₁, ms₂, hsplit⟩ := List.append_of_mem hm
    rw [hsplit] at hval hnodup hok
    have hothers := others_miss hw hval hnodup hreach
    rw [List.foldlM_append] at hok
    have ⟨s₁, hs₁, hrest⟩ := bind_eq_ok.mp hok
    have ⟨s₂, hs₂, hs₃⟩ := foldlM_cons_eq_ok.mp hrest
    have hkeep := keeps_of_misses hs₁ (Evolves.refl (keepFrame c True) k) hc
      (fun x hx => hothers x (.inl hx))
    have hfound := found_of_reaches hw he hreach
    have ⟨hpolicy, hhit⟩ := edge_of_hit hs₂ hkeep hmval hfound hec
    have hmid := evolves_member hs₂ (unkept hkeep) hmval hc (fun hK => hK.elim)
    have hw₂ : WellFormed s₂.graph := hmid.wellFormed hw
    have hafter : ∀ x ∈ ms₂, Validated w k x.1 ∧
        reaches s₂.graph x.1.request.edge none c = false := by
      intro x hx
      have ⟨hxval, hxmiss⟩ := hothers x (.inr hx)
      refine ⟨hxval, ?_⟩
      by_contra hxreach
      have hbefore := reaches_of_evolves hmid (by simpa using hxreach)
      rw [hxmiss] at hbefore
      cases hbefore
    have hlast := keeps_of_misses hs₃ (Evolves.refl (keepFrame c True) s₂.graph)
      (hmid.index hc) hafter
    refine ⟨hlast.wellFormed hw₂, .inr ⟨m, hm, hreach, hpolicy, ?_⟩⟩
    apply edgeOf_of_keeps hlast
    have hkey := hw₂.find?_claimId (List.mem_of_find?_eq_some hhit)
    rw [claimId_stampedEdge] at hkey
    have hid : (updatedEdge m.1.validated.relationship
        (relationshipWrite source sourceRef call m.1.request) e).claimId = c := hec
    rw [hid] at hkey
    exact hkey
  · have hmiss : ∀ m ∈ ms, Validated w k m.1 ∧ reaches k m.1.request.edge none c = false := by
      intro m hm
      refine ⟨hval m hm, ?_⟩
      by_contra hreach
      exact hany ⟨m, hm, by simpa using hreach⟩
    have hkeep := keeps_of_misses hok (Evolves.refl (keepFrame c True) k) hc hmiss
    exact ⟨hkeep.wellFormed hw, .inl (edgeOf_of_keeps hkeep he)⟩

theorem drift_of_zip {ps : List PreparedRelationship}
    (h : ps.mapM (detectContentDrift w source g) = .ok drifts) :
    ∀ m ∈ ps.zip drifts, detectContentDrift w source g m.1 = .ok m.2 := by
  induction ps generalizing drifts with
  | nil => simp
  | cons p ps ih =>
    rw [List.mapM_cons, bind_eq_ok] at h
    have ⟨d, hd, hrest⟩ := h
    have ⟨ds, hds, hcons⟩ := bind_eq_ok.mp hrest
    rw [pure_eq_ok] at hcons
    rw [← hcons, List.zip_cons_cons]
    intro m hm
    rcases List.mem_cons.mp hm with hm | hm
    · rw [hm]
      exact hd
    · exact ih hds m hm

/-- What an accepted call makes of the edge of a claim. -/
def WrittenBy (w : WriteContext) (g : EntityGraph) (requests : List RelationshipRequest)
    (call : Call) (c : String) (e e' : EdgeData) : Prop :=
  e' = e ∨ ∃ q ∈ requests, reaches g q.edge none c = true ∧
    ∃ r a, requestedContent w g q.edge = some r.properties ∧ e' = writtenEdge r a call e

theorem written_of_members {label hint : String} {b : RelationshipBatch}
    (hedges : k.edges = g.edges) (hw : WellFormed k)
    (hb : prepareRelationships w label hint k requests = .ok b) (herr : b.errors = [])
    (hdrifts : b.prepared.mapM (detectContentDrift w source g) = .ok drifts)
    (hok : applyAllPrepared w source sourceRef call k (b.prepared.zip drifts) = .ok s)
    (he : edgeOf g c = some e) :
    WellFormed s.graph ∧ ∃ e', edgeOf s.graph c = some e' ∧
      WrittenBy w g requests call c e e' := by
  have ⟨hval, hreq, hnodup⟩ := members_of_prepared hb herr hdrifts
  have he' : edgeOf k c = some e := by
    unfold edgeOf
    rw [hedges]
    exact he
  have ⟨hw', hcases⟩ := edge_of_members hok hw hval hnodup he'
  refine ⟨hw', ?_⟩
  rcases hcases with hsame | ⟨m, hm, hreach, hpolicy, hedge⟩
  · exact ⟨e, hsame, .inl rfl⟩
  · have hmval := hval m hm
    have ⟨h₁, h₂, h₃, h₄, h₅, _, _, _⟩ := hmval.fields
    have hfound := found_of_reaches hw he' hreach
    have hfound' : foundEdge g m.1.validated.relationship none = some e := by
      unfold foundEdge EntityGraph.findRelationshipEdge at hfound ⊢
      rw [h₁, h₂, h₃, h₄, h₅, ← hedges]
      exact hfound
    have hdrift := drift_of_member (drift_of_zip hdrifts m hm) hfound' hpolicy
    have hrequest : m.1.request ∈ requests := hreq ▸ List.mem_map_of_mem hm
    refine ⟨_, hedge, .inr ⟨m.1.request, hrequest, ?_, m.1.validated.relationship,
      relationshipWrite source sourceRef call m.1.request, content_of_validated hedges hmval, ?_⟩⟩
    · rw [← reaches_congr hedges]
      exact hreach
    · rw [hdrift]
      rfl

theorem written_addRelationships (hw : WellFormed g)
    (hok : serviceAddRelationships w guards g source sourceRef requests call = .ok s)
    (he : edgeOf g c = some e) :
    WellFormed s.graph ∧ ∃ e', edgeOf s.graph c = some e' ∧
      WrittenBy w g requests call c e e' := by
  have ⟨_, b, drifts, hb, herrors, hdrifts, hall⟩ := addRelationships_accepted hok
  exact written_of_members rfl hw hb herrors hdrifts hall he

theorem edges_writeEntity (g : EntityGraph) (v : ValidatedEntity) :
    (writeEntity g v).edges = g.edges ∧ (WellFormed g → WellFormed (writeEntity g v)) := by
  cases hu : v.isUpdate with
  | true =>
    rw [writeEntity_update g v hu]
    constructor
    · unfold EntityGraph.modifyNode
      split <;> rfl
    · exact (Evolves.modifyNode (F := keepFrame "" False) v.entity.nodeId
        (fun d => overwrite d v.entity) (fun _ => rfl) (fun _ _ => trivial)).wellFormed
  | false =>
    have hcreate : writeEntity g v = g.addEntity v.entity := by simp [writeEntity, hu]
    rw [hcreate]
    exact ⟨rfl, fun hw => hw.setNode rfl⟩

theorem edges_addEntityMember {reference : EntityBatch → EntityGraph} {b b' : EntityBatch}
    {member : Nat × EntityInstance} (hok : addEntityMember w source reference b member = .ok b')
    (hb : b.graph.edges = g.edges ∧ WellFormed b.graph) :
    b'.graph.edges = g.edges ∧ WellFormed b'.graph := by
  obtain ⟨i, entity⟩ := member
  rcases addEntityMember_cases hok with ⟨error, rfl⟩ | ⟨_, v, h, warning, _, happly, rfl⟩
  · exact hb
  · have hwrite := (applyEntity_ok happly).1
    have ⟨hedges, hkept⟩ := edges_writeEntity b.graph v
    simp only [hwrite]
    exact ⟨hedges.trans hb.1, hkept hb.2⟩

theorem written_batchDirectWrite {entities : List EntityInstance} {s : EntityBatch × Applied}
    (hw : WellFormed g)
    (hok : serviceBatchDirectWrite w guards g source sourceRef entities requests call = .ok s)
    (he : edgeOf g c = some e) :
    WellFormed s.2.graph ∧ ∃ e', edgeOf s.2.graph c = some e' ∧
      WrittenBy w g requests call c e e' := by
  have ⟨rb, proposed, drifts, happlied, haccepted⟩ := batch_accepted hok
  have hentities : s.1.graph.edges = g.edges ∧ WellFormed s.1.graph := by
    apply foldlM_invariant (fun b : EntityBatch => b.graph.edges = g.edges ∧ WellFormed b.graph)
      _ _ haccepted.folded
    · exact ⟨rfl, hw⟩
    · intro p _ a b ha hstep
      exact edges_addEntityMember hstep ha
  exact written_of_members hentities.1 hentities.2 haccepted.prepared haccepted.relationshipErrors
    haccepted.detected happlied he

theorem reaches_of_keeps {K : Prop} (hg : Evolves (keepFrame c K) g k)
    (t : RelationshipInstance) : reaches k t none c = reaches g t none c := by
  rw [Bool.eq_iff_iff]
  constructor
  · exact reaches_of_evolves hg
  · intro hreach
    have ⟨y, hy, hyc⟩ := reaches_iff.mp hreach
    have ⟨z, hz, hrel⟩ := hg.edges.find? (keepFrame_matches _ _ _ none) hy
    exact reaches_iff.mpr ⟨z, hz, hrel.1.1.trans hyc⟩

/-- A blessed edge: its content stands, under a new group and without a marker. -/
structure Blessed (groupId : String) (e e' : EdgeData) : Prop where
  properties : e'.properties = e.properties
  marker : marker e' = none
  group : groupOf e' = some groupId

def blessedEdge (groupId : String) (resolutionId : Option String) (call : Call) (e : EdgeData) :
    EdgeData :=
  { e with metadata := blessedMetadataForExisting groupId resolutionId call e.metadata }

theorem blessed_blessedEdge (groupId : String) (resolutionId : Option String) (call : Call)
    (e : EdgeData) : Blessed groupId e (blessedEdge groupId resolutionId call e) := by
  refine ⟨rfl, rfl, ?_⟩
  have hgroup : ∀ p : RelationshipProvenance, p.sourceRef = some ("group:" ++ groupId) →
      provenanceGroupId p = some groupId := by
    intro p hp
    have hlength : "group:".length = 6 := rfl
    simp [provenanceGroupId, hp, hlength]
  unfold groupOf blessedEdge blessedMetadataForExisting
  cases hp : e.metadata.provenance with
  | none | some p =>
    simp only [Option.bind_some]
    exact hgroup _ rfl

theorem stampExistingEdge_edge (groupId : String) (resolutionId : Option String) (call : Call)
    (hw : WellFormed g) (r : RelationshipInstance) (he : edgeOf g c = some e) :
    Evolves (keepFrame c False) g (stampExistingEdge groupId resolutionId call g r) ∧
    ∃ e', edgeOf (stampExistingEdge groupId resolutionId call g r) c = some e' ∧
      if reaches g r none c then Blessed groupId e e' else e' = e := by
  have hec : e.claimId = c := by simpa using List.find?_some he
  have hkeep : ∀ {K : Prop}, (K → reaches g r none c = false) →
      Evolves (keepFrame c K) g (stampExistingEdge groupId resolutionId call g r) := by
    intro K hK
    rcases stampExistingEdge_eq groupId resolutionId call g r with hsame | hmodify
    · rw [hsame]
      exact Evolves.refl _ g
    · rw [hmodify]
      apply Evolves.modifyEdge
      · exact fun _ => rfl
      · exact fun _ => rfl
      · intro y hy
        refine ⟨⟨rfl, rfl, rfl, rfl, rfl⟩, ?_⟩
        intro hk hyc
        have hreach := reaches_iff.mpr ⟨y, hy, hyc⟩
        rw [hK hk] at hreach
        cases hreach
  refine ⟨hkeep (fun h => h.elim), ?_⟩
  cases hreach : reaches g r none c with
  | false =>
    refine ⟨e, edgeOf_of_keeps (hkeep (fun _ => hreach)) he, ?_⟩
    simp
  | true =>
    have hfound := found_of_reaches hw he hreach
    have hw' := (hkeep (K := False) (fun h => h.elim)).wellFormed hw
    have hmodify : foundEdge (stampExistingEdge groupId resolutionId call g r) r none =
        some (blessedEdge groupId resolutionId call e) := by
      unfold stampExistingEdge
      simp only [EntityGraph.getRelationship, hfound, Option.map_some,
        EntityGraph.replaceRelationshipState]
      rw [modifyEdge_key hfound, foundEdge_modifyEdge, hfound]
      · rfl
      · exact fun _ => ⟨rfl, rfl, rfl, rfl⟩
    refine ⟨blessedEdge groupId resolutionId call e, ?_, ?_⟩
    · have hkey := hw'.find?_claimId (List.mem_of_find?_eq_some hmodify)
      have hid : (blessedEdge groupId resolutionId call e).claimId = c := hec
      rw [hid] at hkey
      exact hkey
    · rw [if_pos rfl]
      exact blessed_blessedEdge groupId resolutionId call e

theorem stampExistingEdges_edge (groupId : String) (resolutionId : Option String) (call : Call)
    (skipped : List RelationshipInstance) (hw : WellFormed g) (he : edgeOf g c = some e) :
    WellFormed (skipped.foldl (stampExistingEdge groupId resolutionId call) g) ∧
    ∃ e', edgeOf (skipped.foldl (stampExistingEdge groupId resolutionId call) g) c = some e' ∧
      if skipped.any (fun r => reaches g r none c) then Blessed groupId e e' else e' = e := by
  induction skipped generalizing g e with
  | nil => exact ⟨hw, e, he, by simp⟩
  | cons r rs ih =>
    have ⟨hkeep, e₁, he₁, hone⟩ := stampExistingEdge_edge groupId resolutionId call hw r he
    have ⟨hw', e₂, he₂, hrest⟩ := ih (hkeep.wellFormed hw) he₁
    have hany : rs.any (fun x => reaches (stampExistingEdge groupId resolutionId call g r) x
        none c) = rs.any (fun x => reaches g x none c) := by
      congr 1
      funext x
      exact reaches_of_keeps hkeep x
    rw [hany] at hrest
    refine ⟨hw', e₂, he₂, ?_⟩
    rw [List.any_cons]
    cases hr : reaches g r none c with
    | false =>
      rw [if_neg (by simp [hr])] at hone
      rw [Bool.false_or, ← hone]
      exact hrest
    | true =>
      rw [if_pos hr] at hone
      rw [Bool.true_or, if_pos rfl]
      split_ifs at hrest
      · exact ⟨hrest.properties.trans hone.properties, hrest.marker, hrest.group⟩
      · rw [hrest]
        exact hone

theorem reaches_of_count
    (hcount : ¬0 < g.relationshipCountBetween r.fromType r.fromId r.toType r.toId
      r.relationshipType) :
    foundEdge g r none = none := by
  unfold EntityGraph.relationshipCountBetween at hcount
  rw [List.countP_pos_iff, not_exists] at hcount
  unfold foundEdge EntityGraph.findRelationshipEdge
  rw [List.find?_eq_none]
  exact fun x hx hmatch => hcount x ⟨hx, hmatch⟩

theorem validateApprovalMembers_ok {a b : ApprovalValidation}
    (hok : members.foldlM (validateApprovalMember w g) a = .ok b) :
    (∀ p ∈ b.validInputs, p ∈ a.validInputs ∨ p.1.isUpdate = false) ∧
    b.skippedExisting.any (fun r => reaches g r none c) =
      (a.skippedExisting.any (fun r => reaches g r none c) ||
        members.any (fun m => reaches g m.relationship none c)) := by
  induction members generalizing a with
  | nil =>
    have hab : a = b := by simpa [pure, Except.pure] using hok
    rw [← hab]
    exact ⟨fun p hp => .inl hp, by simp⟩
  | cons m ms ih =>
    have ⟨mid, hmid, hrest⟩ := foldlM_cons_eq_ok.mp hok
    have ⟨hvalid, hskipped⟩ := ih hrest
    unfold validateApprovalMember at hmid
    simp only at hmid
    rw [hskipped, List.any_cons]
    split_ifs at hmid with hcount
    · rw [Except.ok.injEq] at hmid
      rw [← hmid] at hvalid ⊢
      refine ⟨hvalid, ?_⟩
      rw [List.any_append, Bool.or_assoc]
      simp
    · have hnone := reaches_of_count hcount
      have hmiss : reaches g m.relationship none c = false := by simp [reaches, hnone]
      rw [hmiss, Bool.false_or]
      split at hmid
      · rw [Except.ok.injEq] at hmid
        rw [← hmid] at hvalid ⊢
        exact ⟨hvalid, rfl⟩
      · cases hmid
      · rename_i v hv
        rw [Except.ok.injEq] at hmid
        rw [← hmid] at hvalid ⊢
        refine ⟨?_, rfl⟩
        intro p hp
        rcases hvalid p hp with hp | hp
        · rcases List.mem_append.mp hp with hp | hp
          · exact .inl hp
          · right
            have hupdate := (validateRelationship_ok hv).2.2.2
            rw [List.mem_singleton.mp hp]
            simp only [hupdate, EntityGraph.getRelationship, hnone]
            rfl
        · exact .inr hp

theorem edge_of_approval {relationshipType groupId : String} {resolutionId : Option String}
    {stampExisting : Bool} (hw : WellFormed g)
    (hok : approveGroupEdges w guards g relationshipType groupId resolutionId members
      stampExisting call = .ok h) (he : edgeOf g c = some e) :
    WellFormed h ∧ ∃ e', edgeOf h c = some e' ∧
      if stampExisting && members.any (fun m => reaches g m.relationship none c) then
        Blessed groupId e e'
      else e' = e := by
  have hec : e.claimId = c := by simpa using List.find?_some he
  have hc : c ∈ g.claimIds := hec ▸ hw.indexed e (List.mem_of_find?_eq_some he)
  unfold approveGroupEdges at hok
  have ⟨⟨⟩, _, hok⟩ := bind_eq_ok.mp hok
  have ⟨a, ha, hok⟩ := bind_eq_ok.mp hok
  have ⟨⟨⟩, _, hok⟩ := bind_eq_ok.mp hok
  have ⟨k, hk, hok⟩ := bind_eq_ok.mp hok
  have ⟨hvalid, hskipped⟩ := validateApprovalMembers_ok (c := c) ha
  have hcreated : Evolves (keepFrame c True) g k := by
    apply foldlM_invariant (fun k => Evolves (keepFrame c True) g k) _ _ hk
    · exact Evolves.refl _ g
    · intro p hp x y hx hstep
      have ⟨⟨y', d⟩, happly, hstep⟩ := bind_eq_ok.mp hstep
      rw [pure_eq_ok] at hstep
      rw [← hstep]
      have hnew : p.1.isUpdate = false := (hvalid p hp).resolve_left (by simp)
      apply evolves_applyRelationship hx happly
      · intro hupdate
        rw [hnew] at hupdate
        cases hupdate
      · intro _ hfresh k'
        change p.1.relationship.claimId.getD _ ≠ c
        intro hid
        rw [hid] at hfresh
        exact hfresh (hx.index hc)
      · exact fun _ _ => trivial
  have hwk := hcreated.wellFormed hw
  have hek := edgeOf_of_keeps hcreated he
  cases hstamp : stampExisting with
  | false =>
    rw [hstamp, if_neg (by simp), pure_eq_ok] at hok
    rw [← hok]
    exact ⟨hwk, e, hek, by simp⟩
  | true =>
    rw [hstamp, if_pos rfl, pure_eq_ok] at hok
    have ⟨hwh, e', he', hcases⟩ := stampExistingEdges_edge groupId resolutionId call
      a.skippedExisting hwk hek
    have hany : a.skippedExisting.any (fun r => reaches k r none c) =
        members.any (fun m => reaches g m.relationship none c) := by
      have hsame : (fun r => reaches k r none c) = fun r => reaches g r none c := by
        funext r
        exact reaches_of_keeps hcreated r
      rw [hsame, hskipped]
      simp
    rw [hany] at hcases
    rw [← hok]
    exact ⟨hwh, e', he', hcases⟩

end Members

/-- The graph, and the last approval of one claim. -/
structure Reviewed where
  graph : EntityGraph
  approval : Approval

inductive Request where
  | addRelationships (source sourceRef : String) (requests : List RelationshipRequest)
      (call : Call)
  | batchDirectWrite (source sourceRef : String) (entities : List EntityInstance)
      (requests : List RelationshipRequest) (call : Call)
  | approve (relationshipType groupId : String) (resolutionId : Option String)
      (members : List ApprovalMember) (stampExisting : Bool) (call : Call)

/-- An approval of the claim fixes the content that it has at that time. -/
def reapproved (s : Reviewed) (claimId groupId : String) (members : List ApprovalMember)
    (stampExisting : Bool) : Approval :=
  match edgeOf s.graph claimId with
  | none => s.approval
  | some e =>
      if stampExisting && members.any (fun m => reaches s.graph m.relationship none claimId) then
        { groupId := groupId, content := e.properties }
      else s.approval

def step (w : WriteContext) (guards : Guards) (claimId : String) (s : Reviewed) :
    Request → Except CoreError Reviewed
  | .addRelationships source sourceRef requests call => do
      let t ← serviceAddRelationships w guards s.graph source sourceRef requests call
      return { s with graph := t.graph }
  | .batchDirectWrite source sourceRef entities requests call => do
      let t ← serviceBatchDirectWrite w guards s.graph source sourceRef entities requests call
      return { s with graph := t.2.graph }
  | .approve relationshipType groupId resolutionId members stampExisting call => do
      let h ← approveGroupEdges w guards s.graph relationshipType groupId resolutionId members
        stampExisting call
      return { graph := h, approval := reapproved s claimId groupId members stampExisting }

def Request.writes : Request → List RelationshipRequest
  | .addRelationships _ _ requests _ => requests
  | .batchDirectWrite _ _ _ requests _ => requests
  | .approve .. => []

/-- The content that the request writes to the claim holds no `nan`, and it leaves
alone what the edge has and its approved content lacks. -/
def KeepsAdditions (w : WriteContext) (claimId : String) (s : Reviewed) (r : Request) : Prop :=
  ∀ q ∈ r.writes, reaches s.graph q.edge none claimId = true →
    ∀ incoming, requestedContent w s.graph q.edge = some incoming →
      PlainProperties incoming ∧ ∀ e, edgeOf s.graph claimId = some e →
        LeavesAdditions s.approval e.properties incoming

/-- The edge of the claim is under an exact marker. -/
structure Marked (claimId : String) (s : Reviewed) : Prop where
  wellFormed : WellFormed s.graph
  edge : ∃ e, edgeOf s.graph claimId = some e ∧ Exact s.approval e ∧ Plain s.approval e

section Run
variable {w : WriteContext} {guards : Guards} {claimId : String} {r : Request} {s : Reviewed}

theorem marked_written {h : EntityGraph} {call : Call} (hs : Marked claimId s)
    (hkeeps : KeepsAdditions w claimId s r) (hw : WellFormed h)
    (hedge : ∀ e, edgeOf s.graph claimId = some e → ∃ e', edgeOf h claimId = some e' ∧
      WrittenBy w s.graph r.writes call claimId e e') : Marked claimId { s with graph := h } := by
  have ⟨e, he, hexact, hplain⟩ := hs.edge
  have ⟨e', he', hwritten⟩ := hedge e he
  refine ⟨hw, e', he', ?_⟩
  rcases hwritten with hsame | ⟨q, hq, hreach, r', a, hcontent, hwritten⟩
  · rw [hsame]
    exact ⟨hexact, hplain⟩
  · have ⟨hincoming, hleaves⟩ := hkeeps q hq hreach r'.properties hcontent
    rw [hwritten]
    exact ⟨exact_written hplain hexact hincoming (hleaves e he),
      plain_written hplain hexact hincoming⟩

theorem exact_of_fresh {groupId : String} {e : EdgeData} (hgroup : groupOf e = some groupId)
    (hmarker : marker e = none) (hplain : PlainProperties e.properties) :
    Exact { groupId := groupId, content := e.properties } e ∧
      Plain { groupId := groupId, content := e.properties } e := by
  have hnone : ∀ {P : GroupApprovalDrift → Prop}, ∀ m, marker e = some m → P m := by
    intro P m hm
    rw [hmarker] at hm
    cases hm
  exact ⟨⟨hgroup, ⟨fun _ k => Alike.refl (hplain k), fun _ => hmarker⟩, hnone, hnone, hnone,
    hnone⟩, hplain, hplain, hnone⟩

theorem marked_step {t : Reviewed} (hs : Marked claimId s) (hkeeps : KeepsAdditions w claimId s r)
    (hok : step w guards claimId s r = .ok t) : Marked claimId t := by
  cases r with
  | addRelationships source sourceRef requests call =>
    have ⟨a, ha, hok⟩ := bind_eq_ok.mp hok
    rw [pure_eq_ok] at hok
    have ⟨e, he, _⟩ := hs.edge
    rw [← hok]
    exact marked_written hs hkeeps (written_addRelationships hs.wellFormed ha he).1
      (fun e he => (written_addRelationships hs.wellFormed ha he).2)
  | batchDirectWrite source sourceRef entities requests call =>
    have ⟨a, ha, hok⟩ := bind_eq_ok.mp hok
    rw [pure_eq_ok] at hok
    have ⟨e, he, _⟩ := hs.edge
    rw [← hok]
    exact marked_written hs hkeeps (written_batchDirectWrite hs.wellFormed ha he).1
      (fun e he => (written_batchDirectWrite hs.wellFormed ha he).2)
  | approve relationshipType groupId resolutionId members stampExisting call =>
    have ⟨h, hh, hok⟩ := bind_eq_ok.mp hok
    rw [pure_eq_ok] at hok
    have ⟨e, he, hexact, hplain⟩ := hs.edge
    have ⟨hw, e', he', hcases⟩ := edge_of_approval hs.wellFormed hh he
    rw [← hok]
    refine ⟨hw, e', he', ?_⟩
    simp only [reapproved, he]
    split_ifs at hcases ⊢
    · rw [← hcases.properties]
      apply exact_of_fresh hcases.group hcases.marker
      rw [hcases.properties]
      exact hplain.current
    · rw [hcases]
      exact ⟨hexact, hplain⟩

/-- Over every run of direct writes and approvals after an approval, as long as
no write changes an addition to the approved content, the marker of the edge
lists exactly the properties that differ from the approved content and records
their approved values, and it is missing if and only if there is none. -/
theorem marker_exact_of_keepsAdditions {s : Reviewed} {requests : List Request} {e : EdgeData}
    (hw : WellFormed s.graph) (he : edgeOf s.graph claimId = some e)
    (hgroup : groupOf e = some s.approval.groupId) (hcontent : s.approval.content = e.properties)
    (hmarker : marker e = none) (hplain : PlainProperties e.properties)
    (hrun : Throughout (step w guards claimId) (KeepsAdditions w claimId) s requests) :
    ∃ e', edgeOf (after (step w guards claimId) s requests).graph claimId = some e' ∧
      Exact (after (step w guards claimId) s requests).approval e' := by
  have hstart : Marked claimId s := by
    refine ⟨hw, e, he, ?_⟩
    have hfresh := exact_of_fresh hgroup hmarker hplain
    rw [← hcontent] at hfresh
    exact hfresh
  have hend : Marked claimId (after (step w guards claimId) s requests) :=
    after_invariant (fun hI hC hok => marked_step hI hC hok) hstart hrun
  have ⟨e', he', hexact, _⟩ := hend.edge
  exact ⟨e', he', hexact⟩

end Run

/-- A dependency that a group approved without a weight. -/
def approvedDependency : EdgeData where
  fromNode := makeNodeId "Service" "a"
  toNode := makeNodeId "Service" "b"
  key := 0
  relationshipType := "depends_on"
  claimId := "CLM-1"
  properties := ∅
  metadata := {
    provenance := some { source := some "group_resolve", sourceRef := some "group:GRP-1" } }

def approvedState : Reviewed where
  graph := {
    nodes := Dict.ofList [service "a" none, service "b" none]
    edges := [approvedDependency]
    edgeCounter := 1
    claimIds := ["CLM-1"] }
  approval := { groupId := "GRP-1", content := ∅ }

def setWeight (weight : Int) : Request :=
  .addRelationships "cli" "edit" [{ edge := dependsOn "a" "b" weight }] {}

theorem wellFormed_approvedState : WellFormed approvedState.graph where
  keyed := by
    have hentries : ∀ b ∈ approvedState.graph.nodes.entries, b.2.nodeId = b.1 := by
      decide +kernel
    exact fun n d hd => hentries (n, d) (Dict.mem_of_get? hd)
  indexed := by simp [approvedState, approvedDependency]
  claimsNodup := by simp [approvedState]
  keysBelow := by simp [approvedState, approvedDependency]
  keysNodup := by simp [approvedState]

/-- The first write of an added property is marked exactly. -/
theorem first_addition_is_exact :
    ∃ e', edgeOf (after (step plainEnvironment.w plainEnvironment.guards "CLM-1") approvedState
        [setWeight 1]).graph "CLM-1" = some e' ∧
      Exact (after (step plainEnvironment.w plainEnvironment.guards "CLM-1") approvedState
        [setWeight 1]).approval e' := by
  have hfound : edgeOf approvedState.graph "CLM-1" = some approvedDependency := by
    decide +kernel
  apply marker_exact_of_keepsAdditions wellFormed_approvedState hfound
  · decide +kernel
  · rfl
  · rfl
  · exact plainProperties_of_entries (by decide)
  · refine ⟨?_, trivial⟩
    intro t _ q hq _ incoming hincoming
    have hq' : q = { edge := dependsOn "a" "b" 1 } := List.mem_singleton.mp hq
    have hcontent : requestedContent plainEnvironment.w approvedState.graph (dependsOn "a" "b" 1) =
        some (Dict.ofList [("weight", .int 1)]) := by
      decide +kernel
    rw [hq', hcontent] at hincoming
    rw [← Option.some.inj hincoming]
    refine ⟨plainProperties_of_entries (by decide +kernel), ?_⟩
    intro e he k _ hstored
    rw [hfound] at he
    rw [← Option.some.inj he] at hstored
    exact absurd rfl hstored

/-- A weight added after the approval is set to 1, to 2 and back to 1: the marker
takes the first weight for the approved one and is dropped by the third write. -/
theorem third_write_drops_the_marker :
    ¬ ∀ (w : WriteContext) (guards : Guards) (claimId : String) (s : Reviewed)
        (requests : List Request) (e : EdgeData),
      WellFormed s.graph → edgeOf s.graph claimId = some e →
      groupOf e = some s.approval.groupId → s.approval.content = e.properties →
      marker e = none → PlainProperties e.properties →
      ∃ e', edgeOf (after (step w guards claimId) s requests).graph claimId = some e' ∧
        Exact (after (step w guards claimId) s requests).approval e' := by
  intro hall
  have hend : ((edgeOf (after (step plainEnvironment.w plainEnvironment.guards "CLM-1")
      approvedState [setWeight 1, setWeight 2, setWeight 1]).graph "CLM-1").map fun e =>
        (marker e, e.properties.get? "weight")) = some (none, some (.int 1)) := by
    decide +kernel
  have happroval : (after (step plainEnvironment.w plainEnvironment.guards "CLM-1")
      approvedState [setWeight 1, setWeight 2, setWeight 1]).approval.content = ∅ := by
    decide +kernel
  have ⟨e', he', hexact⟩ := hall plainEnvironment.w plainEnvironment.guards "CLM-1" approvedState
    [setWeight 1, setWeight 2, setWeight 1] approvedDependency wellFormed_approvedState
    (by decide +kernel) (by decide +kernel) rfl rfl (plainProperties_of_entries (by decide))
  rw [he', Option.map_some, Option.some.injEq, Prod.mk.injEq] at hend
  have hagree := hexact.missing.mp hend.1 "weight"
  rw [hend.2, happroval] at hagree
  cases hagree

end Cruxible.DriftRuns
