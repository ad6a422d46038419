import Cruxible.FreeWrites
import Cruxible.Storage

/-!
# What one call changes on an edge row

A relationship write replaces the properties of the edge it finds by the
revalidated union of the stored and the requested ones, and a verdict merges
its corrections and rewrites the review slice. Either way a requested field
appears in its normal form, and any other field that is already in normal form
is kept. At most one member of an accepted call reaches an edge.
-/
namespace Cruxible.EdgeChanges
open JsonValue PythonDict AssertionState AppendOnly Fallible Cruxible.Graph PropertyValidation
open GraphOperations GroupDrift DirectWrites Feedback FreeWrites Storage

/-- The value that a requested property is stored as. -/
def normalForm (w : WriteContext) (relationshipType name : String) (v : Value) : Option Value :=
  ((w.config.getRelationship relationshipType).bind (fun s => s.properties.get? name)).bind
    (fun s => (normalizeValue w.rt v s w.config).toOption)

/-- The fields of an edge that a call sets, with their values. -/
structure EdgeChange where
  properties : String → Option Value := fun _ => none
  review : Option RelationshipReviewState := none
  lifecycle : Option RelationshipLifecycleState := none
  groupOverride : Bool := false
  evidence : Option RelationshipEvidence := none

/-- What a relationship request sets on the edge it updates. -/
def requestChange (w : WriteContext) (q : RelationshipRequest) : EdgeChange where
  properties := fun k =>
    (q.edge.properties.get? k).bind (normalForm w q.edge.relationshipType k)
  lifecycle := q.lifecycle
  evidence := q.edge.metadata.evidence

/-- What a verdict sets on the edge it reaches. -/
def feedbackChange (w : WriteContext) (q : FeedbackRequest) (c : Call) : EdgeChange :=
  match normalizeFeedbackAction q with
  | .error _ => {}
  | .ok action =>
      { properties := fun k =>
          if action = .correct then
            ((q.corrections.getD ∅).get? k).bind (normalForm w q.target.relationshipType k)
          else none,
        review := some { status := action.reviewStatus, source := derivedActorKind c.actorContext,
                         updatedAt := some c.now, updatedBy := some ("feedback:" ++ action.text),
                         actorContext := c.actorContext },
        groupOverride := q.groupOverride }

/-- The edge that a tuple, with an optional key, reaches is the given claim. -/
def reaches (g : EntityGraph) (t : RelationshipInstance) (key : Option Nat) (claimId : String) :
    Bool :=
  (g.findRelationshipEdge t.fromType t.fromId t.toType t.toId t.relationshipType key).map
    EdgeData.claimId = some claimId

/-- The change that `service_add_relationships` makes to one claim. -/
def relationshipChanges (w : WriteContext) (g : EntityGraph) (requests : List RelationshipRequest)
    (claimId : String) : EdgeChange :=
  match requests.find? (fun q => reaches g q.edge none claimId) with
  | some q => requestChange w q
  | none => {}

/-- The change that `service_feedback` makes to one claim. -/
def feedbackChanges (w : WriteContext) (g : EntityGraph) (q : FeedbackRequest) (c : Call)
    (claimId : String) : EdgeChange :=
  if reaches g q.target q.target.edgeKey claimId then feedbackChange w q c else {}

/-- The row shows every field that the change sets. -/
structure Shows (e : EdgeData) (p : EdgeChange) : Prop where
  properties : ∀ k v, p.properties k = some v → e.properties.get? k = some v
  review : ∀ x, p.review = some x → e.metadata.assertion.review = x
  lifecycle : ∀ x, p.lifecycle = some x → e.metadata.assertion.lifecycle = x
  groupOverride : p.groupOverride = true → e.metadata.assertion.groupOverride = true
  evidence : ∀ x, p.evidence = some x → e.metadata.evidence = some x

/-- No field is set by both changes. -/
structure Apart (p q : EdgeChange) : Prop where
  properties : ∀ k, p.properties k = none ∨ q.properties k = none
  review : p.review = none ∨ q.review = none
  lifecycle : p.lifecycle = none ∨ q.lifecycle = none
  groupOverride : p.groupOverride = false ∨ q.groupOverride = false
  evidence : p.evidence = none ∨ q.evidence = none

theorem Apart.symm {p q : EdgeChange} (h : Apart p q) : Apart q p where
  properties := fun k => (h.properties k).symm
  review := h.review.symm
  lifecycle := h.lifecycle.symm
  groupOverride := h.groupOverride.symm
  evidence := h.evidence.symm

/-- Every property that the change sets has a normal form. -/
def Normal (w : WriteContext) (relationshipType : String) (p : EdgeChange) : Prop :=
  ∀ k v, p.properties k = some v → ∃ u, normalForm w relationshipType k u = some v

/-- One row after another: the change is made, and what it does not set is
kept. A property is only kept when it is already in normal form. -/
structure Effect (w : WriteContext) (p : EdgeChange) (e e' : EdgeData) : Prop where
  shown : ∀ k v, p.properties k = some v → e'.properties.get? k = some v
  kept : ∀ k u v, p.properties k = none → normalForm w e.relationshipType k u = some v →
    e.properties.get? k = some v → e'.properties.get? k = some v
  review : e'.metadata.assertion.review = p.review.getD e.metadata.assertion.review
  lifecycle : e'.metadata.assertion.lifecycle = p.lifecycle.getD e.metadata.assertion.lifecycle
  groupOverride : e'.metadata.assertion.groupOverride =
    (p.groupOverride || e.metadata.assertion.groupOverride)
  evidence : e'.metadata.evidence = p.evidence.or e.metadata.evidence

namespace Effect
variable {w : WriteContext} {p q : EdgeChange} {e e' : EdgeData}

theorem refl (w : WriteContext) (e : EdgeData) : Effect w {} e e where
  shown := by
    intro k v hv
    cases hv
  kept := fun _ _ _ _ _ hv => hv
  review := rfl
  lifecycle := rfl
  groupOverride := rfl
  evidence := rfl

theorem shows (h : Effect w p e e') : Shows e' p where
  properties := h.shown
  review := by
    intro x hx
    rw [h.review, hx, Option.getD_some]
  lifecycle := by
    intro x hx
    rw [h.lifecycle, hx, Option.getD_some]
  groupOverride := by
    intro hx
    rw [h.groupOverride, hx, Bool.true_or]
  evidence := by
    intro x hx
    rw [h.evidence, hx, Option.some_or]

/-- A later change that sets none of its fields leaves an earlier one visible. -/
theorem keeps (h : Effect w q e e') (hp : Shows e p) (hn : Normal w e.relationshipType p)
    (ha : Apart p q) : Shows e' p where
  properties := by
    intro k v hv
    obtain ⟨u, hu⟩ := hn k v hv
    have hnone : q.properties k = none := (ha.properties k).resolve_left (by simp [hv])
    exact h.kept k u v hnone hu (hp.properties k v hv)
  review := by
    intro x hx
    have hnone : q.review = none := ha.review.resolve_left (by simp [hx])
    rw [h.review, hnone, Option.getD_none]
    exact hp.review x hx
  lifecycle := by
    intro x hx
    have hnone : q.lifecycle = none := ha.lifecycle.resolve_left (by simp [hx])
    rw [h.lifecycle, hnone, Option.getD_none]
    exact hp.lifecycle x hx
  groupOverride := by
    intro hx
    rw [h.groupOverride, hp.groupOverride hx, Bool.or_true]
  evidence := by
    intro x hx
    have hnone : q.evidence = none := ha.evidence.resolve_left (by simp [hx])
    rw [h.evidence, hnone, Option.none_or]
    exact hp.evidence x hx

end Effect

theorem normal_requestChange (w : WriteContext) (q : RelationshipRequest) :
    Normal w q.edge.relationshipType (requestChange w q) := by
  intro k v hv
  obtain ⟨u, -, hu⟩ := Option.bind_eq_some_iff.mp hv
  exact ⟨u, hu⟩

theorem normal_feedbackChange (w : WriteContext) (q : FeedbackRequest) (c : Call) :
    Normal w q.target.relationshipType (feedbackChange w q c) := by
  intro k v hv
  unfold feedbackChange at hv
  split at hv
  · cases hv
  · simp only at hv
    split_ifs at hv
    obtain ⟨u, -, hu⟩ := Option.bind_eq_some_iff.mp hv
    exact ⟨u, hu⟩

theorem validateRelationship_properties {w : WriteContext} {g : EntityGraph}
    {ft fi r tt ti : String} {payload : Properties} {hint : Option String}
    {v : ValidatedRelationship} (h : validateRelationship w g ft fi r tt ti payload hint = .ok v)
    {e : EdgeData} (he : g.findRelationshipEdge ft fi tt ti r = some e) (k : String) :
    (∀ u, payload.get? k = some u →
      ∃ x, normalForm w r k u = some x ∧ v.relationship.properties.get? k = some x) ∧
    (∀ u x, payload.get? k = none → normalForm w r k u = some x → e.properties.get? k = some x →
      v.relationship.properties.get? k = some x) := by
  unfold validateRelationship at h
  simp only at h
  split at h
  · cases h
  · rename_i schema hschema
    split_ifs at h
    split at h
    · cases h
    · rename_i result hresult
      split_ifs at h with herr
      rw [Except.ok.injEq] at h
      subst h
      simp only [EntityGraph.getRelationship, he, Option.map_some] at hresult
      obtain ⟨haccepts, hdeclared, hget⟩ := validatePropertyPayload_ok hresult herr
      have hread : ∀ u, (e.properties.update payload).get? k = some u →
          ∃ s x, schema.properties.get? k = some s ∧ normalizeValue w.rt u s w.config = .ok x ∧
            result.properties.get? k = some x := by
        intro u hu
        obtain ⟨s, hs⟩ := Option.ne_none_iff_exists'.mp (hdeclared k (by simp [payloadSource, hu]))
        obtain ⟨x, hx⟩ := haccepts (k, s) (Bindings.mem_of_get? hs) (by simp) u hu
        refine ⟨s, x, hs, hx, ?_⟩
        rw [hget k, hs]
        simp [validatedValue, payloadSource, hu, hx, Except.toOption]
      constructor
      · intro u hu
        obtain ⟨s, x, hs, hx, hout⟩ := hread u (by simp [Dict.get?_update, hu])
        exact ⟨x, by simp [normalForm, hschema, hs, hx, Except.toOption], hout⟩
      · intro u x hnone hnormal hstored
        obtain ⟨s, y, hs, hy, hout⟩ := hread x (by simp [Dict.get?_update, hnone, hstored])
        have hfirst : normalizeValue w.rt u s w.config = .ok x := by
          simp only [normalForm, hschema, hs, Option.bind_some] at hnormal
          cases hn : normalizeValue w.rt u s w.config with
          | error m => simp [hn, Except.toOption] at hnormal
          | ok z =>
            obtain rfl : z = x := by simpa [hn, Except.toOption] using hnormal
            rfl
        rw [normalizeValue_idem hfirst hy] at hout
        exact hout

/-- Identity columns are kept, the claim `c` is kept whole when `K` holds, and
no new edge takes its id. -/
def keepFrame (c : String) (K : Prop) : Frame where
  node _ _ := True
  newNode _ := True
  edge a b := (b.claimId = a.claimId ∧ b.fromNode = a.fromNode ∧ b.toNode = a.toNode ∧
      b.key = a.key ∧ b.relationshipType = a.relationshipType) ∧ (K → a.claimId = c → b = a)
  newEdge b := b.claimId ≠ c
  node_refl := fun _ => trivial
  node_trans := fun _ _ => trivial
  newNode_node := fun _ _ => trivial
  edge_refl := fun _ => ⟨⟨rfl, rfl, rfl, rfl, rfl⟩, fun _ _ => rfl⟩
  edge_trans := by
    rintro a b d ⟨⟨i₁, i₂, i₃, i₄, i₅⟩, hab⟩ ⟨⟨j₁, j₂, j₃, j₄, j₅⟩, hbd⟩
    refine ⟨⟨j₁.trans i₁, j₂.trans i₂, j₃.trans i₃, j₄.trans i₄, j₅.trans i₅⟩, ?_⟩
    intro hK ha
    rw [hbd hK (i₁.trans ha), hab hK ha]
  newEdge_edge := fun ha hab hb => ha (hab.1.1 ▸ hb)

section Touched
variable {w : WriteContext} {g h k : EntityGraph} {c : String} {K : Prop}

theorem keepFrame_matches (from_ to_ : NodeId) (r : String) (key : Option Nat) (a b : EdgeData)
    (hab : (keepFrame c K).edge a b) :
    EntityGraph.edgeMatches from_ to_ r key b = EntityGraph.edgeMatches from_ to_ r key a :=
  edgeMatches_congr hab.1.2.1 hab.1.2.2.1 hab.1.2.2.2.1 hab.1.2.2.2.2 _ _ _ _

theorem unkept (h : Evolves (keepFrame c K) g k) : Evolves (keepFrame c False) g k :=
  ⟨h.nodes, h.newNodes, h.edges.mono (fun _ _ hab => ⟨hab.1, fun hK => hK.elim⟩) (fun _ => id),
    h.index, h.wellFormed⟩

variable {key : Option Nat} {call : Call} {m : PreparedRelationship × Option GroupContentDrift}
  {s t : Applied} {source sourceRef : String} {e : EdgeData} {p : PreparedRelationship}

/-- The edge that the tuple of a row finds. -/
abbrev foundEdge (g : EntityGraph) (t : RelationshipInstance) (key : Option Nat) :
    Option EdgeData :=
  g.findRelationshipEdge t.fromType t.fromId t.toType t.toId t.relationshipType key

theorem foundEdge_modifyEdge {t : RelationshipInstance} {f : EdgeData → EdgeData}
    (hf : ∀ e, (f e).fromNode = e.fromNode ∧ (f e).toNode = e.toNode ∧ (f e).key = e.key ∧
      (f e).relationshipType = e.relationshipType) :
    foundEdge (g.modifyEdge t.fromType t.fromId t.toType t.toId t.relationshipType key f) t key =
      (foundEdge g t key).map f :=
  EntityGraph.findRelationshipEdge_modifyEdge _ _ _ _ _ _ _ hf

theorem reaches_iff {t : RelationshipInstance} : reaches g t key c = true ↔
    ∃ e, foundEdge g t key = some e ∧ e.claimId = c := by
  simp [reaches, Option.map_eq_some_iff]

/-- A search in the evolved graph that finds the claim found it before. -/
theorem reaches_of_evolves (hg : Evolves (keepFrame c K) g h) {t : RelationshipInstance}
    (ht : reaches h t key c = true) : reaches g t key c = true := by
  obtain ⟨e, he, hc⟩ := reaches_iff.mp ht
  rcases hg.edges.find?_right (keepFrame_matches _ _ _ _) he with ⟨x, hx, hxe⟩ | hnew
  · exact reaches_iff.mpr ⟨x, hx, hxe.1.1.symm.trans hc⟩
  · exact absurd hc hnew

theorem found_of_reaches (hw : WellFormed g) {t : RelationshipInstance}
    (he : g.edges.find? (fun x => x.claimId = c) = some e) (ht : reaches g t key c = true) :
    foundEdge g t key = some e := by
  obtain ⟨y, hy, hyc⟩ := reaches_iff.mp ht
  have hfound := hw.find?_claimId (List.mem_of_find?_eq_some hy)
  rw [hyc, he] at hfound
  rw [hy, Option.some.inj hfound]

/-- What the validation loop of an accepted call knows of a member. -/
def Validated (w : WriteContext) (g : EntityGraph) (p : PreparedRelationship) : Prop :=
  ∃ hint v, validateRelationship w g p.request.edge.fromType p.request.edge.fromId
      p.request.edge.relationshipType p.request.edge.toType p.request.edge.toId
      p.request.edge.properties hint = .ok v ∧
    p.validated =
      { v with relationship := { v.relationship with metadata := p.request.edge.metadata } }

theorem Validated.fields (hp : Validated w g p) :
    p.validated.relationship.fromType = p.request.edge.fromType ∧
    p.validated.relationship.fromId = p.request.edge.fromId ∧
    p.validated.relationship.toType = p.request.edge.toType ∧
    p.validated.relationship.toId = p.request.edge.toId ∧
    p.validated.relationship.relationshipType = p.request.edge.relationshipType ∧
    p.validated.relationship.edgeKey = none ∧ p.validated.relationship.claimId = none ∧
    p.validated.isUpdate = (foundEdge g p.request.edge none).isSome := by
  obtain ⟨hint, v, hv, hval⟩ := hp
  obtain ⟨htuple, hkey, hclaim, hupdate⟩ := validateRelationship_ok hv
  simp only [RelationshipInstance.identityTuple, Prod.mk.injEq] at htuple
  obtain ⟨h₁, h₂, h₃, h₄, h₅⟩ := htuple
  rw [hval]
  refine ⟨h₁, h₂, h₃, h₄, h₅, hkey, hclaim, ?_⟩
  rw [hupdate, EntityGraph.getRelationship, Option.isSome_map]

theorem evolves_member {h₀ : EntityGraph} (hok : applyPrepared w source sourceRef call s m = .ok t)
    (hg : Evolves (keepFrame c K) g s.graph) (hm : Validated w h₀ m.1) (hc : c ∈ g.claimIds)
    (hmiss : K → reaches g m.1.request.edge none c = false) :
    Evolves (keepFrame c K) g t.graph := by
  obtain ⟨h₁, h₂, h₃, h₄, h₅, hkey, hclaim, -⟩ := hm.fields
  unfold applyPrepared at hok
  obtain ⟨⟨h, durable⟩, happly, hok⟩ := bind_eq_ok.mp hok
  rw [pure_eq_ok] at hok
  rw [← hok]
  have hh : Evolves (keepFrame c K) g h := by
    apply evolves_applyRelationship hg happly
    · intro _ e he
      refine ⟨⟨rfl, rfl, rfl, rfl, rfl⟩, ?_⟩
      intro hK hec
      rw [h₁, h₂, h₃, h₄, h₅, hkey] at he
      have hreach := reaches_of_evolves hg (reaches_iff.mpr ⟨e, he, hec⟩)
      rw [hmiss hK] at hreach
      cases hreach
    · intro _ hfresh k
      change m.1.validated.relationship.claimId.getD _ ≠ c
      rintro hcid
      rw [hcid] at hfresh
      exact hfresh (hg.index hc)
    · exact fun _ _ => trivial
  obtain ⟨f, hsame | hstamp⟩ := stampGroupApprovalDrift_eq h m.1.request.edge m.2 call.receiptId
    call.actorContext call.now
  · simp only [hsame]
    exact hh
  · simp only [hstamp]
    apply hh.trans
    apply Evolves.modifyEdge
    · exact fun _ => rfl
    · exact fun _ => rfl
    · intro e he
      refine ⟨⟨rfl, rfl, rfl, rfl, rfl⟩, ?_⟩
      intro hK hec
      have hreach := reaches_of_evolves hh (reaches_iff.mpr ⟨e, he, hec⟩)
      rw [hmiss hK] at hreach
      cases hreach

/-- A row that was read back shows an edge that the search found. -/
theorem getRelationship_ok {a b d e r : String} {x : RelationshipInstance}
    (hx : g.getRelationship a b d e r key = some x) :
    ∃ y, g.findRelationshipEdge a b d e r key = some y ∧ x.claimId = some y.claimId ∧
      x.edgeKey = some y.key ∧ x.properties = y.properties ∧ x.metadata = y.metadata := by
  obtain ⟨y, hy, rfl⟩ := Option.map_eq_some_iff.mp hx
  exact ⟨y, hy, rfl, rfl, rfl, rfl⟩

/-- The row that an application returns is read back from its result: by the
tuple alone when it updated, by the fresh key when it created. -/
theorem applyRelationship_durable {v : ValidatedRelationship} {a : RelationshipWrite}
    {d : RelationshipInstance} (hok : applyRelationship w g v a = .ok (h, d))
    (hkey : v.relationship.edgeKey = none) :
    ∃ key, h.getRelationship v.relationship.fromType v.relationship.fromId v.relationship.toType
        v.relationship.toId v.relationship.relationshipType key = some d ∧
      (v.isUpdate = true → key = none) := by
  have hread : ∀ {h : EntityGraph} {r : RelationshipInstance} {key : Option Nat},
      durableRelationship h r key = .ok d →
      h.getRelationship r.fromType r.fromId r.toType r.toId r.relationshipType
        (key.or r.edgeKey) = some d := by
    intro h r key hd
    unfold durableRelationship at hd
    split at hd
    · rename_i x hx
      rw [hx, Except.ok.inj hd]
    · cases hd
  unfold applyRelationship at hok
  obtain ⟨⟨⟩, -, hok⟩ := bind_eq_ok.mp hok
  obtain ⟨⟨⟩, -, hok⟩ := bind_eq_ok.mp hok
  split_ifs at hok with hu
  · unfold updateRelationship at hok
    obtain ⟨⟨⟩, -, hok⟩ := bind_eq_ok.mp hok
    obtain ⟨x, hx, hok⟩ := bind_eq_ok.mp hok
    rw [pure_eq_ok] at hok
    obtain ⟨rfl, rfl⟩ := Prod.mk.inj hok
    refine ⟨_, hread hx, ?_⟩
    intro _
    rw [hkey]
    rfl
  · unfold createRelationship at hok
    simp only at hok
    split at hok
    · cases hok
    · rename_i h' key _
      obtain ⟨x, hx, hok⟩ := bind_eq_ok.mp hok
      rw [pure_eq_ok] at hok
      obtain ⟨rfl, rfl⟩ := Prod.mk.inj hok
      exact ⟨_, hread hx, fun hu' => absurd hu' hu⟩

variable {x : EdgeData}

theorem base_of_match (hg : Evolves (keepFrame c K) g k) {t : RelationshipInstance}
    (hx : foundEdge k t key = some x) (hc : x.claimId = c) :
    ∃ x₀ ∈ g.edges, x₀.claimId = c ∧ x₀.key = x.key ∧
      EntityGraph.edgeMatches (makeNodeId t.fromType t.fromId) (makeNodeId t.toType t.toId)
        t.relationshipType none x₀ = true := by
  rcases hg.edges.mem_right (List.mem_of_find?_eq_some hx) with ⟨x₀, hx₀, hrel⟩ | hnew
  · refine ⟨x₀, hx₀, hrel.1.1.symm.trans hc, hrel.1.2.2.2.1.symm, ?_⟩
    rw [← keepFrame_matches _ _ _ none x₀ x hrel]
    have hmatch := List.find?_some hx
    simp only [EntityGraph.edgeMatches, Bool.and_eq_true, decide_eq_true_eq] at hmatch ⊢
    exact ⟨⟨hmatch.1.1, trivial⟩, hmatch.2⟩
  · exact absurd hc hnew

theorem touched_of_miss (hok : applyPrepared w source sourceRef call s m = .ok t)
    (hw : WellFormed g) (hg : Evolves (keepFrame c False) g s.graph) (hm : Validated w g m.1)
    (hc : c ∈ g.claimIds) (hmiss : reaches g m.1.request.edge none c = false) :
    ∃ r, t.touched = s.touched ++ [r] ∧ r.claimId ≠ some c := by
  have hafter := evolves_member hok hg hm hc (fun hK => hK.elim)
  obtain ⟨h₁, h₂, h₃, h₄, h₅, hkey, -, hupdate⟩ := hm.fields
  unfold applyPrepared at hok
  obtain ⟨⟨h, durable⟩, happly, hok⟩ := bind_eq_ok.mp hok
  rw [pure_eq_ok] at hok
  have hh : Evolves (keepFrame c False) g h := by
    apply evolves_applyRelationship hg happly
    · exact fun _ _ _ => ⟨⟨rfl, rfl, rfl, rfl, rfl⟩, fun hK => hK.elim⟩
    · intro _ hfresh k hcid
      change m.1.validated.relationship.claimId.getD _ = c at hcid
      rw [hcid] at hfresh
      exact hfresh (hg.index hc)
    · exact fun _ _ => trivial
  obtain ⟨key, hdurable, hnone⟩ := applyRelationship_durable happly hkey
  rw [h₁, h₂, h₃, h₄, h₅] at hdurable
  obtain ⟨z, hz, hzclaim, hzkey, -, -⟩ := getRelationship_ok hdurable
  have hfirst : ∀ x₀ ∈ g.edges, x₀.claimId = c →
      EntityGraph.edgeMatches (makeNodeId m.1.request.edge.fromType m.1.request.edge.fromId)
        (makeNodeId m.1.request.edge.toType m.1.request.edge.toId)
        m.1.request.edge.relationshipType none x₀ = true → z.claimId ≠ c ∧ z.key ≠ x₀.key := by
    intro x₀ hx₀ hcid hmatch
    obtain ⟨y, hy⟩ := Option.isSome_iff_exists.mp (List.find?_isSome.mpr ⟨x₀, hx₀, hmatch⟩)
    have hyfound : foundEdge g m.1.request.edge none = some y := hy
    have hyc : y.claimId ≠ c := by
      intro hyc
      simp [reaches, hyfound, hyc] at hmiss
    have hu : m.1.validated.isUpdate = true := by
      rw [hupdate, hyfound]
      rfl
    rw [hnone hu] at hz
    obtain ⟨z', hz', hrel⟩ := hh.edges.find? (keepFrame_matches _ _ _ none) hy
    obtain rfl : z = z' := by
      have hboth := hz.symm.trans hz'
      exact Option.some.inj hboth
    refine ⟨fun hzc => hyc (hrel.1.1.symm.trans hzc), ?_⟩
    intro hkeys
    have hsame : y.key = x₀.key := hrel.1.2.2.2.1.symm.trans hkeys
    have hyx : y = x₀ := by
      have hfind := hw.find?_key (List.mem_of_find?_eq_some hy)
      rw [hsame, hw.find?_key hx₀] at hfind
      exact (Option.some.inj hfind).symm
    exact hyc (hyx ▸ hcid)
  refine ⟨_, by rw [← hok], ?_⟩
  cases hstamped : (stampGroupApprovalDrift h m.1.request.edge m.2 call.receiptId
      call.actorContext call.now).getRelationship m.1.request.edge.fromType
      m.1.request.edge.fromId m.1.request.edge.toType m.1.request.edge.toId
      m.1.request.edge.relationshipType durable.edgeKey with
  | none =>
    rw [Option.getD_none, hzclaim]
    intro hcid
    have hzc : z.claimId = c := Option.some.inj hcid
    obtain ⟨x₀, hx₀, hcid₀, -, hmatch⟩ := base_of_match hh hz hzc
    exact (hfirst x₀ hx₀ hcid₀ hmatch).1 hzc
  | some r =>
    rw [Option.getD_some]
    intro hcid
    obtain ⟨x, hx, hxclaim, -, -, -⟩ := getRelationship_ok hstamped
    have hxc : x.claimId = c := Option.some.inj (hxclaim.symm.trans hcid)
    rw [← hok] at hafter
    obtain ⟨x₀, hx₀, hcid₀, hkey₀, hmatch⟩ := base_of_match hafter hx hxc
    have hxkey : x.key = z.key := by
      have hm' := List.find?_some hx
      rw [hzkey] at hm'
      simp only [EntityGraph.edgeMatches, Bool.and_eq_true, decide_eq_true_eq] at hm'
      exact hm'.1.2
    exact (hfirst x₀ hx₀ hcid₀ hmatch).2 (hxkey.symm.trans hkey₀.symm)

/-- The fields of a row that only the drift marker separates from another. -/
structure SameButDrift (r e : EdgeData) : Prop where
  properties : r.properties = e.properties
  review : r.metadata.assertion.review = e.metadata.assertion.review
  lifecycle : r.metadata.assertion.lifecycle = e.metadata.assertion.lifecycle
  groupOverride : r.metadata.assertion.groupOverride = e.metadata.assertion.groupOverride
  evidence : r.metadata.evidence = e.metadata.evidence

section Hit

variable (hok : applyPrepared w source sourceRef call s m = .ok t)
  (hg : Evolves (keepFrame c True) g s.graph) (hm : Validated w g m.1)
  (he : foundEdge g m.1.request.edge none = some e) (hc : e.claimId = c)

include hok hg hm he hc

theorem applied_of_hit :
    refuseRelationshipPolicy w m.1.validated.relationship.relationshipType source
      m.1.request.pending = .ok () ∧ ∃ h durable,
    h.getRelationship m.1.request.edge.fromType m.1.request.edge.fromId m.1.request.edge.toType
      m.1.request.edge.toId m.1.request.edge.relationshipType none = some durable ∧
    foundEdge h m.1.request.edge none = some (updatedEdge m.1.validated.relationship
      (relationshipWrite source sourceRef call m.1.request) e) ∧
    t.graph = stampGroupApprovalDrift h m.1.request.edge m.2 call.receiptId call.actorContext
      call.now ∧
    t.touched = s.touched ++ [(t.graph.getRelationship m.1.request.edge.fromType
      m.1.request.edge.fromId m.1.request.edge.toType m.1.request.edge.toId
      m.1.request.edge.relationshipType durable.edgeKey).getD durable] := by
  obtain ⟨h₁, h₂, h₃, h₄, h₅, hkey, -, hupdate⟩ := hm.fields
  have hu : m.1.validated.isUpdate = true := by
    rw [hupdate, he]
    rfl
  obtain ⟨e', he', hrel⟩ := hg.edges.find? (keepFrame_matches _ _ _ none) he
  obtain rfl : e' = e := hrel.2 trivial hc
  unfold applyPrepared at hok
  obtain ⟨⟨h, durable⟩, happly, hok⟩ := bind_eq_ok.mp hok
  obtain rfl := pure_eq_ok.mp hok
  obtain ⟨key, hdurable, hnone⟩ := applyRelationship_durable happly hkey
  rw [hnone hu, h₁, h₂, h₃, h₄, h₅] at hdurable
  unfold applyRelationship at happly
  obtain ⟨⟨⟩, hpolicy, happly⟩ := bind_eq_ok.mp happly
  obtain ⟨⟨⟩, -, happly⟩ := bind_eq_ok.mp happly
  rw [if_pos hu] at happly
  have hmodify := (updateRelationship_ok happly).1
  rw [h₁, h₂, h₃, h₄, h₅, hkey] at hmodify
  refine ⟨hpolicy, h, durable, hdurable, ?_, rfl, rfl⟩
  have hstill : foundEdge s.graph m.1.request.edge none = some e' := he'
  rw [hmodify, foundEdge_modifyEdge, hstill, Option.map_some]
  exact fun _ => ⟨rfl, rfl, rfl, rfl⟩

theorem touched_of_hit :
    ∃ r x, t.touched = s.touched ++ [r] ∧ r.claimId = some c ∧ r.properties = x.properties ∧
      r.metadata = x.metadata ∧
      SameButDrift x (updatedEdge m.1.validated.relationship
        (relationshipWrite source sourceRef call m.1.request) e) := by
  obtain ⟨-, h, durable, hdurable, hfound, hgraph, htouched⟩ := applied_of_hit hok hg hm he hc
  set upd := updatedEdge m.1.validated.relationship
    (relationshipWrite source sourceRef call m.1.request)
  obtain ⟨z, hz, -, hzkey, -, -⟩ := getRelationship_ok hdurable
  obtain rfl : z = upd e := Option.some.inj (hz.symm.trans hfound)
  obtain ⟨f, hstamp⟩ := stampGroupApprovalDrift_eq h m.1.request.edge m.2 call.receiptId
    call.actorContext call.now
  obtain ⟨x, hx, hxclaim, hxkey, hxsame⟩ : ∃ x, foundEdge t.graph m.1.request.edge none = some x ∧
      x.claimId = c ∧ x.key = (upd e).key ∧ SameButDrift x (upd e) := by
    rw [hgraph]
    rcases hstamp with hsame | hmodify
    · rw [hsame]
      exact ⟨upd e, hfound, hc, rfl, ⟨rfl, rfl, rfl, rfl, rfl⟩⟩
    · rw [hmodify, foundEdge_modifyEdge, hfound, Option.map_some]
      · exact ⟨_, rfl, hc, rfl, ⟨rfl, rfl, rfl, rfl, rfl⟩⟩
      · exact fun _ => ⟨rfl, rfl, rfl, rfl⟩
  have hback := EntityGraph.findRelationshipEdge_key hx
  rw [hxkey, ← hzkey] at hback
  refine ⟨_, x, htouched, ?_⟩
  simp only [EntityGraph.getRelationship, hback, Option.map_some, Option.getD_some, hxclaim,
    true_and]
  exact hxsame

end Hit

theorem touched_of_misses {ms : List (PreparedRelationship × Option GroupContentDrift)}
    (hok : ms.foldlM (applyPrepared w source sourceRef call) s = .ok t) (hw : WellFormed g)
    (hg : Evolves (keepFrame c K) g s.graph) (hc : c ∈ g.claimIds)
    (hms : ∀ m ∈ ms, Validated w g m.1 ∧ reaches g m.1.request.edge none c = false) :
    Evolves (keepFrame c K) g t.graph ∧
      ∃ rows, t.touched = s.touched ++ rows ∧ ∀ r ∈ rows, r.claimId ≠ some c := by
  induction ms generalizing s with
  | nil =>
    obtain rfl := foldlM_nil_eq_ok.mp hok
    exact ⟨hg, [], by simp, by simp⟩
  | cons m ms ih =>
    obtain ⟨mid, hmid, hrest⟩ := foldlM_cons_eq_ok.mp hok
    obtain ⟨hval, hmiss⟩ := hms m List.mem_cons_self
    have hkeep := evolves_member hmid hg hval hc (fun _ => hmiss)
    obtain ⟨r, hr, hrc⟩ := touched_of_miss hmid hw (unkept hg) hval hc hmiss
    obtain ⟨hlast, rows, hrows, hne⟩ := ih hrest hkeep
      (fun x hx => hms x (List.mem_cons_of_mem m hx))
    refine ⟨hlast, r :: rows, ?_, ?_⟩
    · rw [hrows, hr, List.append_assoc, List.singleton_append]
    · intro x hx
      rcases List.mem_cons.mp hx with rfl | hx
      · exact hrc
      · exact hne x hx

theorem prepareMembers_ok {label hint : String} {members : List (RelationshipRequest × Nat)}
    {b b' : RelationshipBatch}
    (hok : members.foldlM (fun b p => prepareRelationshipMember w label hint g b (p.2, p.1)) b =
      .ok b') (herr : b'.errors = []) :
    b.errors = [] ∧
    (∃ ps, b'.prepared = b.prepared ++ ps ∧
      ps.map PreparedRelationship.request = members.map Prod.fst ∧ ∀ p ∈ ps, Validated w g p) ∧
    (∀ q ∈ members.map Prod.fst, q.edge.identityTuple ∉ b.seen) ∧
    ((members.map Prod.fst).map (fun q => q.edge.identityTuple)).Nodup := by
  induction members generalizing b with
  | nil =>
    obtain rfl := foldlM_nil_eq_ok.mp hok
    exact ⟨herr, ⟨[], by simp, rfl, by simp⟩, by simp, by simp⟩
  | cons p members ih =>
    obtain ⟨q, i⟩ := p
    obtain ⟨mid, hmid, hrest⟩ := foldlM_cons_eq_ok.mp hok
    obtain ⟨hmiderr, ⟨ps, hps, hreq, hval⟩, hseen, hnodup⟩ := ih hrest
    rcases prepareRelationshipMember_cases hmid with ⟨error, rfl⟩ | ⟨hdup, v, hv, -, rfl⟩
    · simp at hmiderr
    · let here : PreparedRelationship :=
        { validated := { v with relationship :=
            { v.relationship with metadata := q.edge.metadata } }, request := q }
      refine ⟨hmiderr, ⟨here :: ps, ?_, ?_, ?_⟩, ?_, ?_⟩
      · rw [hps, List.append_assoc, List.singleton_append]
      · simpa [here] using hreq
      · intro x hx
        rcases List.mem_cons.mp hx with rfl | hx
        · exact ⟨some hint, v, hv, rfl⟩
        · exact hval x hx
      · intro x hx
        rcases List.mem_cons.mp hx with rfl | hx
        · exact hdup
        · exact fun hmem => hseen x hx (List.mem_cons_of_mem _ hmem)
      · rw [List.map_cons, List.map_cons, List.nodup_cons]
        refine ⟨?_, hnodup⟩
        intro hmem
        obtain ⟨x, hx, hxt⟩ := List.mem_map.mp hmem
        exact hseen x hx (hxt ▸ List.mem_cons_self)

theorem tuple_of_reaches {q : PreparedRelationship} (hp : Validated w g p) (hq : Validated w g q)
    (hpc : reaches g p.request.edge none c = true) (hqc : reaches g q.request.edge none c = true)
    (hw : WellFormed g) : p.request.edge.identityTuple = q.request.edge.identityTuple := by
  simp only [reaches, decide_eq_true_eq] at hpc hqc
  obtain ⟨x, hx, hxc⟩ := Option.map_eq_some_iff.mp hpc
  obtain ⟨y, hy, hyc⟩ := Option.map_eq_some_iff.mp hqc
  have hxy : x = y := by
    have hfind := hw.find?_claimId (List.mem_of_find?_eq_some hx)
    rw [hxc, ← hyc, hw.find?_claimId (List.mem_of_find?_eq_some hy)] at hfind
    exact (Option.some.inj hfind).symm
  subst hxy
  have hmx := List.find?_some hx
  have hmy := List.find?_some hy
  simp only [EntityGraph.edgeMatches, Bool.and_eq_true, decide_eq_true_eq] at hmx hmy
  have htype : p.request.edge.relationshipType = q.request.edge.relationshipType :=
    hmx.2.symm.trans hmy.2
  have hends : ∀ {p : PreparedRelationship}, Validated w g p → ∃ schema,
      w.config.getRelationship p.request.edge.relationshipType = some schema ∧
      p.request.edge.fromType = schema.fromEntity ∧ p.request.edge.toType = schema.toEntity := by
    rintro p ⟨hint, v, hv, -⟩
    unfold validateRelationship at hv
    simp only at hv
    split at hv
    · cases hv
    · rename_i schema hschema
      split_ifs at hv with hfrom hto
      exact ⟨schema, hschema, not_not.mp hfrom, not_not.mp hto⟩
  obtain ⟨sp, hsp, hpf, hpt⟩ := hends hp
  obtain ⟨sq, hsq, hqf, hqt⟩ := hends hq
  obtain rfl : sp = sq := by
    rw [htype, hsq] at hsp
    exact (Option.some.inj hsp).symm
  have hfrom : p.request.edge.fromType = q.request.edge.fromType := hpf.trans hqf.symm
  have hto : p.request.edge.toType = q.request.edge.toType := hpt.trans hqt.symm
  have hfid : p.request.edge.fromId = q.request.edge.fromId := by
    have hnode := hmx.1.1.1.symm.trans hmy.1.1.1
    rw [hfrom] at hnode
    exact makeNodeId_inj hnode
  have htid : p.request.edge.toId = q.request.edge.toId := by
    have hnode := hmx.1.1.2.symm.trans hmy.1.1.2
    rw [hto] at hnode
    exact makeNodeId_inj hnode
  simp only [RelationshipInstance.identityTuple, hfrom, hfid, hto, htid, htype]

/-- Under distinct tuples one member at most reaches the claim. -/
theorem others_miss {ms₁ ms₂ : List (PreparedRelationship × Option GroupContentDrift)}
    (hw : WellFormed g) (hval : ∀ x ∈ ms₁ ++ m :: ms₂, Validated w g x.1)
    (hnodup : ((ms₁ ++ m :: ms₂).map fun x => x.1.request.edge.identityTuple).Nodup)
    (hreach : reaches g m.1.request.edge none c = true) :
    ∀ x, x ∈ ms₁ ∨ x ∈ ms₂ → Validated w g x.1 ∧ reaches g x.1.request.edge none c = false := by
  intro x hx
  have hxval := hval x (by rcases hx with hx | hx <;> simp [hx])
  refine ⟨hxval, ?_⟩
  by_contra hxreach
  have htuple := tuple_of_reaches (hval m (by simp)) hxval hreach (by simpa using hxreach) hw
  rw [List.map_append, List.map_cons] at hnodup
  have ⟨_, htail, hdisjoint⟩ := List.nodup_append.mp hnodup
  rcases hx with hx | hx
  · have hmem := List.mem_map_of_mem (f := fun m => m.1.request.edge.identityTuple) hx
    exact hdisjoint _ hmem _ List.mem_cons_self htuple.symm
  · have hmem := List.mem_map_of_mem (f := fun m => m.1.request.edge.identityTuple) hx
    rw [← htuple] at hmem
    exact (List.nodup_cons.mp htail).1 hmem

theorem effect_updatedEdge (hp : Validated w g p)
    (he : foundEdge g p.request.edge none = some e)
    (hx : SameButDrift x (updatedEdge p.validated.relationship
      (relationshipWrite source sourceRef call p.request) e)) :
    Effect w (requestChange w p.request) e x := by
  obtain ⟨hint, v, hv, hval⟩ := hp
  have htype : e.relationshipType = p.request.edge.relationshipType := by
    have hmatch := List.find?_some he
    simp only [EntityGraph.edgeMatches, Bool.and_eq_true, decide_eq_true_eq] at hmatch
    exact hmatch.2
  have hprops : x.properties = v.relationship.properties := by
    rw [hx.properties, hval]
    rfl
  constructor
  · intro k u hu
    obtain ⟨r, hr, hnormal⟩ := Option.bind_eq_some_iff.mp hu
    obtain ⟨y, hy, hget⟩ := (validateRelationship_properties hv he k).1 r hr
    rw [hnormal] at hy
    rw [hprops, hget, Option.some.inj hy]
  · intro k u y hnone hnormal hstored
    rw [htype] at hnormal
    have habsent : p.request.edge.properties.get? k = none := by
      cases hr : p.request.edge.properties.get? k with
      | none => rfl
      | some r =>
        obtain ⟨z, hz, -⟩ := (validateRelationship_properties hv he k).1 r hr
        simp [requestChange, hr, hz] at hnone
    rw [hprops]
    exact (validateRelationship_properties hv he k).2 u y habsent hnormal hstored
  · rw [hx.review]
    rfl
  · rw [hx.lifecycle]
    rfl
  · rw [hx.groupOverride]
    simp [updatedEdge, updatedMetadata, requestChange]
  · rw [hx.evidence, hval]
    rfl

theorem members_of_prepared {label hint : String} {requests : List RelationshipRequest}
    {b : RelationshipBatch} {drifts : List (Option GroupContentDrift)}
    {detect : PreparedRelationship → Except CoreError (Option GroupContentDrift)}
    (hb : prepareRelationships w label hint g requests = .ok b) (herr : b.errors = [])
    (hdrifts : b.prepared.mapM detect = .ok drifts) :
    (∀ m ∈ b.prepared.zip drifts, Validated w g m.1) ∧
      (b.prepared.zip drifts).map (fun m => m.1.request) = requests ∧
      ((b.prepared.zip drifts).map fun m => m.1.request.edge.identityTuple).Nodup := by
  obtain ⟨-, ⟨ps, hps, hreq, hval⟩, -, hnodup⟩ := prepareMembers_ok hb herr
  have hlist : (requests.zipIdx 1).map Prod.fst = requests := by simp
  rw [hlist] at hreq hnodup
  rw [List.nil_append] at hps
  have hfst : (b.prepared.zip drifts).map Prod.fst = ps := by
    rw [hps, List.map_fst_zip]
    rw [← hps, mapM_ok_length hdrifts]
  have hmsreq : (b.prepared.zip drifts).map (fun m => m.1.request) = requests := by
    rw [← hreq, ← hfst, List.map_map]
    rfl
  refine ⟨fun m hm => hval m.1 (hfst ▸ List.mem_map_of_mem hm), hmsreq, ?_⟩
  rw [← hmsreq, List.map_map] at hnodup
  exact hnodup

theorem addRelationships_row {guards : Guards} {requests : List RelationshipRequest}
    {d' : EntityGraph} (hw : WellFormed g)
    (hok : serviceAddRelationships w guards g source sourceRef requests call = .ok s)
    (hsave : upsertRelationships g s.touched = .ok d')
    (he : g.edges.find? (fun x => x.claimId = c) = some e) :
    ∃ e', d'.edges.find? (fun x => x.claimId = c) = some e' ∧
      e'.relationshipType = e.relationshipType ∧
      Effect w (relationshipChanges w g requests c) e e' := by
  have hec : e.claimId = c := by simpa using List.find?_some he
  have hmem := List.mem_of_find?_eq_some he
  have hc : c ∈ g.claimIds := hec ▸ hw.indexed e hmem
  obtain ⟨-, b, drifts, hb, herrors, hdrifts, hok⟩ := addRelationships_accepted hok
  obtain ⟨hmsval, hmsreq, hnodup⟩ := members_of_prepared hb herrors hdrifts
  set ms := b.prepared.zip drifts
  obtain ⟨e', he', htype, hrow⟩ := upsertRelationships_find? hsave he
  refine ⟨e', he', htype, ?_⟩
  unfold relationshipChanges
  cases hfind : requests.find? (fun q => reaches g q.edge none c) with
  | none =>
    have hmiss : ∀ m ∈ ms, Validated w g m.1 ∧ reaches g m.1.request.edge none c = false := by
      intro m hm
      have hq : m.1.request ∈ requests := hmsreq ▸ List.mem_map_of_mem hm
      exact ⟨hmsval m hm, by simpa using List.find?_eq_none.mp hfind _ hq⟩
    obtain ⟨-, rows, hrows, hne⟩ := touched_of_misses hok hw
      (Evolves.refl (keepFrame c True) g) hc hmiss
    rw [List.nil_append] at hrows
    rcases hrow with ⟨r, hr, hrc, -⟩ | ⟨-, rfl⟩
    · exact absurd hrc (hne r (hrows ▸ hr))
    · exact Effect.refl w e'
  | some q =>
    have hqc := List.find?_some hfind
    have hqmem := List.mem_of_find?_eq_some hfind
    rw [← hmsreq] at hqmem
    obtain ⟨m, hm, rfl⟩ := List.mem_map.mp hqmem
    have hmval := hmsval m hm
    obtain ⟨ms₁, ms₂, hsplit⟩ := List.append_of_mem hm
    rw [hsplit] at hok hmsval hnodup
    have hothers := others_miss hw hmsval hnodup hqc
    unfold applyAllPrepared at hok
    rw [List.foldlM_append] at hok
    obtain ⟨s₁, hs₁, hok⟩ := bind_eq_ok.mp hok
    obtain ⟨s₂, hs₂, hs₃⟩ := foldlM_cons_eq_ok.mp hok
    obtain ⟨hkeep, rows₁, hrows₁, hne₁⟩ := touched_of_misses hs₁ hw
      (Evolves.refl (keepFrame c True) g) hc fun x hx => hothers x (.inl hx)
    rw [List.nil_append] at hrows₁
    have hfound := found_of_reaches hw he hqc
    obtain ⟨r, x, hr, hrc, hrp, hrm, hsame⟩ := touched_of_hit hs₂ hkeep hmval hfound hec
    have hmidkeep := evolves_member hs₂ (unkept hkeep) hmval hc (fun hK => hK.elim)
    obtain ⟨-, rows₂, hrows₂, hne₂⟩ := touched_of_misses hs₃ hw hmidkeep hc
      fun x hx => hothers x (.inr hx)
    have htouched : s.touched = rows₁ ++ r :: rows₂ := by
      rw [hrows₂, hr, hrows₁, List.append_assoc, List.singleton_append]
    have hx : Effect w (requestChange w m.1.request) e x :=
      effect_updatedEdge hmval hfound hsame
    rcases hrow with ⟨r', hr', hrc', hprops, hmeta⟩ | ⟨hnever, -⟩
    · rw [htouched] at hr'
      have hrr : r' = r := by
        rcases List.mem_append.mp hr' with hr' | hr'
        · exact absurd hrc' (hne₁ r' hr')
        · rcases List.mem_cons.mp hr' with hr' | hr'
          · exact hr'
          · exact absurd hrc' (hne₂ r' hr')
      rw [hrr, hrp] at hprops
      rw [hrr, hrm] at hmeta
      exact ⟨fun k v hv => hprops ▸ hx.shown k v hv,
        fun k u v h₁ h₂ h₃ => hprops ▸ hx.kept k u v h₁ h₂ h₃, hmeta ▸ hx.review,
        hmeta ▸ hx.lifecycle, hmeta ▸ hx.groupOverride, hmeta ▸ hx.evidence⟩
    · exact absurd hrc (hnever r (by simp [htouched]))

end Touched

section Verdict
variable {w : WriteContext} {g h : EntityGraph} {c : String}

/-- The row that `service_feedback` persists, read back under its target. -/
def touchedByFeedback (h : EntityGraph) (q : FeedbackRequest) : List RelationshipInstance :=
  (h.getRelationship q.target.fromType q.target.fromId q.target.toType q.target.toId
    q.target.relationshipType q.target.edgeKey).toList

variable {profiles : Dict String FeedbackProfileSchema} {q : FeedbackRequest} {f : FeedbackRecord}
  {call : Call}

theorem normalizeFeedbackRecord_ok {actor : Option GovernedActorContext}
    (hok : normalizeFeedbackRecord w profiles g q actor = .ok f) :
    normalizeFeedbackAction q = .ok f.action ∧ f.actorContext = actor ∧
      f.target.identityTuple = q.target.identityTuple ∧ f.target.edgeKey = q.target.edgeKey ∧
      normalizeCorrections w f.action q.target.relationshipType (q.corrections.getD ∅) =
        .ok f.corrections := by
  unfold normalizeFeedbackRecord at hok
  obtain ⟨action, haction, hok⟩ := bind_eq_ok.mp hok
  obtain ⟨resolved, -, hok⟩ := bind_eq_ok.mp hok
  cases resolved with
  | none | some r =>
    obtain ⟨corrections, hcorrections, hok⟩ := bind_eq_ok.mp hok
    obtain ⟨⟨⟩, -, hok⟩ := bind_eq_ok.mp hok
    simp only at hok
    split at hok
    · obtain ⟨⟨⟩, -, hok⟩ := bind_eq_ok.mp hok
      obtain rfl := pure_eq_ok.mp hok
      exact ⟨haction, rfl, rfl, rfl, hcorrections⟩
    · rw [pure_eq_ok] at hok
      subst hok
      exact ⟨haction, rfl, rfl, rfl, hcorrections⟩

theorem normalizeCorrections_get? {r : String} {corrections p : Properties}
    (hok : normalizeCorrections w .correct r corrections = .ok p) (k : String) :
    p.get? k = (corrections.get? k).bind (normalForm w r k) := by
  unfold normalizeCorrections at hok
  split_ifs at hok with hsome
  · split at hok
    · cases hok
    · rename_i schema hschema
      obtain ⟨v, hv, hok⟩ := bind_eq_ok.mp hok
      split_ifs at hok with herr
      obtain rfl := pure_eq_ok.mp hok
      obtain ⟨-, hdeclared, hget⟩ := validatePropertyPayload_ok hv herr
      rw [hget k]
      cases hc : corrections.get? k with
      | none =>
        cases hs : schema.properties.get? k with
        | none => rfl
        | some s => simp [validatedValue, payloadSource, hc]
      | some u =>
        obtain ⟨s, hs⟩ := Option.ne_none_iff_exists'.mp
          (hdeclared k (by simp [payloadSource, hc]))
        simp [hs, validatedValue, payloadSource, hc, normalForm, hschema]
  · rw [Except.ok.injEq] at hok
    subst hok
    have hempty : corrections.entries = [] := by
      by_contra hne
      exact hsome ⟨rfl, hne⟩
    have hnone : corrections.get? k = none := by
      rw [Dict.get?_eq_none, Dict.keys, hempty]
      simp
    simp [hnone]

theorem effect_feedbackEdge (haction : normalizeFeedbackAction q = .ok f.action)
    (hactor : f.actorContext = call.actorContext)
    (hcorrections : normalizeCorrections w f.action q.target.relationshipType
      (q.corrections.getD ∅) = .ok f.corrections) (e : EdgeData) :
    Effect w (feedbackChange w q call) e
      (if q.groupOverride then overrideEdge (feedbackEdge f call.now e)
        else feedbackEdge f call.now e) := by
  have hprops : ∀ k, (feedbackEdge f call.now e).properties.get? k =
      ((feedbackChange w q call).properties k).or (e.properties.get? k) := by
    intro k
    cases ha : f.action with
    | accept | reject => simp [feedbackEdge, feedbackChange, haction, ha, Dict.get?_update]
    | correct =>
      rw [ha] at hcorrections
      simp [feedbackEdge, feedbackChange, haction, ha, Dict.get?_update,
        normalizeCorrections_get? hcorrections]
  have hsame : (if q.groupOverride then overrideEdge (feedbackEdge f call.now e)
      else feedbackEdge f call.now e).properties = (feedbackEdge f call.now e).properties := by
    split_ifs <;> rfl
  constructor
  · intro k v hv
    rw [hsame, hprops, hv, Option.some_or]
  · intro k u v hnone _ hv
    rw [hsame, hprops, hnone, Option.none_or]
    exact hv
  · simp only [feedbackChange, haction, Option.getD_some]
    split_ifs <;> simp [overrideEdge, feedbackEdge, feedbackMetadata, hactor]
  · simp only [feedbackChange, haction, Option.getD_none]
    split_ifs <;> rfl
  · simp only [feedbackChange, haction]
    cases q.groupOverride <;> simp [overrideEdge, feedbackEdge, feedbackMetadata]
  · simp only [feedbackChange, haction, Option.none_or]
    split_ifs <;> rfl

theorem feedback_row {graphWrite : Bool} {d' : EntityGraph} (hw : WellFormed g)
    (hok : serviceFeedback w profiles graphWrite g [q] call = .ok h)
    (hsave : upsertRelationships g (touchedByFeedback h q) = .ok d') {e : EdgeData}
    (he : g.edges.find? (fun x => x.claimId = c) = some e) :
    ∃ e', d'.edges.find? (fun x => x.claimId = c) = some e' ∧
      e'.relationshipType = e.relationshipType ∧
      Effect w (feedbackChanges w g q call c) e e' := by
  unfold serviceFeedback at hok
  obtain ⟨⟨⟩, -, hok⟩ := bind_eq_ok.mp hok
  obtain ⟨records, hrecords, hok⟩ := bind_eq_ok.mp hok
  obtain ⟨⟨⟩, -, hok⟩ := bind_eq_ok.mp hok
  rw [List.mapM_cons, bind_eq_ok] at hrecords
  obtain ⟨f, hf, hrecords⟩ := hrecords
  obtain rfl : [f] = records := by simpa [pure, Except.pure, bind, Except.bind] using hrecords
  obtain ⟨haction, hactor, htuple, hkey, hcorrections⟩ := normalizeFeedbackRecord_ok hf
  have happly : applyFeedbackRecord g f q.groupOverride call.now = .ok h := by
    rw [List.zip_cons_cons, List.foldlM_cons, bind_eq_ok] at hok
    obtain ⟨k, hk, hok⟩ := hok
    obtain rfl := foldlM_nil_eq_ok.mp hok
    exact hk
  simp only [RelationshipInstance.identityTuple, Prod.mk.injEq] at htuple
  obtain ⟨h₁, h₂, h₃, h₄, h₅⟩ := htuple
  have hread := applyFeedbackRecord_find happly
  rw [h₁, h₂, h₃, h₄, h₅, hkey] at hread
  obtain ⟨e', he', htype, hrow⟩ := upsertRelationships_find? hsave he
  refine ⟨e', he', htype, ?_⟩
  simp only [touchedByFeedback, EntityGraph.getRelationship, hread] at hrow
  unfold feedbackChanges
  cases hfound : g.findRelationshipEdge q.target.fromType q.target.fromId q.target.toType
      q.target.toId q.target.relationshipType q.target.edgeKey with
  | none =>
    simp only [hfound, Option.map_none, Option.toList_none, List.not_mem_nil, false_and,
      exists_false, false_or] at hrow
    simp only [reaches, hfound, Option.map_none, reduceCtorEq, decide_false, Bool.false_eq_true,
      if_false]
    rw [hrow.2]
    exact Effect.refl w e
  | some y =>
    simp only [hfound, Option.map_some, Option.toList_some, List.mem_singleton] at hrow
    by_cases hyc : y.claimId = c
    · have hye : y = e := by
        have hfind := hw.find?_claimId (List.mem_of_find?_eq_some hfound)
        rw [hyc, he] at hfind
        exact (Option.some.inj hfind).symm
      subst hye
      have heffect := effect_feedbackEdge haction hactor hcorrections y
      have hid : (if q.groupOverride = true then overrideEdge (feedbackEdge f call.now y)
          else feedbackEdge f call.now y).claimId = y.claimId := by
        split_ifs <;> rfl
      simp only [reaches, hfound, Option.map_some, hyc, decide_true, if_true]
      rcases hrow with ⟨r, rfl, -, hprops, hmeta⟩ | ⟨hnever, -⟩
      · exact ⟨fun k v hv => hprops ▸ heffect.shown k v hv,
          fun k u v a b d => hprops ▸ heffect.kept k u v a b d, hmeta ▸ heffect.review,
          hmeta ▸ heffect.lifecycle, hmeta ▸ heffect.groupOverride, hmeta ▸ heffect.evidence⟩
      · exact absurd (congrArg some (hid.trans hyc)) (hnever _ rfl)
    · have hid : (if q.groupOverride = true then overrideEdge (feedbackEdge f call.now y)
          else feedbackEdge f call.now y).claimId = y.claimId := by
        split_ifs <;> rfl
      simp only [reaches, hfound, Option.map_some, Option.some.injEq, hyc, decide_false,
        Bool.false_eq_true, if_false]
      rcases hrow with ⟨r, rfl, hrc, -⟩ | ⟨-, rfl⟩
      · exact absurd (hid.symm.trans (Option.some.inj hrc)) hyc
      · exact Effect.refl w e'

end Verdict

end Cruxible.EdgeChanges
