import Cruxible.UpstreamPulls

/-!
# The local part of a stored graph

The nodes of local types and the edges of local types, and for an endpoint of an
upstream type a stub: this is what extraction finds in a stored graph whose type
names contain no separator, and what a pull leaves as it was.
-/
namespace Cruxible.LocalParts
open JsonValue PythonDict AssertionState AppendOnly GraphImages ClaimIndexes OverlayMerges
open UpstreamPulls
open Fallible (bind_eq_ok pure_eq_ok foldlM_cons_eq_ok)
open Cruxible.Graph (EntityInstance RelationshipInstance blank)

section Extraction
variable {g subgraph next : EntityGraph} {entityTypes relationshipTypes : List String}

/-- Nodes are added and none is rewritten. -/
def Grows (g h : EntityGraph) : Prop := ∀ n d, g.nodes.get? n = some d → h.nodes.get? n = some d

theorem Grows.trans {h k : EntityGraph} (hgh : Grows g h) (hhk : Grows h k) : Grows g k :=
  fun n d hd => hhk n d (hgh n d hd)

theorem grows_addEntity {e : EntityInstance}
    (habsent : g.hasEntity e.entityType e.entityId = false) : Grows g (g.addEntity e) := by
  intro n d hd
  change (g.nodes.set (makeNodeId e.entityType e.entityId) (nodeOf e)).get? n = some d
  have hn : makeNodeId e.entityType e.entityId ≠ n := by
    intro hn
    rw [EntityGraph.hasEntity, hn, hd] at habsent
    cases habsent
  rw [Dict.get?_set_of_ne _ _ hn]
  exact hd

theorem grows_ensureNode (g : EntityGraph) (t i : String) : Grows g (g.ensureNode t i) := by
  unfold EntityGraph.ensureNode
  split_ifs with hpresent
  · exact fun _ _ hd => hd
  · apply grows_addEntity
    simpa using hpresent

theorem extractEntities_nodes (entityTypes : List String) (entities : List EntityInstance)
    (hentities : ∀ e ∈ entities,
      g.nodes.get? (makeNodeId e.entityType e.entityId) = some (nodeOf e))
    (start : EntityGraph) (n : String) :
    (entities.foldl (extractEntity entityTypes) start).edges = start.edges ∧
    (entities.foldl (extractEntity entityTypes) start).nodes.get? n =
      if ∃ e ∈ entities, e.entityType ∈ entityTypes ∧ makeNodeId e.entityType e.entityId = n
      then g.nodes.get? n else start.nodes.get? n := by
  induction entities generalizing start with
  | nil => simp
  | cons e es ih =>
    have he := hentities e List.mem_cons_self
    have ⟨hedges, hnodes⟩ := ih (fun x hx => hentities x (List.mem_cons_of_mem e hx))
      (extractEntity entityTypes start e)
    rw [List.foldl_cons]
    by_cases hselected : e.entityType ∈ entityTypes
    · have hstep : extractEntity entityTypes start e = start.addEntity e := if_pos hselected
      rw [hstep] at hedges hnodes ⊢
      refine ⟨hedges, ?_⟩
      rw [hnodes]
      have hset : (start.addEntity e).nodes.get? n =
          if makeNodeId e.entityType e.entityId = n then some (nodeOf e)
          else start.nodes.get? n := Dict.get?_set _ _ _ _
      by_cases hn : makeNodeId e.entityType e.entityId = n
      · have hd : g.nodes.get? n = some (nodeOf e) := hn ▸ he
        rw [hset, if_pos hn, ← hd, ite_self]
        rw [if_pos ⟨e, List.mem_cons_self, hselected, hn⟩]
      · rw [hset, if_neg hn]
        simp [hn]
    · have hstep : extractEntity entityTypes start e = start := if_neg hselected
      rw [hstep] at hedges hnodes ⊢
      refine ⟨hedges, ?_⟩
      rw [hnodes]
      simp [hselected]

theorem copyEndpoint_ok {t i : String} (hg : Covered g) (hs : EdgesIndexed subgraph)
    (hok : copyEndpoint g entityTypes subgraph t i = .ok next) :
    Grows subgraph next ∧ next.edges = subgraph.edges ∧ EdgesIndexed next := by
  unfold copyEndpoint at hok
  by_cases hcopied : t ∈ entityTypes ∧ subgraph.hasEntity t i = false
  · rw [if_pos hcopied, bind_eq_ok] at hok
    have ⟨found, hget, hfound⟩ := hok
    cases found with
    | none =>
      rw [← pure_eq_ok.mp hfound]
      exact ⟨fun _ _ hd => hd, rfl, hs⟩
    | some e =>
      rw [← pure_eq_ok.mp hfound]
      refine ⟨grows_addEntity ?_, rfl, edgesIndexed_nodes hs _ _⟩
      unfold getEntity at hget
      cases hd : g.nodes.get? (makeNodeId t i) with
      | none =>
        rw [hd] at hget
        cases hget
      | some d =>
        have ⟨e', hd', hn, _⟩ := hg _ d hd
        rw [hd, hd'] at hget
        have hsame : e' = e := Option.some.inj (Except.ok.inj hget)
        have habsent := hcopied.2
        rw [EntityGraph.hasEntity, hn, hsame] at habsent
        exact habsent
  · rw [if_neg hcopied] at hok
    rw [← pure_eq_ok.mp hok]
    exact ⟨fun _ _ hd => hd, rfl, hs⟩

variable {e : EdgeData} {r : RelationshipInstance} {es : List EdgeData}

theorem addRelationship_content (hs : EdgesIndexed subgraph) (hr : edgeRow e = .ok r)
    (hok : subgraph.addRelationship r = .ok next) :
    (next.edges.map content).Perm (subgraph.edges.map content ++ [content e]) ∧
      next.nodes = ((subgraph.ensureNode r.fromType r.fromId).ensureNode r.toType r.toId).nodes := by
  have ⟨_, htype, hfrom, hto, hclaim, hproperties, hmetadata⟩ := edgeRow_ok hr
  have ⟨c, k, hc, _, _, hk, hnext⟩ := addRelationship_ok hok
  have hkEdges : k.edges = subgraph.edges := by
    rw [hk, (edges_ensureNode _ _ _).1, (edges_ensureNode _ _ _).1]
  have hkIndexed : EdgesIndexed k := by
    rw [hk]
    exact edgesIndexed_ensureNode (edgesIndexed_ensureNode hs _ _) _ _
  have hcontent : content (newEdge r c k.edgeCounter) = content e := by
    simp only [content, newEdge, hfrom, hto, htype, ← hclaim, hc, hproperties, hmetadata]
  constructor
  · have hperm := addEdge_perm k.nodes.keys (newEdge_fresh hkIndexed r c)
    rw [hnext]
    refine (hperm.map content).trans ?_
    rw [List.map_cons, hcontent, hkEdges]
    exact (List.perm_append_singleton _ _).symm
  · rw [hnext, hk]

theorem extractEdge_ok (hg : Covered g) (hs : EdgesIndexed subgraph)
    (hok : extractEdge g entityTypes relationshipTypes subgraph e = .ok next) :
    (∃ r, edgeRow e = .ok r) ∧ EdgesIndexed next ∧ Grows subgraph next ∧
      (next.edges.map content).Perm (subgraph.edges.map content ++
        ([e].filter fun e => e.relationshipType ∈ relationshipTypes).map content) := by
  unfold extractEdge at hok
  have ⟨r, hr, hok⟩ := bind_eq_ok.mp hok
  have htype := (edgeRow_ok hr).2.1
  by_cases hselected : r.relationshipType ∉ relationshipTypes
  · rw [if_pos hselected] at hok
    rw [← pure_eq_ok.mp hok]
    refine ⟨⟨r, hr⟩, hs, fun _ _ hd => hd, ?_⟩
    rw [htype] at hselected
    simp [hselected]
  · rw [if_neg hselected, bind_eq_ok] at hok
    have ⟨withSource, hsource, hok⟩ := hok
    have ⟨withEnds, hends, hok⟩ := bind_eq_ok.mp hok
    split_ifs at hok with hkey
    have ⟨hgrow, hedges, hindexed⟩ := copyEndpoint_ok hg hs hsource
    have ⟨hgrow', hedges', hindexed'⟩ := copyEndpoint_ok hg hindexed hends
    have ⟨hperm, hnodes⟩ := addRelationship_content hindexed' hr hok
    refine ⟨⟨r, hr⟩, edgesIndexed_addRelationship hindexed' hok, ?_, ?_⟩
    · apply (hgrow.trans hgrow').trans
      unfold Grows
      rw [hnodes]
      exact (grows_ensureNode _ _ _).trans (grows_ensureNode _ _ _)
    · rw [htype, not_not] at hselected
      rw [hedges', hedges] at hperm
      simpa [hselected] using hperm

theorem extractEdges_ok (hg : Covered g) (hs : EdgesIndexed subgraph)
    (hok : es.foldlM (extractEdge g entityTypes relationshipTypes) subgraph = .ok next) :
    (∀ e ∈ es, ∃ r, edgeRow e = .ok r) ∧ Grows subgraph next ∧
      (next.edges.map content).Perm (subgraph.edges.map content ++
        (es.filter fun e => e.relationshipType ∈ relationshipTypes).map content) := by
  induction es generalizing subgraph with
  | nil =>
    rw [List.foldlM_nil, pure_eq_ok] at hok
    rw [← hok]
    exact ⟨by simp, fun _ _ hd => hd, by simp⟩
  | cons e es ih =>
    have ⟨middle, hstep, hrest⟩ := foldlM_cons_eq_ok.mp hok
    have ⟨hrow, hindexed, hgrow, hperm⟩ := extractEdge_ok hg hs hstep
    have ⟨hrows, hgrow', hperm'⟩ := ih hindexed hrest
    refine ⟨?_, hgrow.trans hgrow', ?_⟩
    · intro x hx
      rcases List.mem_cons.mp hx with hx | hx
      · rw [hx]
        exact hrow
      · exact hrows x hx
    · have hsplit : (e :: es).filter (fun e => decide (e.relationshipType ∈ relationshipTypes)) =
          [e].filter (fun e => decide (e.relationshipType ∈ relationshipTypes)) ++
            es.filter (fun e => decide (e.relationshipType ∈ relationshipTypes)) := by
        rw [← List.filter_append, List.singleton_append]
      rw [hsplit, List.map_append, ← List.append_assoc]
      exact hperm'.trans (hperm.append_right _)

/-- A node of one of the types. -/
def ofTypes (entityTypes : List String) (d : NodeData) : Bool :=
  d.entityType.any (· ∈ entityTypes)

theorem extract_start (hg : Covered g) (entityTypes : List String) :
    ∃ start : EntityGraph, EdgesIndexed start ∧ start.edges = [] ∧
      (∀ n, start.nodes.get? n = (g.nodes.get? n).filter (ofTypes entityTypes)) ∧
      ∀ relationshipTypes, extractOwnedSubgraph g entityTypes relationshipTypes =
        g.edges.foldlM (extractEdge g entityTypes relationshipTypes) start := by
  have ⟨entities, hiter, hentities, hall⟩ := iterAllEntities_ok hg
  have hstart := extractEntities_nodes entityTypes entities hentities {}
  refine ⟨entities.foldl (extractEntity entityTypes) {}, ?_, ?_, ?_, ?_⟩
  · have hrun : ∀ (es : List EntityInstance) (s : EntityGraph), EdgesIndexed s →
        EdgesIndexed (es.foldl (extractEntity entityTypes) s) := by
      intro es
      induction es with
      | nil => exact fun s hs => hs
      | cons e es ih =>
        intro s hs
        apply ih
        unfold extractEntity
        split_ifs
        · exact edgesIndexed_nodes hs _ _
        · exact hs
    exact hrun entities {} indexed_empty.toEdgesIndexed
  · exact (hstart "").1
  · intro n
    rw [(hstart n).2]
    cases hd : g.nodes.get? n with
    | none => split_ifs <;> rfl
    | some d =>
      have ⟨e, he, hn⟩ := hall n d hd
      have hsame : d = nodeOf e := Option.some.inj (hd.symm.trans (hn ▸ hentities e he))
      rw [Option.filter_some]
      by_cases hselected : e.entityType ∈ entityTypes
      · have hof : ofTypes entityTypes d = true := by
          simp [ofTypes, hsame, nodeOf, hselected]
        rw [if_pos ⟨e, he, hselected, hn⟩, if_pos hof]
      · have hof : ¬ofTypes entityTypes d = true := by
          simp [ofTypes, hsame, nodeOf, hselected]
        rw [if_neg hof, if_neg]
        · rfl
        · rintro ⟨x, hx, hxselected, hxn⟩
          have hxd : d = nodeOf x := Option.some.inj (hd.symm.trans (hxn ▸ hentities x hx))
          rw [nodeOf_injective (hsame.symm.trans hxd)] at hselected
          exact hselected hxselected
  · intro relationshipTypes
    unfold extractOwnedSubgraph
    rw [hiter]
    rfl

theorem extract_ok {overlay : EntityGraph} (hg : Covered g)
    (hok : extractOwnedSubgraph g entityTypes relationshipTypes = .ok overlay) :
    (∀ e ∈ g.edges, ∃ r, edgeRow e = .ok r) ∧
      (∀ n d, g.nodes.get? n = some d → ofTypes entityTypes d = true →
        overlay.nodes.get? n = some d) ∧
      (overlay.edges.map content).Perm
        ((g.edges.filter fun e => e.relationshipType ∈ relationshipTypes).map content) := by
  have ⟨start, hindexed, hedges, hnodes, hrun⟩ := extract_start hg entityTypes
  rw [hrun] at hok
  have ⟨hrows, hgrow, hperm⟩ := extractEdges_ok hg hindexed hok
  refine ⟨hrows, ?_, ?_⟩
  · intro n d hd hof
    apply hgrow
    rw [hnodes, hd, Option.filter_some, if_pos hof]
  · rw [hedges] at hperm
    exact hperm

/-- The node of an endpoint that is not selected: its type and id, and no more. -/
def stub (d : NodeData) : NodeData := { d with properties := ∅, metadata := {} }

/-- An endpoint is present under the type and id that it spells. -/
def LinkedNode (g : EntityGraph) (n : String) : Prop :=
  ∃ e : EntityInstance, g.nodes.get? n = some (nodeOf e) ∧
    splitNodeId n = some (e.entityType, e.entityId)

/-- The nodes of an extraction that has come to some edges. -/
def partNode (g : EntityGraph) (entityTypes : List String) (es : List EdgeData) (n : String) :
    Option NodeData :=
  (g.nodes.get? n).bind fun d =>
    if ofTypes entityTypes d then some d
    else if es.any (fun e => e.fromNode = n || e.toNode = n) then some (stub d) else none

theorem ensureNode_nodes {e : EntityInstance} {d : Option NodeData}
    {n : String} (hn : subgraph.nodes.get? n = d) :
    (subgraph.ensureNode e.entityType e.entityId).nodes.get? n =
      if makeNodeId e.entityType e.entityId = n then some (d.getD (stub (nodeOf e))) else d := by
  unfold EntityGraph.ensureNode
  split_ifs with hpresent hself hself
  · rw [EntityGraph.hasEntity, hself, hn] at hpresent
    obtain ⟨x, hx⟩ := Option.isSome_iff_exists.mp hpresent
    rw [hn, hx, Option.getD_some]
  · exact hn
  · rw [EntityGraph.hasEntity, hself, hn] at hpresent
    have hnone : d = none := by simpa using hpresent
    change (subgraph.nodes.set (makeNodeId e.entityType e.entityId) _).get? n = _
    rw [hself, Dict.get?_set_self, hnone]
    rfl
  · change (subgraph.nodes.set (makeNodeId e.entityType e.entityId) _).get? n = _
    rw [Dict.get?_set_of_ne _ _ hself, hn]

theorem partNode_append (es : List EdgeData) (e : EdgeData) (n : String) :
    partNode g entityTypes (es ++ [e]) n =
      if e.fromNode = n ∨ e.toNode = n
      then (partNode g entityTypes es n).or ((g.nodes.get? n).map stub)
      else partNode g entityTypes es n := by
  unfold partNode
  cases hd : g.nodes.get? n with
  | none => simp
  | some d =>
    simp only [Option.bind_some, Option.map_some, List.any_append, List.any_cons, List.any_nil,
      Bool.or_false]
    by_cases hof : ofTypes entityTypes d = true
    · simp [hof]
    · by_cases hends : e.fromNode = n ∨ e.toNode = n
      · have hany : (decide (e.fromNode = n) || decide (e.toNode = n)) = true := by
          simpa using hends
        rw [if_neg hof, if_neg hof, if_pos hends, hany, Bool.or_true, if_pos rfl]
        split_ifs <;> rfl
      · have hany : (decide (e.fromNode = n) || decide (e.toNode = n)) = false := by
          simpa using hends
        rw [if_neg hof, if_neg hof, if_neg hends, hany, Bool.or_false]

variable {source target : EntityInstance}

theorem edgeRow_linked (hr : edgeRow e = .ok r)
    (hsource : splitNodeId e.fromNode = some (source.entityType, source.entityId))
    (htarget : splitNodeId e.toNode = some (target.entityType, target.entityId)) :
    r.fromType = source.entityType ∧ r.fromId = source.entityId ∧
      r.toType = target.entityType ∧ r.toId = target.entityId := by
  unfold edgeRow at hr
  rw [hsource, htarget] at hr
  split_ifs at hr
  rw [← Except.ok.inj hr]
  exact ⟨rfl, rfl, rfl, rfl⟩

theorem copyEndpoint_linked {n : String} {e : EntityInstance}
    (hnodes : ∀ n, subgraph.nodes.get? n = partNode g entityTypes es n)
    (hd : g.nodes.get? n = some (nodeOf e)) (hn : makeNodeId e.entityType e.entityId = n) :
    copyEndpoint g entityTypes subgraph e.entityType e.entityId = .ok subgraph := by
  unfold copyEndpoint
  apply if_neg
  rintro ⟨hselected, habsent⟩
  have hof : ofTypes entityTypes (nodeOf e) = true := by
    simp [ofTypes, nodeOf, hselected]
  rw [EntityGraph.hasEntity, hn, hnodes, partNode, hd, Option.bind_some, if_pos hof] at habsent
  cases habsent

theorem addRelationship_linked (hs : EdgesIndexed subgraph)
    (hnodes : ∀ n, subgraph.nodes.get? n = partNode g entityTypes es n) (hr : edgeRow e = .ok r)
    (hsource : g.nodes.get? e.fromNode = some (nodeOf source))
    (hfrom : splitNodeId e.fromNode = some (source.entityType, source.entityId))
    (htarget : g.nodes.get? e.toNode = some (nodeOf target))
    (hto : splitNodeId e.toNode = some (target.entityType, target.entityId))
    (hok : subgraph.addRelationship r = .ok next) (n : String) :
    next.nodes.get? n = partNode g entityTypes (es ++ [e]) n := by
  have ⟨hft, hfi, htt, hti⟩ := edgeRow_linked hr hfrom hto
  have hfromNode := makeNodeId_split hfrom
  have htoNode := makeNodeId_split hto
  simp only at hfromNode htoNode
  rw [(addRelationship_content hs hr hok).2, hft, hfi, htt, hti,
    ensureNode_nodes (ensureNode_nodes (hnodes n)), partNode_append, hfromNode, htoNode]
  by_cases h₁ : e.fromNode = n
  · rw [if_pos h₁, if_pos (Or.inl h₁), ← h₁, hsource, Option.map_some]
    split_ifs
    · cases partNode g entityTypes es e.fromNode <;> rfl
    · cases partNode g entityTypes es e.fromNode <;> rfl
  · rw [if_neg h₁]
    by_cases h₂ : e.toNode = n
    · rw [if_pos h₂, if_pos (Or.inr h₂), ← h₂, htarget, Option.map_some]
      cases partNode g entityTypes es e.toNode <;> rfl
    · rw [if_neg h₂, if_neg]
      rintro (h | h)
      · exact h₁ h
      · exact h₂ h

/-- What extraction demands of a selected edge. -/
structure Extractable (g : EntityGraph) (e : EdgeData) : Prop where
  source : LinkedNode g e.fromNode
  target : LinkedNode g e.toNode
  claimed : ∃ c, e.claimId = some c ∧ blank c = false
  keyed : acceptedKey e.key = true

theorem extractEdge_linked (hs : EdgesIndexed subgraph)
    (hnodes : ∀ n, subgraph.nodes.get? n = partNode g entityTypes es n)
    (hrow : ∃ r, edgeRow e = .ok r) (hselected : e.relationshipType ∈ relationshipTypes)
    (he : Extractable g e) (hfresh : ∀ c, e.claimId = some c → c ∉ subgraph.claimIds) :
    ∃ next, extractEdge g entityTypes relationshipTypes subgraph e = .ok next ∧
      EdgesIndexed next ∧ (∀ n, next.nodes.get? n = partNode g entityTypes (es ++ [e]) n) ∧
      ∃ c, e.claimId = some c ∧ next.claimIds = subgraph.claimIds ++ [c] := by
  have ⟨r, hr⟩ := hrow
  have ⟨source, hsource, hfrom⟩ := he.source
  have ⟨target, htarget, hto⟩ := he.target
  have ⟨c, hc, hblank⟩ := he.claimed
  have ⟨_, htype, _, _, hclaim, _⟩ := edgeRow_ok hr
  have ⟨hft, hfi, htt, hti⟩ := edgeRow_linked hr hfrom hto
  have hcopySource := copyEndpoint_linked hnodes hsource (makeNodeId_split hfrom)
  have hcopyTarget := copyEndpoint_linked hnodes htarget (makeNodeId_split hto)
  have hnew : c ∉ subgraph.claimIds := hfresh c hc
  have hadd : ∃ next, subgraph.addRelationship r = .ok next := by
    unfold EntityGraph.addRelationship
    rw [hclaim, hc]
    simp only [hblank, if_neg hnew, Bool.false_eq_true, if_false]
    exact ⟨_, rfl⟩
  have ⟨next, hnext⟩ := hadd
  refine ⟨next, ?_, edgesIndexed_addRelationship hs hnext,
    addRelationship_linked hs hnodes hr hsource hfrom htarget hto hnext, c, hc, ?_⟩
  · unfold extractEdge
    rw [hr]
    simp only [bind, Except.bind, htype, hselected, not_true, if_false, hft, hfi, htt, hti,
      hcopySource, hcopyTarget, he.keyed, if_true, hnext]
  · have ⟨c', k, hc', _, _, hk, hh⟩ := addRelationship_ok hnext
    rw [hclaim, hc] at hc'
    rw [hh, ← Option.some.inj hc', hk, (edges_ensureNode _ _ _).2.1, (edges_ensureNode _ _ _).2.1]

theorem extractEdges_linked {done : List EdgeData} (hs : EdgesIndexed subgraph)
    (hnodes : ∀ n, subgraph.nodes.get? n = partNode g entityTypes done n)
    (hrows : ∀ e ∈ es, ∃ r, edgeRow e = .ok r)
    (hes : ∀ e ∈ es, e.relationshipType ∈ relationshipTypes → Extractable g e)
    (hunique : (presentClaims es).Nodup) (hfresh : ∀ c ∈ presentClaims es, c ∉ subgraph.claimIds) :
    ∃ next, es.foldlM (extractEdge g entityTypes relationshipTypes) subgraph = .ok next ∧
      ∀ n, next.nodes.get? n = partNode g entityTypes
        (done ++ es.filter fun e => e.relationshipType ∈ relationshipTypes) n := by
  induction es generalizing subgraph done with
  | nil => exact ⟨subgraph, rfl, by simpa using hnodes⟩
  | cons e es ih =>
    have hrows' := fun x hx => hrows x (List.mem_cons_of_mem e hx)
    have hes' := fun x hx => hes x (List.mem_cons_of_mem e hx)
    have hrow := hrows e List.mem_cons_self
    have hrest : (presentClaims es).Nodup ∧ ∀ c ∈ presentClaims es,
        c ∉ subgraph.claimIds ∧ e.claimId ≠ some c := by
      cases hc : e.claimId with
      | none =>
        rw [presentClaims, List.filterMap_cons_none hc] at hunique hfresh
        exact ⟨hunique, fun c hc' => ⟨hfresh c hc', by simp⟩⟩
      | some d =>
        rw [presentClaims, List.filterMap_cons_some hc] at hunique hfresh
        have ⟨hnew, hrest⟩ := List.nodup_cons.mp hunique
        refine ⟨hrest, fun c hc' => ⟨hfresh c (List.mem_cons_of_mem d hc'), ?_⟩⟩
        intro hsame
        exact hnew (Option.some.inj hsame ▸ hc')
    by_cases hselected : e.relationshipType ∈ relationshipTypes
    · have hnew : ∀ c, e.claimId = some c → c ∉ subgraph.claimIds := fun c hc =>
        hfresh c (mem_presentClaims.mpr ⟨e, List.mem_cons_self, hc⟩)
      have ⟨middle, hstep, hindexed, hmiddle, c, hc, hids⟩ :=
        extractEdge_linked hs hnodes hrow hselected (hes e List.mem_cons_self hselected) hnew
      have hfresh' : ∀ d ∈ presentClaims es, d ∉ middle.claimIds := by
        intro d hd hmem
        rw [hids, List.mem_append, List.mem_singleton] at hmem
        rcases hmem with hmem | hmem
        · exact (hrest.2 d hd).1 hmem
        · exact (hrest.2 d hd).2 (hmem ▸ hc)
      have ⟨next, hnext, hall⟩ := ih hindexed hmiddle hrows' hes' hrest.1 hfresh'
      refine ⟨next, ?_, ?_⟩
      · rw [List.foldlM_cons, hstep]
        exact hnext
      · intro n
        rw [hall, List.filter_cons, if_pos (by simpa using hselected), List.append_assoc]
        rfl
    · have hstep : extractEdge g entityTypes relationshipTypes subgraph e = .ok subgraph := by
        have ⟨r, hr⟩ := hrow
        unfold extractEdge
        rw [hr]
        simp only [bind, Except.bind, (edgeRow_ok hr).2.1, hselected, not_false_eq_true, if_true]
        rfl
      have ⟨next, hnext, hall⟩ := ih hs hnodes hrows' hes' hrest.1
        (fun c hc => (hrest.2 c hc).1)
      refine ⟨next, ?_, ?_⟩
      · rw [List.foldlM_cons, hstep]
        exact hnext
      · intro n
        rw [hall, List.filter_cons, if_neg (by simpa using hselected)]

theorem extract_linked (entityTypes : List String) (hg : Covered g) (hindexed : EdgesIndexed g)
    (hrows : ∀ e ∈ g.edges, ∃ r, edgeRow e = .ok r)
    (hedges : ∀ e ∈ g.edges, e.relationshipType ∈ relationshipTypes → Extractable g e) :
    ∃ overlay, extractOwnedSubgraph g entityTypes relationshipTypes = .ok overlay ∧
      ∀ n, overlay.nodes.get? n = partNode g entityTypes
        (g.edges.filter fun e => e.relationshipType ∈ relationshipTypes) n := by
  have ⟨start, hs, hstart, hnodes, hrun⟩ := extract_start hg entityTypes
  have hnone : ∀ n, start.nodes.get? n = partNode g entityTypes [] n := by
    intro n
    rw [hnodes, partNode]
    cases g.nodes.get? n with
    | none => rfl
    | some d =>
      rw [Option.filter_some, Option.bind_some]
      rfl
  have hfresh : ∀ c ∈ presentClaims g.edges, c ∉ start.claimIds := by
    intro c _ hmem
    rw [hs.claims, hstart] at hmem
    cases hmem
  have ⟨overlay, hok, hall⟩ := extractEdges_linked hs hnone hrows hedges hindexed.unique hfresh
  rw [List.nil_append] at hall
  exact ⟨overlay, (hrun relationshipTypes).trans hok, hall⟩

end Extraction

section Storage
variable {s s' : StoredGraph}

theorem upsertEntity_ok {e : EntityInstance} (hok : s.upsertEntity e = .ok s') :
    s'.edges = s.edges ∧
      (∀ n, s'.nodes.get? n = if makeNodeId e.entityType e.entityId = n then some (nodeOf e)
        else s.nodes.get? n) ∧
      ∀ d, s.nodes.get? (makeNodeId e.entityType e.entityId) = some d →
        d.entityType = some e.entityType ∧ d.entityId = some e.entityId := by
  unfold StoredGraph.upsertEntity at hok
  split at hok
  · rename_i habsent
    rw [← Except.ok.inj hok]
    refine ⟨rfl, fun n => Dict.get?_set _ _ _ _, ?_⟩
    intro d hd
    rw [habsent] at hd
    cases hd
  · rename_i x hx
    split_ifs at hok with hsame
    rw [← Except.ok.inj hok]
    refine ⟨rfl, fun n => Dict.get?_set _ _ _ _, ?_⟩
    intro d hd
    rw [← Option.some.inj (hx.symm.trans hd)]
    exact hsame

variable {entities : List EntityInstance}

/-- Rows of other types than a present one leave it as it is. -/
theorem upsertEntities_ok (hok : entities.foldlM StoredGraph.upsertEntity s = .ok s') :
    s'.edges = s.edges ∧
      (∀ n d, s'.nodes.get? n = some d → s.nodes.get? n = some d ∨ ∃ e ∈ entities, d = nodeOf e) ∧
      ∀ n d, s.nodes.get? n = some d → ∃ d', s'.nodes.get? n = some d' ∧
        d'.entityType = d.entityType ∧ d'.entityId = d.entityId ∧
        ((∀ e ∈ entities, d.entityType ≠ some e.entityType) → d' = d) := by
  induction entities generalizing s with
  | nil =>
    rw [List.foldlM_nil, pure_eq_ok] at hok
    rw [← hok]
    exact ⟨rfl, fun _ _ hd => .inl hd, fun n d hd => ⟨d, hd, rfl, rfl, fun _ => rfl⟩⟩
  | cons e es ih =>
    have ⟨middle, hstep, hrest⟩ := foldlM_cons_eq_ok.mp hok
    have ⟨hedges, hnodes, hsame⟩ := upsertEntity_ok hstep
    have ⟨hedges', hback, hforth⟩ := ih hrest
    refine ⟨hedges'.trans hedges, ?_, ?_⟩
    · intro n d hd
      rcases hback n d hd with hd | ⟨x, hx, hdx⟩
      · rw [hnodes] at hd
        split_ifs at hd
        · exact .inr ⟨e, List.mem_cons_self, (Option.some.inj hd).symm⟩
        · exact .inl hd
      · exact .inr ⟨x, List.mem_cons_of_mem e hx, hdx⟩
    · intro n d hd
      by_cases hn : makeNodeId e.entityType e.entityId = n
      · have ⟨htype, hid⟩ := hsame d (hn ▸ hd)
        have hmiddle : middle.nodes.get? n = some (nodeOf e) := by
          rw [hnodes, if_pos hn]
        have ⟨d', hd', htype', hid', _⟩ := hforth n _ hmiddle
        refine ⟨d', hd', htype'.trans htype.symm, hid'.trans hid.symm, ?_⟩
        intro hall
        exact absurd htype (hall e List.mem_cons_self)
      · have hmiddle : middle.nodes.get? n = some d := by
          rw [hnodes, if_neg hn, hd]
        have ⟨d', hd', htype', hid', hkept⟩ := hforth n d hmiddle
        exact ⟨d', hd', htype', hid', fun hall =>
          hkept fun x hx => hall x (List.mem_cons_of_mem e hx)⟩

variable {g : EntityGraph} {es : List EdgeData}

theorem saveEntities_nodes (hentities : ∀ e ∈ entities,
      g.nodes.get? (makeNodeId e.entityType e.entityId) = some (nodeOf e))
    (hok : entities.foldlM StoredGraph.upsertEntity s = .ok s') (n : String) :
    s'.nodes.get? n = if ∃ e ∈ entities, makeNodeId e.entityType e.entityId = n
      then g.nodes.get? n else s.nodes.get? n := by
  induction entities generalizing s with
  | nil =>
    rw [List.foldlM_nil, pure_eq_ok] at hok
    rw [← hok]
    simp
  | cons e es ih =>
    have ⟨middle, hstep, hrest⟩ := foldlM_cons_eq_ok.mp hok
    have ⟨_, hnodes, _⟩ := upsertEntity_ok hstep
    rw [ih (fun x hx => hentities x (List.mem_cons_of_mem e hx)) hrest, hnodes]
    by_cases hn : makeNodeId e.entityType e.entityId = n
    · have hd : g.nodes.get? n = some (nodeOf e) := hn ▸ hentities e List.mem_cons_self
      have hlisted : ∃ x ∈ e :: es, makeNodeId x.entityType x.entityId = n :=
        ⟨e, List.mem_cons_self, hn⟩
      rw [if_pos hn, ← hd, ite_self, if_pos hlisted]
    · rw [if_neg hn]
      simp [hn]

theorem insertRelationships_ok (hok : es.foldlM StoredGraph.insertRelationship s = .ok s') :
    s'.nodes = s.nodes ∧ s'.edges = s.edges ++ es ∧ ∀ e ∈ es, ∃ r, edgeRow e = .ok r := by
  induction es generalizing s with
  | nil =>
    rw [List.foldlM_nil, pure_eq_ok] at hok
    rw [← hok]
    simp
  | cons e es ih =>
    have ⟨middle, hstep, hrest⟩ := foldlM_cons_eq_ok.mp hok
    have ⟨hnodes', hedges', hrows⟩ := ih hrest
    unfold StoredGraph.insertRelationship at hstep
    split at hstep
    · cases hstep
    · rename_i r hr
      split at hstep
      · cases hstep
      · rw [← Except.ok.inj hstep] at hnodes' hedges'
        refine ⟨hnodes', ?_, ?_⟩
        · rw [hedges', StoredGraph.add, List.append_assoc, List.singleton_append]
        · intro x hx
          rcases List.mem_cons.mp hx with hx | hx
          · exact ⟨r, hx ▸ hr⟩
          · exact hrows x hx

theorem saveGraph_ok (hg : Covered g) (hok : saveGraph g = .ok s) :
    (∀ n, s.nodes.get? n = g.nodes.get? n) ∧ s.edges = g.edges ∧
      ∀ e ∈ g.edges, ∃ r, edgeRow e = .ok r := by
  unfold saveGraph at hok
  have ⟨entities, hiter, hok⟩ := bind_eq_ok.mp hok
  have ⟨saved, hentities, hedges⟩ := bind_eq_ok.mp hok
  have ⟨entities', hiter', hmatch, hall⟩ := iterAllEntities_ok hg
  have hsame : entities' = entities := Except.ok.inj (hiter'.symm.trans hiter)
  rw [hsame] at hmatch hall
  have ⟨hnodes, hedges', hrows⟩ := insertRelationships_ok hedges
  refine ⟨?_, ?_, hrows⟩
  · intro n
    rw [hnodes, saveEntities_nodes hmatch hentities]
    split_ifs with hlisted
    · rfl
    · cases hd : g.nodes.get? n with
      | none => rfl
      | some d => exact absurd (hall n d hd) hlisted
  · rw [hedges', (upsertEntities_ok hentities).1]
    rfl

theorem addresses_of_keys (h : (es.map EdgeData.key).Nodup) : (es.map EdgeData.address).Nodup := by
  have hkeys : es.map EdgeData.key = (es.map EdgeData.address).map fun a => a.2.2 := by
    rw [List.map_map]
    rfl
  rw [hkeys] at h
  exact List.Nodup.of_map _ h

theorem loadGraph_total (s : StoredGraph) :
    ∃ g, loadGraph s = .ok g ∧ g.nodes = s.nodes ∧ g.edges = s.edges ∧ EdgesIndexed g := by
  have hfresh : ∀ c ∈ presentClaims s.edges, c ∉ ([] : List String) := by simp
  obtain ⟨ids, hids⟩ := collectClaimIds_total s.unique hfresh
  have hok : ∃ g, loadGraph s = .ok g := by
    rw [loadGraph, rebuild, hids]
    exact ⟨_, rfl⟩
  obtain ⟨g, hg⟩ := hok
  obtain ⟨hnodes, hedges, _⟩ := rebuild_ok hg
  exact ⟨g, hg, hnodes, hedges, edgesIndexed_rebuild hg (addresses_of_keys s.keys)⟩

/-- The type names of a stored graph are not empty. -/
def Named (nodes : Dict String NodeData) : Prop :=
  ∀ n d, nodes.get? n = some d → d.entityType ≠ some ""

theorem keyedNodes_of_named {nodes : Dict String NodeData} (hnamed : Named nodes)
    (hentities : ∀ n d, nodes.get? n = some d →
      ∃ e : EntityInstance, d = nodeOf e ∧ n = makeNodeId e.entityType e.entityId) :
    KeyedNodes nodes := by
  intro n d hd
  have ⟨e, he, hn⟩ := hentities n d hd
  refine ⟨e, he, hn, ?_⟩
  intro hempty
  apply hnamed n d hd
  rw [he]
  exact congrArg some hempty

end Storage

end Cruxible.LocalParts
