import Cruxible.LocalParts

/-!
# What a pull leaves of local work

The graph that a pull merges into is loaded in the transaction of its pre-pull
snapshot, and the merge is saved as a whole in a later one. If the stored graph
still is the one that was loaded, every local node and edge is saved as it was; a
write that is committed in between is overwritten.
-/
namespace Cruxible.LocalWork
open JsonValue PythonDict AssertionState AppendOnly GraphImages ClaimIndexes OverlayMerges
open UpstreamPulls LocalParts
open Fallible (bind_eq_ok pure_eq_ok)
open Cruxible.Graph (EntityInstance RelationshipInstance blank)

theorem assignClaimIds_map {β : Type} {f : EdgeData → β}
    (hf : ∀ (e : EdgeData) c, f { e with claimId := some c } = f e) (a : Assigner)
    (reuse : IdentityMap) (es : List EdgeData) (s : Walk) :
    (assignClaimIds a reuse es s).1.map f = es.map f := by
  induction es generalizing s with
  | nil => rfl
  | cons e es ih =>
    unfold assignClaimIds
    split_ifs with hidless
    · split
      · rfl
      · simp only
        split
        · rw [List.map_cons, List.map_cons, ih]
        · split_ifs
          · rw [List.map_cons, List.map_cons, hf]
          · rw [List.map_cons, List.map_cons, ih, hf]
    · rw [List.map_cons, List.map_cons, ih]

theorem raised_eq_ok {α : Type} {x : Except String α} {a : α} : raised x = .ok a ↔ x = .ok a := by
  cases x with
  | error m | ok b => simp [raised, Except.mapError]

variable {mint : Nat → String} {operators : List EntityInstance} {pulled : PulledRelease}
  {identities : IdentityMap} {map : IdentityMap} {g current : EntityGraph} {s s' : StoredGraph}

theorem nextUpstreamGraph_ok {image : Image} {stored : IdentityMap} {next : EntityGraph}
    (hok : nextUpstreamGraph image stored mint = .ok (next, map)) :
    next.nodes = image.nodes ∧ (next.edges.map EdgeData.address).Nodup ∧
      next.edges.map EdgeData.relationshipType = image.edges.map EdgeData.relationshipType := by
  unfold nextUpstreamGraph at hok
  have ⟨loaded, hloaded, hok⟩ := bind_eq_ok.mp hok
  rw [raised_eq_ok] at hloaded
  have ⟨hnodes, hedges, _⟩ := rebuild_ok hloaded
  simp only at hok
  split at hok
  · cases hok
  · have hnext := congrArg Prod.fst (Except.ok.inj hok)
    simp only at hnext
    rw [← hnext]
    refine ⟨hnodes, ?_, ?_⟩
    · change ((assignClaimIds _ _ _ _).1.map EdgeData.address).Nodup
      rw [assignClaimIds_map (fun _ _ => rfl)]
      have hrelabelled : (loaded.relabelCloneReceipts cloneOriginUpstreamSnapshot).edges.map
          EdgeData.address = loaded.edges.map EdgeData.address := by
        rw [EntityGraph.relabelCloneReceipts, List.map_map]
        rfl
      rw [hrelabelled, hedges]
      exact image.addresses
    · change (assignClaimIds _ _ _ _).1.map EdgeData.relationshipType = _
      rw [assignClaimIds_map (fun _ _ => rfl), EntityGraph.relabelCloneReceipts, List.map_map,
        ← hedges]
      rfl

/-- The transaction of a pull, from the graph and the map that it has loaded. -/
def commitPull (pulled : PulledRelease) (current : EntityGraph) (stored : IdentityMap)
    (mint : Nat → String) (operators : List EntityInstance) :
    Except Refusal (StoredGraph × IdentityMap) := do
  let merged ← mergePulled pulled.manifest pulled.image current stored mint
  let saved ← raised (commitGraph merged.1 operators)
  pure (saved, merged.2)

/-- A node of a type that the release does not own. -/
def isLocal (manifest : PublishedStateManifest) (d : NodeData) : Bool :=
  d.entityType.all (· ∉ manifest.ownedEntityTypes)

/-- The edges of the types that the release does not own. -/
def localEdges (manifest : PublishedStateManifest) (es : List EdgeData) : List EdgeData :=
  es.filter fun e => e.relationshipType ∉ manifest.ownedRelationshipTypes

theorem mem_listEntityTypes {n t : String} (h : n ∈ filed g.entitiesByType t) :
    t ∈ listEntityTypes g := by
  unfold filed at h
  cases hindex : g.entitiesByType.get? t with
  | none =>
    rw [hindex] at h
    cases h
  | some ns =>
    rw [hindex, Option.getD_some] at h
    have hnonempty : ns ≠ [] := List.ne_nil_of_mem h
    exact List.mem_map.mpr ⟨(t, ns), List.mem_filter.mpr
      ⟨Dict.mem_of_get? hindex, by simpa using hnonempty⟩, rfl⟩

theorem mem_listRelationshipTypes {e : EdgeData} (he : e ∈ g.edges)
    (htyped : e.relationshipType ≠ "") : e.relationshipType ∈ listRelationshipTypes g := by
  unfold listRelationshipTypes sortedTexts
  rw [List.mem_insertionSort, List.mem_dedup, List.mem_filter]
  exact ⟨List.mem_map_of_mem he, by simpa using htyped⟩

section Local
variable {g : EntityGraph} {manifest : PublishedStateManifest}

theorem ofTypes_local (hg : Covered g) {n : String} {d : NodeData} (hd : g.nodes.get? n = some d) :
    ofTypes ((listEntityTypes g).filter (· ∉ manifest.ownedEntityTypes)) d =
      isLocal manifest d := by
  have ⟨e, he, _, hfiled⟩ := hg n d hd
  have hlisted := mem_listEntityTypes hfiled
  rw [he, ofTypes, isLocal, nodeOf, Option.any_some, Option.all_some]
  simp [List.mem_filter, hlisted]

theorem localEdges_eq (hrows : ∀ e ∈ g.edges, ∃ r, edgeRow e = .ok r) :
    (g.edges.filter fun e => e.relationshipType ∈
      (listRelationshipTypes g).filter (· ∉ manifest.ownedRelationshipTypes)) =
      localEdges manifest g.edges := by
  apply List.filter_congr
  intro e he
  have ⟨r, hr⟩ := hrows e he
  have hlisted := mem_listRelationshipTypes he (edgeRow_ok hr).1
  simp [List.mem_filter, hlisted]

end Local

theorem localEdges_content {manifest : PublishedStateManifest} (es : List EdgeData) :
    (localEdges manifest es).map content = localEdges manifest (es.map content) := by
  unfold localEdges
  rw [List.filter_map]
  rfl

section Pull
variable {s s' : StoredGraph} {current : EntityGraph} {pulled : PulledRelease}
  {stored map : IdentityMap} {mint : Nat → String} {operators : List EntityInstance}

/-- The parts of a pull that has been committed. -/
structure Committed (pulled : PulledRelease) (current : EntityGraph)
    (operators : List EntityInstance) (s' : StoredGraph) where
  overlay : EntityGraph
  next : EntityGraph
  merged : EntityGraph
  saved : StoredGraph
  extracted : extractLocalOverlayGraph current pulled.manifest = .ok overlay
  nextNodes : next.nodes = pulled.image.nodes
  nextAddresses : (next.edges.map EdgeData.address).Nodup
  nextTypes : next.edges.map EdgeData.relationshipType =
    pulled.image.edges.map EdgeData.relationshipType
  noConflicts : findDanglingReferenceConflicts overlay next pulled.manifest = .ok []
  mergedOk : mergeGraphs next overlay = .ok merged
  savedOk : saveGraph merged = .ok saved
  stored : operators.foldlM StoredGraph.upsertEntity saved = .ok s'

theorem committed_of_commitPull
    (hok : commitPull pulled current stored mint operators = .ok (s', map)) :
    Nonempty (Committed pulled current operators s') := by
  unfold commitPull at hok
  have ⟨merged, hmerged, hok⟩ := bind_eq_ok.mp hok
  have ⟨committed, hcommitted, hok⟩ := bind_eq_ok.mp hok
  have hsame := congrArg Prod.fst (Except.ok.inj hok)
  rw [raised_eq_ok] at hcommitted
  unfold commitGraph at hcommitted
  have ⟨saved, hsaved, hstored⟩ := bind_eq_ok.mp hcommitted
  unfold mergePulled at hmerged
  have ⟨overlay, hoverlay, hmerged⟩ := bind_eq_ok.mp hmerged
  have ⟨next, hnext, hmerged⟩ := bind_eq_ok.mp hmerged
  have ⟨graph, hgraph, hmerged⟩ := bind_eq_ok.mp hmerged
  have hgraphs := congrArg Prod.fst (Except.ok.inj hmerged)
  unfold mergeLocalPart at hgraph
  have ⟨conflicts, hconflicts, hgraph⟩ := bind_eq_ok.mp hgraph
  rw [raised_eq_ok] at hoverlay hconflicts
  split_ifs at hgraph with hnone
  rw [raised_eq_ok] at hgraph
  have ⟨hnodes, haddresses, htypes⟩ := nextUpstreamGraph_ok hnext
  simp only at hsame hgraphs
  rw [not_not] at hnone
  refine ⟨⟨overlay, next.1, graph, saved, hoverlay, hnodes, haddresses, htypes, ?_, hgraph, ?_, ?_⟩⟩
  · rw [hconflicts, hnone]
  · rw [hgraphs]
    exact hsaved
  · rw [← hsame]
    exact hstored

/-- The stored graph and the release name their types, and the operator entities
are of types that the release owns. -/
structure Orderly (s : StoredGraph) (pulled : PulledRelease) (operators : List EntityInstance) :
    Prop where
  stored : Named s.nodes
  release : Named pulled.image.nodes
  operatorTypes : ∀ e ∈ operators, e.entityType ∈ pulled.manifest.ownedEntityTypes

theorem covered_loaded (hload : loadGraph s = .ok current) (hnamed : Named s.nodes) :
    Covered current :=
  covered_rebuild hload (keyedNodes_of_named hnamed s.entities)

theorem Committed.saved_ok (c : Committed pulled current operators s')
    (horderly : Orderly s pulled operators) (hload : loadGraph s = .ok current) :
    (∀ n, c.saved.nodes.get? n = mergedNode c.next c.overlay n) ∧
      (∀ e ∈ s'.edges, ∃ r, edgeRow e = .ok r) ∧
      (s'.edges.map content).Perm (c.next.edges.map content ++
        (localEdges pulled.manifest s.edges).map content) := by
  have hcovered := covered_loaded hload horderly.stored
  have hextracted := c.extracted
  unfold extractLocalOverlayGraph at hextracted
  have ⟨hrows, _, hedges⟩ := extract_ok hcovered hextracted
  rw [localEdges_eq hrows, (rebuild_ok hload).2.1] at hedges
  have ⟨_, hkeyed, hnodes, added, hadded, hperm⟩ :=
    mergeGraphs_ok c.nextAddresses (extracted_of_extract hextracted) c.mergedOk
  have hmerged : Covered c.merged := by
    apply hkeyed
    rw [c.nextNodes]
    exact keyedNodes_of_named horderly.release pulled.entities
  have ⟨hsaved, hsavedEdges, hsavedRows⟩ := saveGraph_ok hmerged c.savedOk
  have hs' := (upsertEntities_ok c.stored).1
  refine ⟨fun n => (hsaved n).trans (hnodes n), ?_, ?_⟩
  · rw [hs', hsavedEdges]
    exact hsavedRows
  · rw [hs', hsavedEdges]
    refine (hperm.map content).trans ?_
    rw [List.map_append, hadded]
    exact hedges.append_left _

theorem Committed.keeps_node (c : Committed pulled current operators s')
    (horderly : Orderly s pulled operators) (hload : loadGraph s = .ok current)
    {n : String} {d : NodeData} (hd : s.nodes.get? n = some d)
    (hlocal : isLocal pulled.manifest d = true) (habsent : pulled.image.nodes.get? n = none) :
    s'.nodes.get? n = some d := by
  have hcovered := covered_loaded hload horderly.stored
  have hextracted := c.extracted
  unfold extractLocalOverlayGraph at hextracted
  have hcurrent : current.nodes.get? n = some d := by
    rw [(rebuild_ok hload).1]
    exact hd
  have hoverlay : c.overlay.nodes.get? n = some d := by
    apply (extract_ok hcovered hextracted).2.1 n d hcurrent
    rw [ofTypes_local hcovered hcurrent]
    exact hlocal
  have hsaved : c.saved.nodes.get? n = some d := by
    rw [(c.saved_ok horderly hload).1, mergedNode, hoverlay, c.nextNodes, habsent]
    rfl
  obtain ⟨d', hd', _, _, hkept⟩ := (upsertEntities_ok c.stored).2.2 n d hsaved
  rw [hd', hkept]
  intro e he htype
  rw [isLocal, htype, Option.all_some, decide_eq_true_eq] at hlocal
  exact hlocal (horderly.operatorTypes e he)

end Pull

/-- No type name contains the separator. -/
def Plain (nodes : Dict String NodeData) : Prop :=
  ∀ n d t, nodes.get? n = some d → d.entityType = some t → ':' ∉ t.toList

/-- The release holds what it owns, and type names split off their node ids. -/
structure Separate (s : StoredGraph) (pulled : PulledRelease) (operators : List EntityInstance) :
    Prop extends Orderly s pulled operators where
  plainStored : Plain s.nodes
  plainRelease : Plain pulled.image.nodes
  ownedNodes : ∀ n d, pulled.image.nodes.get? n = some d → isLocal pulled.manifest d = false
  ownedEdges : ∀ e ∈ pulled.image.edges,
    e.relationshipType ∈ pulled.manifest.ownedRelationshipTypes
  namedOperators : ∀ e ∈ operators, e.entityType ≠ ""

/-- Two extracts with the same nodes, and the same edges up to their keys. -/
structure SamePart (a b : EntityGraph) : Prop where
  nodes : ∀ n, a.nodes.get? n = b.nodes.get? n
  edges : (a.edges.map content).Perm (b.edges.map content)

theorem takeWhile_plain {t i : List Char} (ht : ':' ∉ t) :
    (t ++ ':' :: i).takeWhile (· ≠ ':') = t ∧ (t ++ ':' :: i).dropWhile (· ≠ ':') = ':' :: i := by
  induction t with
  | nil => simp
  | cons c cs ih =>
    have hc : c ≠ ':' := fun hc => ht (hc ▸ List.mem_cons_self)
    have ⟨htake, hdrop⟩ := ih fun hmem => ht (List.mem_cons_of_mem c hmem)
    simp only [List.cons_append, List.takeWhile_cons, List.dropWhile_cons, decide_eq_true hc,
      if_true, htake, hdrop, true_and]

/-- A type without the separator is split off again. -/
theorem splitNodeId_plain {t : String} (ht : ':' ∉ t.toList) (i : String) :
    splitNodeId (makeNodeId t i) = some (t, i) := by
  have hcolon : ':' ∈ (makeNodeId t i).toList := (Graph.makeNodeId t i).separated
  have hchars : (makeNodeId t i).toList = t.toList ++ ':' :: i.toList := by
    simp [makeNodeId, Graph.makeNodeId, String.toList_append]
  have hsplit := @takeWhile_plain t.toList i.toList ht
  rw [splitNodeId, dif_pos hcolon, Graph.splitNodeId]
  simp only [hchars, hsplit.1, hsplit.2, List.drop_one, List.tail_cons, String.ofList_toList]

section Part
variable {s s' : StoredGraph} {current : EntityGraph} {pulled : PulledRelease}
  {operators : List EntityInstance}

theorem named_plain_split {nodes : Dict String NodeData} (hplain : Plain nodes) {n : String}
    {e : EntityInstance} (hd : nodes.get? n = some (nodeOf e))
    (hn : n = makeNodeId e.entityType e.entityId) :
    splitNodeId n = some (e.entityType, e.entityId) := by
  rw [hn]
  exact splitNodeId_plain (hplain n _ _ hd rfl) _

theorem linked_of_plain (hload : loadGraph s = .ok current) (hplain : Plain s.nodes) {n : String}
    (hn : (s.nodes.get? n).isSome) : LinkedNode current n := by
  have ⟨d, hd⟩ := Option.isSome_iff_exists.mp hn
  have ⟨e, he, hne⟩ := s.entities n d hd
  rw [he] at hd
  refine ⟨e, ?_, named_plain_split hplain hd hne⟩
  rw [(rebuild_ok hload).1]
  exact hd

/-- The local part of a stored graph. -/
def partOf (manifest : PublishedStateManifest) (s : StoredGraph) (n : String) : Option NodeData :=
  (s.nodes.get? n).bind fun d =>
    if isLocal manifest d then some d
    else if (localEdges manifest s.edges).any (fun e => e.fromNode = n || e.toNode = n)
    then some (stub d) else none

theorem extractLocal_linked {manifest : PublishedStateManifest}
    (hload : loadGraph s = .ok current) (hnamed : Named s.nodes)
    (hrows : ∀ e ∈ s.edges, ∃ r, edgeRow e = .ok r)
    (hlinked : ∀ e ∈ localEdges manifest s.edges,
      LinkedNode current e.fromNode ∧ LinkedNode current e.toNode) :
    ∃ part, extractLocalOverlayGraph current manifest = .ok part ∧
      (∀ n, part.nodes.get? n = partOf manifest s n) ∧
      (part.edges.map content).Perm ((localEdges manifest s.edges).map content) := by
  have hcovered := covered_loaded hload hnamed
  have ⟨hnodes, hedges, _⟩ := rebuild_ok hload
  have hrows' : ∀ e ∈ current.edges, ∃ r, edgeRow e = .ok r := by
    rw [hedges]
    exact hrows
  have hindexed := edgesIndexed_rebuild hload (addresses_of_keys s.keys)
  have hextractable : ∀ e ∈ current.edges, e.relationshipType ∈
      (listRelationshipTypes current).filter (· ∉ manifest.ownedRelationshipTypes) →
      Extractable current e := by
    intro e he hselected
    rw [hedges] at he
    have hlocal : e ∈ localEdges manifest s.edges :=
      List.mem_filter.mpr ⟨he, (List.mem_filter.mp hselected).2⟩
    have ⟨hfrom, hto⟩ := hlinked e hlocal
    exact ⟨hfrom, hto, s.claimed e he, s.keyed e he⟩
  have ⟨part, hok, hpart⟩ :=
    extract_linked ((listEntityTypes current).filter (· ∉ manifest.ownedEntityTypes))
      hcovered hindexed hrows' hextractable
  refine ⟨part, hok, ?_, ?_⟩
  · intro n
    rw [hpart, partNode, partOf, localEdges_eq hrows', hedges, ← hnodes]
    cases hd : current.nodes.get? n with
    | none => rfl
    | some d => rw [Option.bind_some, Option.bind_some, ofTypes_local hcovered hd]
  · have hperm := (extract_ok hcovered hok).2.2
    rw [localEdges_eq hrows', hedges] at hperm
    exact hperm

end Part

section After
variable {s s' : StoredGraph} {current : EntityGraph} {pulled : PulledRelease}
  {operators : List EntityInstance} {d d' : NodeData} {n : String}

theorem isLocal_congr {manifest : PublishedStateManifest} (h : d'.entityType = d.entityType) :
    isLocal manifest d' = isLocal manifest d := by
  rw [isLocal, isLocal, h]

variable (c : Committed pulled current operators s') (hsep : Separate s pulled operators)
  (hload : loadGraph s = .ok current)

include c hsep hload in
theorem Committed.overlay_nodes (n : String) :
    c.overlay.nodes.get? n = partOf pulled.manifest s n := by
  have hextracted := c.extracted
  have hcovered := covered_loaded hload hsep.stored
  have hrows := (extract_ok hcovered hextracted).1
  rw [(rebuild_ok hload).2.1] at hrows
  have hlinked : ∀ e ∈ localEdges pulled.manifest s.edges,
      LinkedNode current e.fromNode ∧ LinkedNode current e.toNode := by
    intro e he
    have ⟨hfrom, hto⟩ := s.closed e (List.mem_filter.mp he).1
    exact ⟨linked_of_plain hload hsep.plainStored hfrom, linked_of_plain hload hsep.plainStored hto⟩
  have ⟨part, hpart, hnodes, _⟩ := extractLocal_linked hload hsep.stored hrows hlinked
  have hsame : c.overlay = part := Except.ok.inj (hextracted.symm.trans hpart)
  rw [hsame, hnodes]

theorem split_of_stored (hplain : Plain s.nodes) (hd : s.nodes.get? n = some d) :
    ∃ t i, splitNodeId n = some (t, i) ∧ d.entityType = some t ∧ d.entityId = some i := by
  have ⟨e, he, hn⟩ := s.entities n d hd
  rw [he] at hd ⊢
  exact ⟨_, _, named_plain_split hplain hd hn, rfl, rfl⟩

theorem split_of_release (hplain : Plain pulled.image.nodes)
    (hd : pulled.image.nodes.get? n = some d) :
    ∃ t i, splitNodeId n = some (t, i) ∧ d.entityType = some t ∧ d.entityId = some i := by
  have ⟨e, he, hn⟩ := pulled.entities n d hd
  rw [he] at hd ⊢
  exact ⟨_, _, named_plain_split hplain hd hn, rfl, rfl⟩

theorem release_lacks_local (hsep : Separate s pulled operators) (hd : s.nodes.get? n = some d)
    (hlocal : isLocal pulled.manifest d = true) : pulled.image.nodes.get? n = none := by
  cases hb : pulled.image.nodes.get? n with
  | none => rfl
  | some b =>
    have ⟨t, i, hsplit, htype, _⟩ := split_of_stored hsep.plainStored hd
    have ⟨t', i', hsplit', htype', _⟩ := split_of_release hsep.plainRelease hb
    have hsame := Option.some.inj (hsplit.symm.trans hsplit')
    rw [Prod.mk.injEq] at hsame
    have howned := hsep.ownedNodes n b hb
    have htypes : b.entityType = d.entityType := by
      rw [htype, htype', hsame.1]
    rw [isLocal_congr htypes, hlocal] at howned
    cases howned

section
include c hsep hload

theorem Committed.saved_node (hd' : c.saved.nodes.get? n = some d') :
    (isLocal pulled.manifest d' = false ∧
      ∃ b, pulled.image.nodes.get? n = some b ∧ d'.entityType = b.entityType) ∨
    ∃ d, s.nodes.get? n = some d ∧ d'.entityType = d.entityType ∧
      (isLocal pulled.manifest d' = true → d' = d) := by
  rw [(c.saved_ok hsep.toOrderly hload).1, mergedNode, c.nextNodes,
    c.overlay_nodes hsep hload] at hd'
  cases hpart : partOf pulled.manifest s n with
  | none =>
    rw [hpart] at hd'
    exact .inl ⟨hsep.ownedNodes n d' hd', d', hd', rfl⟩
  | some x =>
    rw [hpart] at hd'
    have hlaid := Option.some.inj hd'
    unfold partOf at hpart
    cases hd : s.nodes.get? n with
    | none =>
      rw [hd] at hpart
      cases hpart
    | some d =>
      rw [hd, Option.bind_some] at hpart
      split_ifs at hpart with hlocal htouched
      · have hx := Option.some.inj hpart
        rw [release_lacks_local hsep hd hlocal] at hlaid
        have hsame : x = d' := hlaid
        exact .inr ⟨d, rfl, by rw [← hsame, ← hx], fun _ => hsame.symm.trans hx.symm⟩
      · have hx := Option.some.inj hpart
        cases hb : pulled.image.nodes.get? n with
        | none =>
          rw [hb] at hlaid
          have hsame : x = d' := hlaid
          have htypes : d'.entityType = d.entityType := by
            rw [← hsame, ← hx]
            rfl
          refine .inr ⟨d, rfl, htypes, ?_⟩
          intro hlocal'
          rw [isLocal_congr htypes] at hlocal'
          exact absurd hlocal' hlocal
        | some b =>
          rw [hb] at hlaid
          have htypes : d'.entityType = b.entityType := by
            rw [← hlaid, ← hx]
            rfl
          refine .inl ⟨?_, b, rfl, htypes⟩
          rw [isLocal_congr htypes]
          exact hsep.ownedNodes n b hb

theorem Committed.local_back (hd' : s'.nodes.get? n = some d')
    (hlocal : isLocal pulled.manifest d' = true) : s.nodes.get? n = some d' := by
  rcases (upsertEntities_ok c.stored).2.1 n d' hd' with hsaved | ⟨e, he, hed⟩
  · rcases c.saved_node hsep hload hsaved with ⟨howned, _⟩ | ⟨d, hd, _, hsame⟩
    · rw [hlocal] at howned
      cases howned
    · rw [hsame hlocal]
      exact hd
  · rw [hed, isLocal, nodeOf, Option.all_some, decide_eq_true_eq] at hlocal
    exact absurd (hsep.operatorTypes e he) hlocal

theorem Committed.named : Named s'.nodes := by
  intro n d' hd' hempty
  rcases (upsertEntities_ok c.stored).2.1 n d' hd' with hsaved | ⟨e, he, hed⟩
  · rcases c.saved_node hsep hload hsaved with ⟨_, b, hb, htype⟩ | ⟨d, hd, htype, _⟩
    · exact hsep.release n b hb (htype ▸ hempty)
    · exact hsep.stored n d hd (htype ▸ hempty)
  · rw [hed] at hempty
    exact hsep.namedOperators e he (Option.some.inj hempty)

end

end After

section Same
variable {s s' : StoredGraph} {current : EntityGraph} {pulled : PulledRelease}
  {operators : List EntityInstance}

theorem sortedTexts_eq_nil {texts : List String} (h : sortedTexts texts = []) : texts = [] := by
  cases texts with
  | nil => rfl
  | cons t ts =>
    have hmem : t ∈ sortedTexts (t :: ts) := by
      unfold sortedTexts
      rw [List.mem_insertionSort, List.mem_dedup]
      exact List.mem_cons_self
    rw [h] at hmem
    cases hmem

theorem danglingEndpoint_eq_nil {next : EntityGraph} {manifest : PublishedStateManifest}
    {r t i : String} (h : danglingEndpoint next manifest r t i = [])
    (howned : t ∈ manifest.ownedEntityTypes) : next.hasEntity t i = true := by
  unfold danglingEndpoint at h
  split_ifs at h with hdangling
  rw [not_and, Bool.not_eq_false] at hdangling
  exact hdangling howned

variable {n : String}

theorem Committed.endpoints (c : Committed pulled current operators s') {e : EdgeData}
    (he : e ∈ c.overlay.edges) {t i : String} (hn : e.fromNode = n ∨ e.toNode = n)
    (hsplit : splitNodeId n = some (t, i)) (howned : t ∈ pulled.manifest.ownedEntityTypes) :
    (pulled.image.nodes.get? n).isSome := by
  have hnone := c.noConflicts
  unfold findDanglingReferenceConflicts at hnone
  have ⟨conflicts, hconflicts, hempty⟩ := bind_eq_ok.mp hnone
  have hflat := sortedTexts_eq_nil (pure_eq_ok.mp hempty)
  have ⟨found, hfound, hends⟩ := Fallible.mapM_ok_each hconflicts e he
  have hnil : found = [] := List.flatten_eq_nil_iff.mp hflat found hfound
  unfold danglingEnds at hends
  have ⟨r, hr, hends⟩ := bind_eq_ok.mp hends
  rw [pure_eq_ok, hnil, List.append_eq_nil_iff] at hends
  have hpresent : ∀ t' i', makeNodeId t' i' = n → t' = t →
      c.next.hasEntity t' i' = true → (pulled.image.nodes.get? n).isSome := by
    intro t' i' hspelled _ hhas
    rw [EntityGraph.hasEntity, hspelled, c.nextNodes] at hhas
    exact hhas
  have hrow := hr
  unfold edgeRow at hrow
  split_ifs at hrow
  cases hsource : splitNodeId e.fromNode with
  | none =>
    rw [hsource] at hrow
    cases hrow
  | some source =>
    cases htarget : splitNodeId e.toNode with
    | none =>
      rw [hsource, htarget] at hrow
      cases hrow
    | some target =>
      rw [hsource, htarget] at hrow
      have hsame := Except.ok.inj hrow
      rcases hn with hn | hn
      · rw [hn, hsplit] at hsource
        have ht : r.fromType = t := by
          rw [← hsame, ← Option.some.inj hsource]
        have hspelled : makeNodeId r.fromType r.fromId = n := (edgeRow_ok hr).2.2.1.trans hn
        exact hpresent _ _ hspelled ht (danglingEndpoint_eq_nil hends.1 (ht ▸ howned))
      · rw [hn, hsplit] at htarget
        have ht : r.toType = t := by
          rw [← hsame, ← Option.some.inj htarget]
        have hspelled : makeNodeId r.toType r.toId = n := (edgeRow_ok hr).2.2.2.1.trans hn
        exact hpresent _ _ hspelled ht (danglingEndpoint_eq_nil hends.2 (ht ▸ howned))

/-- Whether an edge among these ends at a node. -/
def touches (es : List EdgeData) (n : String) : Bool :=
  es.any fun e => e.fromNode = n || e.toNode = n

variable {es : List EdgeData}

theorem touches_iff : touches es n = true ↔ ∃ e ∈ es, e.fromNode = n ∨ e.toNode = n := by
  simp [touches]

theorem touches_perm {es' : List EdgeData} (h : (es.map content).Perm (es'.map content))
    (n : String) : touches es n = touches es' n := by
  have hone : ∀ {es es' : List EdgeData}, (es.map content).Perm (es'.map content) →
      touches es n = true → touches es' n = true := by
    intro es es' hperm htouches
    have ⟨e, he, hn⟩ := touches_iff.mp htouches
    have hmem := hperm.mem_iff.mp (List.mem_map_of_mem he)
    have ⟨e', he', hsame⟩ := List.mem_map.mp hmem
    refine touches_iff.mpr ⟨e', he', ?_⟩
    have hfrom : (content e').fromNode = (content e).fromNode := congrArg EdgeData.fromNode hsame
    have hto : (content e').toNode = (content e).toNode := congrArg EdgeData.toNode hsame
    exact hn.imp (fun h => hfrom.trans h) (fun h => hto.trans h)
  cases htouches : touches es n with
  | true => exact (hone h htouches).symm
  | false =>
    cases htouches' : touches es' n with
    | true =>
      rw [hone h.symm htouches'] at htouches
      cases htouches
    | false => rfl

variable (c : Committed pulled current operators s') (hsep : Separate s pulled operators)
  (hload : loadGraph s = .ok current)

section
include c hsep hload

theorem Committed.localEdges_perm :
    ((localEdges pulled.manifest s'.edges).map content).Perm
      ((localEdges pulled.manifest s.edges).map content) := by
  have ⟨_, _, hperm⟩ := c.saved_ok hsep.toOrderly hload
  have hnext : localEdges pulled.manifest c.next.edges = [] := by
    unfold localEdges
    rw [List.filter_eq_nil_iff]
    intro e he hlocal
    have hmem : e.relationshipType ∈ c.next.edges.map EdgeData.relationshipType :=
      List.mem_map_of_mem he
    rw [c.nextTypes] at hmem
    have ⟨x, hx, hsame⟩ := List.mem_map.mp hmem
    have howned := hsep.ownedEdges x hx
    rw [hsame] at howned
    exact of_decide_eq_true hlocal howned
  have hself : localEdges pulled.manifest ((localEdges pulled.manifest s.edges).map content) =
      (localEdges pulled.manifest s.edges).map content := by
    rw [← localEdges_content]
    unfold localEdges
    rw [List.filter_filter]
    simp only [Bool.and_self]
  have hfiltered : (localEdges pulled.manifest (s'.edges.map content)).Perm
      (localEdges pulled.manifest (c.next.edges.map content ++
        (localEdges pulled.manifest s.edges).map content)) := hperm.filter _
  have happend : localEdges pulled.manifest (c.next.edges.map content ++
      (localEdges pulled.manifest s.edges).map content) =
      localEdges pulled.manifest (c.next.edges.map content) ++
        localEdges pulled.manifest ((localEdges pulled.manifest s.edges).map content) :=
    List.filter_append _ _
  rw [happend, ← localEdges_content, ← localEdges_content, hnext, hself] at hfiltered
  exact hfiltered

theorem Committed.touched {d : NodeData} (hd : s.nodes.get? n = some d)
    (howned : isLocal pulled.manifest d = false)
    (htouched : touches (localEdges pulled.manifest s.edges) n = true) :
    ∃ d', s'.nodes.get? n = some d' ∧ d'.entityType = d.entityType ∧ d'.entityId = d.entityId := by
  obtain ⟨t, i, hsplit, htype, hid⟩ := split_of_stored hsep.plainStored hd
  have htypeOwned : t ∈ pulled.manifest.ownedEntityTypes := by
    rw [isLocal, htype, Option.all_some, decide_eq_false_iff_not, not_not] at howned
    exact howned
  obtain ⟨e, he, hn⟩ := touches_iff.mp htouched
  have hperm := (extract_ok (covered_loaded hload hsep.stored) c.extracted).2.2
  have hrows := (extract_ok (covered_loaded hload hsep.stored) c.extracted).1
  rw [localEdges_eq hrows, (rebuild_ok hload).2.1] at hperm
  have hoverTouched : touches c.overlay.edges n = true := by
    rw [touches_perm hperm]
    exact htouched
  obtain ⟨x, hx, hxn⟩ := touches_iff.mp hoverTouched
  have hpresent := c.endpoints hx hxn hsplit htypeOwned
  obtain ⟨b, hb⟩ := Option.isSome_iff_exists.mp hpresent
  obtain ⟨t', i', hsplit', htype', hid'⟩ := split_of_release hsep.plainRelease hb
  have hsame := Option.some.inj (hsplit.symm.trans hsplit')
  rw [Prod.mk.injEq] at hsame
  have hpart : partOf pulled.manifest s n = some (stub d) := by
    unfold touches at htouched
    rw [partOf, hd, Option.bind_some, howned, htouched]
    rfl
  have hsaved : c.saved.nodes.get? n = some (layNode (some b) (stub d)) := by
    rw [(c.saved_ok hsep.toOrderly hload).1, mergedNode, c.overlay_nodes hsep hload, hpart,
      c.nextNodes, hb]
  obtain ⟨d', hd', hdt, hdi, _⟩ := (upsertEntities_ok c.stored).2.2 n _ hsaved
  have hlaidType : (layNode (some b) (stub d)).entityType = b.entityType := rfl
  have hlaidId : (layNode (some b) (stub d)).entityId = b.entityId := rfl
  refine ⟨d', hd', ?_, ?_⟩
  · rw [hdt, hlaidType, htype, htype', hsame.1]
  · rw [hdi, hlaidId, hid, hid', hsame.2]

theorem Committed.partOf_eq (n : String) :
    partOf pulled.manifest s' n = partOf pulled.manifest s n := by
  have htouches : touches (localEdges pulled.manifest s'.edges) n =
      touches (localEdges pulled.manifest s.edges) n :=
    touches_perm (c.localEdges_perm hsep hload) n
  unfold touches at htouches
  unfold partOf
  rw [htouches]
  cases hd : s.nodes.get? n with
  | none =>
    have huntouched : touches (localEdges pulled.manifest s.edges) n = false := by
      cases htouched : touches (localEdges pulled.manifest s.edges) n with
      | false => rfl
      | true =>
        have ⟨e, he, hn⟩ := touches_iff.mp htouched
        have ⟨hfrom, hto⟩ := s.closed e (List.mem_filter.mp he).1
        rcases hn with hn | hn
        · rw [hn, hd] at hfrom
          cases hfrom
        · rw [hn, hd] at hto
          cases hto
    unfold touches at huntouched
    rw [huntouched]
    cases hd' : s'.nodes.get? n with
    | none => rfl
    | some d' =>
      rw [Option.bind_some, Option.bind_none]
      have hnot : ¬isLocal pulled.manifest d' = true := by
        intro hlocal
        have hback := c.local_back hsep hload hd' hlocal
        rw [hd] at hback
        cases hback
      rw [if_neg hnot]
      rfl
  | some d =>
    rw [Option.bind_some]
    by_cases hlocal : isLocal pulled.manifest d = true
    · have hkept := c.keeps_node hsep.toOrderly hload hd hlocal
        (release_lacks_local hsep hd hlocal)
      rw [hkept, Option.bind_some]
    · have howned : isLocal pulled.manifest d = false := by simpa using hlocal
      rw [if_neg hlocal]
      cases htouched : touches (localEdges pulled.manifest s.edges) n with
      | true =>
        have ⟨d', hd', htype, hid⟩ := c.touched hsep hload hd howned htouched
        unfold touches at htouched
        have hnot : ¬isLocal pulled.manifest d' = true := by
          rw [isLocal_congr htype, howned]
          exact Bool.false_ne_true
        rw [hd', Option.bind_some, if_neg hnot, htouched, if_pos rfl, if_pos rfl, stub, stub,
          htype, hid]
      | false =>
        unfold touches at htouched
        rw [htouched]
        cases hd' : s'.nodes.get? n with
        | none => rfl
        | some d' =>
          have hnot : ¬isLocal pulled.manifest d' = true := by
            intro hlocal'
            have hback := c.local_back hsep hload hd' hlocal'
            rw [hd, Option.some.injEq] at hback
            rw [hback] at hlocal
            exact hlocal hlocal'
          rw [Option.bind_some, if_neg hnot]
          rfl

end

end Same

theorem Committed.samePart {current' : EntityGraph} (c : Committed pulled current operators s')
    (hsep : Separate s pulled operators) (hload : loadGraph s = .ok current)
    (hload' : loadGraph s' = .ok current') :
    ∃ part, extractLocalOverlayGraph current' pulled.manifest = .ok part ∧
      SamePart c.overlay part := by
  have hperm := c.localEdges_perm hsep hload
  have hlinked : ∀ e ∈ localEdges pulled.manifest s'.edges,
      LinkedNode current' e.fromNode ∧ LinkedNode current' e.toNode := by
    have hnode : ∀ n, touches (localEdges pulled.manifest s'.edges) n = true →
        LinkedNode current' n := by
      intro n htouched
      rw [touches_perm hperm] at htouched
      have ⟨e, he, hn⟩ := touches_iff.mp htouched
      have ⟨hfrom, hto⟩ := s.closed e (List.mem_filter.mp he).1
      have hpresent : (s.nodes.get? n).isSome := by
        rcases hn with hn | hn
        · exact hn ▸ hfrom
        · exact hn ▸ hto
      have ⟨d, hd⟩ := Option.isSome_iff_exists.mp hpresent
      have ⟨t, i, hsplit, htype, hid⟩ := split_of_stored hsep.plainStored hd
      have hafter : ∃ d', s'.nodes.get? n = some d' ∧ d'.entityType = d.entityType ∧
          d'.entityId = d.entityId := by
        cases hlocal : isLocal pulled.manifest d with
        | true =>
          exact ⟨d, c.keeps_node hsep.toOrderly hload hd hlocal
            (release_lacks_local hsep hd hlocal), rfl, rfl⟩
        | false => exact c.touched hsep hload hd hlocal htouched
      have ⟨d', hd', htype', hid'⟩ := hafter
      have ⟨e', he', _⟩ := s'.entities n d' hd'
      rw [he'] at hd' htype' hid'
      refine ⟨e', ?_, ?_⟩
      · rw [(rebuild_ok hload').1]
        exact hd'
      · have ht : e'.entityType = t := Option.some.inj (htype'.trans htype)
        have hi : e'.entityId = i := Option.some.inj (hid'.trans hid)
        rw [ht, hi]
        exact hsplit
    intro e he
    exact ⟨hnode _ (touches_iff.mpr ⟨e, he, .inl rfl⟩), hnode _ (touches_iff.mpr ⟨e, he, .inr rfl⟩)⟩
  have ⟨part, hpart, hnodes, hedges⟩ := extractLocal_linked hload' (c.named hsep hload)
    (c.saved_ok hsep.toOrderly hload).2.1 hlinked
  refine ⟨part, hpart, ?_, ?_⟩
  · intro n
    rw [c.overlay_nodes hsep hload, hnodes, c.partOf_eq hsep hload]
  · have hrows := (extract_ok (covered_loaded hload hsep.stored) c.extracted).1
    have hbefore := (extract_ok (covered_loaded hload hsep.stored) c.extracted).2.2
    rw [localEdges_eq hrows, (rebuild_ok hload).2.1] at hbefore
    exact hbefore.trans (hperm.symm.trans hedges.symm)

/-- The committed graph, and what the pulls under way have loaded. -/
structure World where
  stored : StoredGraph
  loaded : Nat → Option EntityGraph := fun _ => none

inductive Event where
  /-- Any other request commits. -/
  | write (graph : StoredGraph)
  /-- The pre-pull snapshot of a process loads the graph that it will merge into. -/
  | load (process : Nat)
  /-- The transaction of the pull, with the identity map it has read, the ids it
  mints and the operator entities it materializes. -/
  | commit (process : Nat) (pulled : PulledRelease) (identities : IdentityMap)
      (mint : Nat → String) (operators : List EntityInstance)

def setLoaded (loaded : Nat → Option EntityGraph) (p : Nat) (g : Option EntityGraph) :
    Nat → Option EntityGraph := fun q => if q = p then g else loaded q

/-- A pull that raises commits nothing. -/
def step (w : World) : Event → World
  | .write graph => { w with stored := graph }
  | .load p =>
      match loadGraph w.stored with
      | .ok g => { w with loaded := setLoaded w.loaded p (some g) }
      | .error _ => w
  | .commit p pulled identities mint operators =>
      match w.loaded p with
      | none => w
      | some g =>
          match commitPull pulled g identities mint operators with
          | .ok saved => { stored := saved.1, loaded := setLoaded w.loaded p none }
          | .error _ => { w with loaded := setLoaded w.loaded p none }

/-- When a pull commits, the stored graph still is the one that it has loaded. -/
def Undisturbed (w : World) : Event → Prop
  | .commit p pulled _ _ operators =>
      (∀ g, w.loaded p = some g → loadGraph w.stored = .ok g) ∧
        Orderly w.stored pulled operators
  | _ => True

def UndisturbedRun : World → List Event → Prop
  | _, [] => True
  | w, e :: es => Undisturbed w e ∧ UndisturbedRun (step w e) es

/-- Every local node and edge is as it was, if the release does not have it; and the
local part is extracted as before, if the release and its names are separate. -/
structure KeepsLocalWork (before after : StoredGraph) (pulled : PulledRelease)
    (operators : List EntityInstance) : Prop where
  nodes : ∀ n d, before.nodes.get? n = some d → isLocal pulled.manifest d = true →
    pulled.image.nodes.get? n = none → after.nodes.get? n = some d
  edges : ∃ rest, (after.edges.map content).Perm
    ((localEdges pulled.manifest before.edges).map content ++ rest)
  part : Separate before pulled operators → ∀ g g' part, loadGraph before = .ok g →
    loadGraph after = .ok g' → extractLocalOverlayGraph g pulled.manifest = .ok part →
    ∃ part', extractLocalOverlayGraph g' pulled.manifest = .ok part' ∧ SamePart part part'

theorem keepsLocalWork_refl (s : StoredGraph) (pulled : PulledRelease)
    (operators : List EntityInstance) : KeepsLocalWork s s pulled operators where
  nodes := fun _ _ hd _ _ => hd
  edges := by
    refine ⟨(s.edges.filter fun e =>
      !decide (e.relationshipType ∉ pulled.manifest.ownedRelationshipTypes)).map content, ?_⟩
    rw [← List.map_append]
    exact ((List.filter_append_perm _ _).map content).symm
  part := by
    intro _ g g' part hg hg' hpart
    have hsame : g = g' := Except.ok.inj (hg.symm.trans hg')
    exact ⟨part, hsame ▸ hpart, fun _ => rfl, List.Perm.refl _⟩

theorem keepsLocalWork_commit (horderly : Orderly s pulled operators)
    (hload : loadGraph s = .ok current)
    (hok : commitPull pulled current identities mint operators = .ok (s', map)) :
    KeepsLocalWork s s' pulled operators := by
  have ⟨c⟩ := committed_of_commitPull hok
  constructor
  · intro n d hd hlocal habsent
    exact c.keeps_node horderly hload hd hlocal habsent
  · have ⟨_, _, hperm⟩ := c.saved_ok horderly hload
    exact ⟨c.next.edges.map content, hperm.trans List.perm_append_comm⟩
  · intro hsep g g' part hg hg' hpart
    have hcurrent : g = current := Except.ok.inj (hg.symm.trans hload)
    rw [hcurrent] at hpart
    have hsame : part = c.overlay := Except.ok.inj (hpart.symm.trans c.extracted)
    rw [hsame]
    exact c.samePart hsep hload hg'

theorem keepsLocalWork_step {w : World} {p : Nat}
    (h : Undisturbed w (.commit p pulled identities mint operators)) :
    KeepsLocalWork w.stored (step w (.commit p pulled identities mint operators)).stored pulled
      operators := by
  unfold step
  simp only
  cases hg : w.loaded p with
  | none => exact keepsLocalWork_refl _ _ _
  | some g =>
    simp only
    cases hok : commitPull pulled g identities mint operators with
    | error m => exact keepsLocalWork_refl _ _ _
    | ok saved => exact keepsLocalWork_commit h.2 (h.1 g hg) hok

theorem undisturbed_split {w : World} {earlier later : List Event} {e : Event}
    (h : UndisturbedRun w (earlier ++ e :: later)) : Undisturbed (earlier.foldl step w) e := by
  induction earlier generalizing w with
  | nil => exact h.1
  | cons x xs ih => exact ih h.2

/-- In every run in which no write is committed between a pull's load and its
commit, each pull keeps the local work that is stored when it commits. -/
theorem pulls_keep_local_work {start : World} {earlier later : List Event} {p : Nat}
    {pulled : PulledRelease} {identities : IdentityMap} {mint : Nat → String}
    {operators : List EntityInstance}
    (hrun : UndisturbedRun start
      (earlier ++ .commit p pulled identities mint operators :: later)) :
    KeepsLocalWork (earlier.foldl step start).stored
      ((earlier ++ [Event.commit p pulled identities mint operators]).foldl step start).stored pulled
      operators := by
  have hstep := keepsLocalWork_step (undisturbed_split hrun)
  rw [List.foldl_append]
  exact hstep

def releasedService : EntityInstance where
  entityType := "Service"
  entityId := "a"

/-- A release with one service. -/
def serviceRelease : PulledRelease where
  manifest := { stateId := "services", releaseId := "r2", snapshotId := "snap_2",
                ownedEntityTypes := ["Service"], ownedRelationshipTypes := ["depends_on"] }
  image :=
    { nodes := Dict.set ∅ "Service:a" (nodeOf releasedService)
      addresses := by simp
      closed := by simp }
  entities := by
    intro n d hd
    rw [Dict.get?_set] at hd
    split_ifs at hd with hn
    · exact ⟨releasedService, (Option.some.inj hd).symm, hn.symm⟩
    · cases hd

/-- A stored graph with one local note. -/
def noteGraph : StoredGraph := StoredGraph.empty.put { entityType := "Note", entityId := "n" }

def pullEvent : Event := .commit 0 serviceRelease ∅ countedId []

theorem note_orderly : Orderly noteGraph serviceRelease [] where
  stored := by
    have hnamed : ∀ b ∈ noteGraph.nodes.entries, b.2.entityType ≠ some "" := by decide +kernel
    exact fun n d hd => hnamed (n, d) (Dict.mem_of_get? hd)
  release := by
    have hnamed : ∀ b ∈ serviceRelease.image.nodes.entries, b.2.entityType ≠ some "" := by
      decide +kernel
    exact fun n d hd => hnamed (n, d) (Dict.mem_of_get? hd)
  operatorTypes := by simp

/-- The note is still there after the pull, beside the service. -/
theorem note_outlives_a_pull :
    KeepsLocalWork noteGraph (step (step { stored := noteGraph } (.load 0)) pullEvent).stored
      serviceRelease [] ∧
    (step (step { stored := noteGraph } (.load 0)) pullEvent).stored.nodes.keys =
      ["Service:a", "Note:n"] := by
  have hload : (step { stored := noteGraph } (.load 0)).stored = noteGraph := by
    have ⟨g, hg, _⟩ := loadGraph_total noteGraph
    simp only [step, hg]
  have hloaded : ∀ g, (step { stored := noteGraph } (.load 0)).loaded 0 = some g →
      loadGraph noteGraph = .ok g := by
    have ⟨g, hg, _⟩ := loadGraph_total noteGraph
    intro g' hg'
    simp only [step, hg, setLoaded, if_true, Option.some.injEq] at hg'
    rw [hg, hg']
  have hrun : UndisturbedRun { stored := noteGraph } ([Event.load 0] ++ pullEvent :: []) := by
    refine ⟨trivial, ⟨?_, ?_⟩, trivial⟩
    · rw [hload]
      exact hloaded
    · rw [hload]
      exact note_orderly
  have hkeeps := pulls_keep_local_work hrun
  rw [List.foldl_cons, List.foldl_nil, hload] at hkeeps
  refine ⟨hkeeps, ?_⟩
  decide +kernel

/-- A note that is committed after the pull's load is overwritten by its commit. -/
theorem concurrent_note_is_lost :
    ¬ ∀ (start : World) (earlier : List Event) (p : Nat) (pulled : PulledRelease)
      (identities : IdentityMap) (mint : Nat → String) (operators : List EntityInstance),
      Orderly (earlier.foldl step start).stored pulled operators →
      KeepsLocalWork (earlier.foldl step start).stored
        ((earlier ++ [Event.commit p pulled identities mint operators]).foldl step start).stored
        pulled operators := by
  intro hall
  have hkeeps := hall { stored := StoredGraph.empty } [Event.load 0, Event.write noteGraph] 0 serviceRelease
    ∅ countedId [] note_orderly
  have hnote : noteGraph.nodes.get? "Note:n" =
      some (nodeOf { entityType := "Note", entityId := "n" }) := by decide +kernel
  have hafter := hkeeps.nodes "Note:n" _ hnote (by decide +kernel) (by decide +kernel)
  have hlost : (([Event.load 0, Event.write noteGraph] ++ [pullEvent]).foldl step
      { stored := StoredGraph.empty }).stored.nodes.get? "Note:n" = none := by decide +kernel
  have hnever := hlost.symm.trans hafter
  cases hnever

end Cruxible.LocalWork
