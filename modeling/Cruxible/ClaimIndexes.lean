import Cruxible.GraphImages

/-!
# The indexes of an entity graph

Every public operation of the graph keeps its four indexes in step with the
multigraph, with one exception. Two entity types may spell one node id, since a
type may itself contain the separator. Adding or removing a node under a type
that it does not have leaves a stale entry in the index of its type.
-/
namespace Cruxible.ClaimIndexes
open JsonValue PythonDict AssertionState AppendOnly GraphImages
open Cruxible.Graph (EntityInstance RelationshipInstance blank)

/-- The claim ids that are on edges. -/
def presentClaims (es : List EdgeData) : List String := es.filterMap EdgeData.claimId

/-- The indexes of the edges. -/
structure EdgesIndexed (g : EntityGraph) : Prop where
  /-- The claim-id index is the set of claim ids on edges. -/
  claims : ∀ c, c ∈ g.claimIds ↔ c ∈ presentClaims g.edges
  /-- No claim id is on two edges. -/
  unique : (presentClaims g.edges).Nodup
  keys : ∀ e ∈ g.edges, ∀ k, e.key = .int k → k < g.edgeCounter
  addresses : (g.edges.map EdgeData.address).Nodup

structure Indexed (g : EntityGraph) : Prop extends EdgesIndexed g where
  types : ∀ t n, n ∈ filed g.entitiesByType t ↔
    ∃ d, g.nodes.get? n = some d ∧ d.entityType = some t

theorem presentClaims_eq (es : List EdgeData) :
    presentClaims es = (es.map EdgeData.claimId).reduceOption := by
  unfold presentClaims List.reduceOption
  rw [List.filterMap_map]
  rfl

variable {c n t : String} {es : List EdgeData} {ids ids' : List String} {reuse : IdentityMap}

theorem mem_presentClaims :
    c ∈ presentClaims es ↔ ∃ e ∈ es, e.claimId = some c := List.mem_filterMap

variable {e : EdgeData} {a : Assigner} {mint : Nat → String}

theorem edge_unique (h : (presentClaims es).Nodup) {e' : EdgeData} (he : e ∈ es) (he' : e' ∈ es)
    (hc : e.claimId = some c) (hc' : e'.claimId = some c) : e = e' := by
  induction es with
  | nil => cases he
  | cons x es ih =>
    have hrest : (presentClaims es).Nodup := by
      cases hx : x.claimId with
      | none =>
        rw [presentClaims, List.filterMap_cons_none hx] at h
        exact h
      | some d =>
        rw [presentClaims, List.filterMap_cons_some hx] at h
        exact (List.nodup_cons.mp h).2
    have hhead : ∀ {y z : EdgeData}, y = x → z ∈ es → y.claimId = some c →
        z.claimId = some c → False := by
      intro y z hyx hz hy hzc
      rw [hyx] at hy
      rw [presentClaims, List.filterMap_cons_some hy] at h
      exact (List.nodup_cons.mp h).1 (mem_presentClaims.mpr ⟨z, hz, hzc⟩)
    rcases List.mem_cons.mp he with he | he
    · rcases List.mem_cons.mp he' with he' | he'
      · rw [he, he']
      · exact (hhead he he' hc hc').elim
    · rcases List.mem_cons.mp he' with he' | he'
      · exact (hhead he' he hc' hc).elim
      · exact ih hrest he he'

theorem claims_filter (keep : EdgeData → Bool) (hclaims : ∀ c, c ∈ ids ↔ c ∈ presentClaims es)
    (hunique : (presentClaims es).Nodup)
    (hids : ∀ c, c ∈ ids' ↔ c ∈ ids ∧ ∀ e ∈ es, keep e = false → e.claimId ≠ some c) (c : String) :
    c ∈ ids' ↔ c ∈ presentClaims (es.filter keep) := by
  rw [hids, hclaims, mem_presentClaims, mem_presentClaims]
  constructor
  · rintro ⟨⟨e, he, hc⟩, hdropped⟩
    refine ⟨e, List.mem_filter.mpr ⟨he, ?_⟩, hc⟩
    by_contra hkeep
    exact hdropped e he (by simpa using hkeep) hc
  · rintro ⟨e, he, hc⟩
    have ⟨hmem, hkeep⟩ := List.mem_filter.mp he
    refine ⟨⟨e, hmem, hc⟩, ?_⟩
    intro e' he' hdropped hc'
    have hsame := edge_unique hunique hmem he' hc hc'
    rw [← hsame, hkeep] at hdropped
    cases hdropped

theorem mem_discard {o : Option String} : c ∈ discardClaim ids o ↔ c ∈ ids ∧ o ≠ some c := by
  cases o with
  | none => simp [discardClaim]
  | some d =>
    rw [discardClaim, List.mem_filter, decide_eq_true_eq, ne_comm]
    simp

theorem mem_discard_all {dropped : List EdgeData} :
    c ∈ dropped.foldl (fun ids e => discardClaim ids e.claimId) ids ↔
      c ∈ ids ∧ ∀ e ∈ dropped, e.claimId ≠ some c := by
  induction dropped generalizing ids with
  | nil => simp
  | cons e es ih =>
    rw [List.foldl_cons, ih, mem_discard]
    simp [and_assoc]

section Mutators
variable {g : EntityGraph}

theorem Indexed.nodes (hg : Indexed g) {nodes : Dict String NodeData}
    {index : Dict String (List String)}
    (htypes : ∀ t n, n ∈ filed index t ↔ ∃ d, nodes.get? n = some d ∧ d.entityType = some t) :
    Indexed { g with nodes := nodes, entitiesByType := index } where
  claims := hg.claims
  unique := hg.unique
  keys := hg.keys
  addresses := hg.addresses
  types := htypes

/-- A node that is present under the spelled id has the spelled type. -/
def SameType (g : EntityGraph) (entityType entityId : String) : Prop :=
  ∀ d, g.nodes.get? (makeNodeId entityType entityId) = some d → d.entityType = some entityType

theorem indexed_addEntity (hg : Indexed g) {e : EntityInstance}
    (hsame : SameType g e.entityType e.entityId) : Indexed (g.addEntity e) := by
  apply hg.nodes
  intro t n
  rw [mem_filed_file, hg.types, Dict.get?_set]
  by_cases hn : makeNodeId e.entityType e.entityId = n
  · rw [if_pos hn, ← hn]
    constructor
    · rintro (⟨d, hd, ht⟩ | ⟨ht, _⟩)
      · have htype := hsame d hd
        rw [ht] at htype
        exact ⟨_, rfl, htype.symm⟩
      · exact ⟨_, rfl, by rw [ht]⟩
    · rintro ⟨d, hd, ht⟩
      rw [← Option.some.inj hd] at ht
      exact .inr ⟨(Option.some.inj ht).symm, rfl⟩
  · rw [if_neg hn]
    simp [Ne.symm hn]

theorem indexed_modifyNode (hg : Indexed g) (n : String) {f : NodeData → NodeData}
    (hf : ∀ d, (f d).entityType = d.entityType) : Indexed (g.modifyNode n f) := by
  unfold EntityGraph.modifyNode
  split
  · exact hg
  · rename_i d hd
    apply hg.nodes
    intro t m
    rw [hg.types, Dict.get?_set]
    by_cases hm : n = m
    · rw [if_pos hm, ← hm, hd]
      simp [hf]
    · rw [if_neg hm]

theorem indexed_ensureNode (hg : Indexed g) (t i : String) : Indexed (g.ensureNode t i) := by
  unfold EntityGraph.ensureNode
  split_ifs with hpresent
  · exact hg
  · apply indexed_addEntity hg
    intro d hd
    rw [EntityGraph.hasEntity, hd] at hpresent
    exact absurd rfl hpresent

theorem indexed_removeEntity (hg : Indexed g) {i : String} (hsame : SameType g t i) :
    Indexed (g.removeEntity t i) := by
  unfold EntityGraph.removeEntity
  simp only
  split
  · exact hg
  · rename_i d hd
    refine ⟨⟨?_, ?_, ?_, ?_⟩, ?_⟩
    · apply claims_filter _ hg.claims hg.unique
      intro c
      rw [mem_discard_all]
      apply and_congr_right
      intro _
      constructor
      · intro hall e he hdropped
        apply hall e
        simp only [decide_not, Bool.not_eq_false', decide_eq_true_eq] at hdropped
        rw [List.mem_append, List.mem_filter, List.mem_filter]
        rcases hdropped with hfrom | hto
        · exact .inl ⟨he, by simpa using hfrom⟩
        · exact .inr ⟨he, by simpa using hto⟩
      · intro hall e he
        rcases List.mem_append.mp he with he | he
        · obtain ⟨hmem, hfrom⟩ := List.mem_filter.mp he
          have hends : e.fromNode = makeNodeId t i := of_decide_eq_true hfrom
          exact hall e hmem (by simp [hends])
        · obtain ⟨hmem, hto⟩ := List.mem_filter.mp he
          have hends : e.toNode = makeNodeId t i := of_decide_eq_true hto
          exact hall e hmem (by simp [hends])
    · exact hg.unique.sublist (List.filter_sublist.filterMap _)
    · exact fun e he => hg.keys e (List.mem_filter.mp he).1
    · exact hg.addresses.sublist (List.filter_sublist.map _)
    · intro t' n
      rw [mem_filed_unfile, hg.types, Dict.get?_erase]
      by_cases hn : makeNodeId t i = n
      · rw [if_pos hn, ← hn]
        constructor
        · rintro ⟨⟨d', hd', ht'⟩, hnot⟩
          have htype := hsame d' hd'
          rw [ht'] at htype
          exact absurd ⟨Option.some.inj htype, rfl⟩ hnot
        · rintro ⟨d', hd', _⟩
          cases hd'
      · rw [if_neg hn]
        simp [Ne.symm hn]

theorem edges_ensureNode (g : EntityGraph) (t i : String) :
    (g.ensureNode t i).edges = g.edges ∧ (g.ensureNode t i).claimIds = g.claimIds ∧
      (g.ensureNode t i).edgeCounter = g.edgeCounter := by
  unfold EntityGraph.ensureNode
  split_ifs
  · exact ⟨rfl, rfl, rfl⟩
  · exact ⟨rfl, rfl, rfl⟩

theorem edgesIndexed_ensureNode (hg : EdgesIndexed g) (t i : String) :
    EdgesIndexed (g.ensureNode t i) := by
  have ⟨hedges, hids, hcounter⟩ := edges_ensureNode g t i
  constructor
  · rw [hedges, hids]
    exact hg.claims
  · rw [hedges]
    exact hg.unique
  · rw [hedges, hcounter]
    exact hg.keys
  · rw [hedges]
    exact hg.addresses

/-- The edge that `add_relationship` makes. -/
def newEdge (r : RelationshipInstance) (c : String) (counter : Int) : EdgeData where
  fromNode := makeNodeId r.fromType r.fromId
  toNode := makeNodeId r.toType r.toId
  key := .int counter
  relationshipType := r.relationshipType
  claimId := some c
  properties := r.properties
  metadata := r.metadata

theorem newEdge_fresh (hg : EdgesIndexed g) (r : RelationshipInstance) (c : String) :
    (newEdge r c g.edgeCounter).address ∉ g.edges.map EdgeData.address := by
  intro hmem
  have ⟨e, he, haddress⟩ := List.mem_map.mp hmem
  have hkey : e.key = .int g.edgeCounter := congrArg (fun a => a.2.2) haddress
  exact absurd (hg.keys e he _ hkey) (Int.lt_irrefl _)

variable {h : EntityGraph} {r : RelationshipInstance}

theorem addRelationship_ok (hok : g.addRelationship r = .ok h) :
    ∃ c k, r.claimId = some c ∧ blank c = false ∧ c ∉ g.claimIds ∧
      k = (g.ensureNode r.fromType r.fromId).ensureNode r.toType r.toId ∧
      h = { k with
        edges := addEdge k.nodes.keys (newEdge r c k.edgeCounter) k.edges
        edgeCounter := k.edgeCounter + 1
        claimIds := k.claimIds ++ [c] } := by
  unfold EntityGraph.addRelationship at hok
  split at hok
  · cases hok
  · rename_i c hc
    split_ifs at hok with hblank hduplicate
    exact ⟨c, _, hc, by simpa using hblank, hduplicate, rfl, (Except.ok.inj hok).symm⟩

theorem edgesIndexed_addEdge (hg : EdgesIndexed g) (order : List String) (r : RelationshipInstance)
    (hc : c ∉ g.claimIds) :
    EdgesIndexed { g with
      edges := addEdge order (newEdge r c g.edgeCounter) g.edges
      edgeCounter := g.edgeCounter + 1
      claimIds := g.claimIds ++ [c] } := by
  have hfresh := newEdge_fresh hg r c
  have hperm := addEdge_perm order hfresh
  have hnew : c ∉ presentClaims g.edges := by
    rw [← hg.claims]
    exact hc
  have hclaims : (presentClaims (addEdge order (newEdge r c g.edgeCounter) g.edges)).Perm
      (c :: presentClaims g.edges) := hperm.filterMap EdgeData.claimId
  constructor
  · intro d
    change d ∈ g.claimIds ++ [c] ↔
      d ∈ presentClaims (addEdge order (newEdge r c g.edgeCounter) g.edges)
    rw [hclaims.mem_iff, List.mem_append, List.mem_singleton, hg.claims, List.mem_cons, or_comm]
  · change (presentClaims (addEdge order (newEdge r c g.edgeCounter) g.edges)).Nodup
    rw [hclaims.nodup_iff]
    exact List.nodup_cons.mpr ⟨hnew, hg.unique⟩
  · intro e he n hn
    change n < g.edgeCounter + 1
    rcases List.mem_cons.mp (hperm.mem_iff.mp he) with he | he
    · rw [he] at hn
      have hsameKey : g.edgeCounter = n := EdgeKey.int.inj hn
      omega
    · have hbelow := hg.keys e he n hn
      omega
  · rw [(hperm.map EdgeData.address).nodup_iff]
    exact List.nodup_cons.mpr ⟨hfresh, hg.addresses⟩

theorem edgesIndexed_addRelationship (hg : EdgesIndexed g) (hok : g.addRelationship r = .ok h) :
    EdgesIndexed h := by
  have ⟨c, k, _, _, hfresh, hk, hh⟩ := addRelationship_ok hok
  have hends := edgesIndexed_ensureNode (edgesIndexed_ensureNode hg r.fromType r.fromId)
    r.toType r.toId
  rw [← hk] at hends
  have hids : k.claimIds = g.claimIds := by
    rw [hk, (edges_ensureNode _ _ _).2.1, (edges_ensureNode _ _ _).2.1]
  rw [hh]
  rw [← hids] at hfresh
  exact edgesIndexed_addEdge hends k.nodes.keys r hfresh

theorem indexed_addRelationship (hg : Indexed g) (hok : g.addRelationship r = .ok h) :
    Indexed h := by
  refine ⟨edgesIndexed_addRelationship hg.toEdgesIndexed hok, ?_⟩
  have ⟨c, k, _, _, _, hk, hh⟩ := addRelationship_ok hok
  have hends := indexed_ensureNode (indexed_ensureNode hg r.fromType r.fromId) r.toType r.toId
  rw [← hk] at hends
  rw [hh]
  exact hends.types

theorem Indexed.edges (hg : Indexed g) {es : List EdgeData}
    (haddress : es.map EdgeData.address = g.edges.map EdgeData.address)
    (hclaim : es.map EdgeData.claimId = g.edges.map EdgeData.claimId) :
    Indexed { g with edges := es } := by
  have hpresent : presentClaims es = presentClaims g.edges := by
    rw [presentClaims_eq, presentClaims_eq, hclaim]
  refine ⟨⟨?_, ?_, ?_, ?_⟩, ?_⟩
  · intro c
    change c ∈ g.claimIds ↔ c ∈ presentClaims es
    rw [hpresent]
    exact hg.claims c
  · change (presentClaims es).Nodup
    rw [hpresent]
    exact hg.unique
  · intro e he k hk
    have hmem : e.address ∈ g.edges.map EdgeData.address :=
      haddress ▸ List.mem_map_of_mem he
    have ⟨e', he', hsame⟩ := List.mem_map.mp hmem
    have hkey : e'.key = e.key := congrArg (fun a => a.2.2) hsame
    exact hg.keys e' he' k (hkey.trans hk)
  · change (es.map EdgeData.address).Nodup
    rw [haddress]
    exact hg.addresses
  · exact hg.types

theorem indexed_modifyEdge (hg : Indexed g) (a b c d r : String) (key : Option Int)
    {f : EdgeData → EdgeData} (haddress : ∀ e, (f e).address = e.address)
    (hclaim : ∀ e, (f e).claimId = e.claimId) : Indexed (g.modifyEdge a b c d r key f) :=
  hg.edges (map_modifyFirst EdgeData.address haddress _)
    (map_modifyFirst EdgeData.claimId hclaim _)

theorem indexed_removeRelationship (hg : Indexed g) (a b c d r : String) (key : Option Int) :
    Indexed (g.removeRelationship a b c d r key) := by
  unfold EntityGraph.removeRelationship
  split
  · exact hg
  · rename_i found hfound
    have hmem := List.mem_of_find?_eq_some hfound
    refine ⟨⟨?_, ?_, ?_, ?_⟩, ?_⟩
    · apply claims_filter _ hg.claims hg.unique
      intro x
      rw [mem_discard]
      apply and_congr_right
      intro _
      constructor
      · intro hne e he hdropped
        have haddress : e.address = found.address := by simpa using hdropped
        have hsame : e = found := List.inj_on_of_nodup_map hg.addresses he hmem haddress
        rw [hsame]
        exact hne
      · intro hall
        exact hall found hmem (by simp)
    · exact hg.unique.sublist (List.filter_sublist.filterMap _)
    · exact fun e he => hg.keys e (List.mem_filter.mp he).1
    · exact hg.addresses.sublist (List.filter_sublist.map _)
    · exact hg.types

theorem indexed_relabelCloneReceipts (hg : Indexed g) (origin : String) :
    Indexed (g.relabelCloneReceipts origin) := by
  apply hg.edges
  · rw [List.map_map]
    rfl
  · rw [List.map_map]
    rfl

end Mutators

/-- What a walk may rely on: as long as `I` holds, a picked id is new and `I` holds
with it. -/
def Picks (a : Assigner) (reuse : IdentityMap) (I : List String → Nat → Prop) : Prop :=
  ∀ k position ids minted c, I ids minted →
    a.pick (reusable reuse k position) ids minted = some c →
    c ∉ ids ∧ I (ids ++ [c]) (if a.mints && (reusable reuse k position = "" ||
      reusable reuse k position ∈ ids) then minted + 1 else minted)

/-- A walk adds new ids to id-less edges, and files what it adds. -/
structure Assigns (es es' : List EdgeData) (ids ids' : List String) (new : List String) :
    Prop where
  filed : ids' = ids ++ new
  nodup : new.Nodup
  fresh : ∀ c ∈ new, c ∉ ids
  claims : (presentClaims es').Perm (presentClaims es ++ new)
  addresses : es'.map EdgeData.address = es.map EdgeData.address

theorem Assigns.refl (es : List EdgeData) (ids : List String) : Assigns es es ids ids [] where
  filed := by simp
  nodup := List.nodup_nil
  fresh := by simp
  claims := by simp
  addresses := rfl

theorem Assigns.cons {es es' : List EdgeData} {ids ids' new : List String} (e : EdgeData)
    (h : Assigns es es' ids ids' new) : Assigns (e :: es) (e :: es') ids ids' new where
  filed := h.filed
  nodup := h.nodup
  fresh := h.fresh
  claims := by
    cases hc : e.claimId with
    | none =>
      rw [presentClaims, presentClaims, List.filterMap_cons_none hc,
        List.filterMap_cons_none hc]
      exact h.claims
    | some c =>
      rw [presentClaims, presentClaims, List.filterMap_cons_some hc,
        List.filterMap_cons_some hc, List.cons_append]
      exact h.claims.cons c
  addresses := by rw [List.map_cons, List.map_cons, h.addresses]

theorem Assigns.take {es' : List EdgeData} {new : List String} (he : e.claimId = none)
    (hc : c ∉ ids) (h : Assigns es es' (ids ++ [c]) ids' new) :
    Assigns (e :: es) ({ e with claimId := some c } :: es') ids ids' (c :: new) where
  filed := by rw [h.filed, List.append_assoc, List.singleton_append]
  nodup := by
    rw [List.nodup_cons]
    exact ⟨fun hmem => h.fresh c hmem (by simp), h.nodup⟩
  fresh := by
    intro d hd
    rcases List.mem_cons.mp hd with hd | hd
    · rw [hd]
      exact hc
    · exact fun hmem => h.fresh d hd (List.mem_append_left _ hmem)
  claims := by
    have hes : presentClaims (e :: es) = presentClaims es := List.filterMap_cons_none he
    have hes' : presentClaims ({ e with claimId := some c } :: es') = c :: presentClaims es' := rfl
    rw [hes, hes']
    exact (h.claims.cons c).trans List.perm_middle.symm
  addresses := by
    rw [List.map_cons, List.map_cons, h.addresses]
    rfl

variable {I : List String → Nat → Prop} {g : EntityGraph} {index : Dict String (List String)}

theorem assigns_assignClaimIds (hpick : Picks a reuse I)
    (hidless : ∀ e ∈ es, a.idless e.claimId = true → e.claimId = none) (s : Walk)
    (hs : I s.claimIds s.minted) :
    ∃ new, Assigns es (assignClaimIds a reuse es s).1 s.claimIds
      (assignClaimIds a reuse es s).2.1.claimIds new := by
  induction es generalizing s with
  | nil => exact ⟨[], Assigns.refl [] s.claimIds⟩
  | cons e es ih =>
    have hrest := ih fun x hx => hidless x (List.mem_cons_of_mem e hx)
    unfold assignClaimIds
    cases hid : a.idless e.claimId with
    | false =>
      simp only [Bool.false_eq_true, if_false]
      have ⟨new, hnew⟩ := hrest s hs
      exact ⟨new, hnew.cons e⟩
    | true =>
      have he := hidless e List.mem_cons_self hid
      simp only [if_true]
      cases hk : e.identity with
      | none => exact ⟨[], Assigns.refl (e :: es) s.claimIds⟩
      | some k =>
        simp only
        cases hp : a.pick (reusable reuse k ((s.seen.get? k).getD 0)) s.claimIds
            s.minted with
        | none =>
          have ⟨new, hnew⟩ := hrest (s.skip k ((s.seen.get? k).getD 0)) hs
          exact ⟨new, hnew.cons e⟩
        | some c =>
          have ⟨hfresh, hnext⟩ := hpick k _ _ _ c hs hp
          set s' := s.take a k ((s.seen.get? k).getD 0)
            (reusable reuse k ((s.seen.get? k).getD 0)) e c with hs'
          by_cases hrefused : a.refuses c = true
          · simp only [hrefused, if_true]
            exact ⟨[c], (Assigns.refl es (s.claimIds ++ [c])).take he hfresh⟩
          · simp only [hrefused, Bool.false_eq_true, if_false]
            have ⟨new, hnew⟩ := hrest s' hnext
            exact ⟨c :: new, hnew.take he hfresh⟩

theorem indexed_assign (hg : Indexed g) (hpick : Picks a reuse I)
    (hidless : ∀ e ∈ g.edges, a.idless e.claimId = true → e.claimId = none) (hI : I g.claimIds 0) :
    Indexed (g.assign a reuse).1 := by
  have ⟨new, h⟩ := assigns_assignClaimIds hpick hidless { claimIds := g.claimIds } hI
  unfold EntityGraph.assign
  simp only
  refine ⟨⟨?_, ?_, ?_, ?_⟩, ?_⟩
  · intro c
    change c ∈ (assignClaimIds a reuse g.edges { claimIds := g.claimIds }).2.1.claimIds ↔ _
    rw [h.filed, h.claims.mem_iff, List.mem_append, List.mem_append, hg.claims]
  · change (presentClaims (assignClaimIds a reuse g.edges { claimIds := g.claimIds }).1).Nodup
    rw [h.claims.nodup_iff]
    apply List.nodup_append.mpr
    refine ⟨hg.unique, h.nodup, ?_⟩
    intro c hc d hd hcd
    apply h.fresh d hd
    rw [hg.claims, ← hcd]
    exact hc
  · intro e he k hk
    have hmem : e.address ∈ g.edges.map EdgeData.address :=
      h.addresses ▸ List.mem_map_of_mem he
    have ⟨e', he', hsame⟩ := List.mem_map.mp hmem
    have hkey : e'.key = e.key := congrArg (fun x => x.2.2) hsame
    exact hg.keys e' he' k (hkey.trans hk)
  · change ((assignClaimIds a reuse g.edges { claimIds := g.claimIds }).1.map
      EdgeData.address).Nodup
    rw [h.addresses]
    exact hg.addresses
  · exact hg.types

/-- Minted ids that were not seen before, neither on an edge nor in the map. -/
structure FreshMints (mint : Nat → String) (reuse : IdentityMap) (claimIds : List String) :
    Prop where
  distinct : Function.Injective mint
  unused : ∀ n, mint n ∉ claimIds
  unmapped : ∀ n k position, mint n ≠ reusable reuse k position

theorem picks_backfiller {claimIds : List String} (hmint : FreshMints mint reuse claimIds) :
    Picks (backfiller mint) reuse (fun ids minted => ∀ n, minted ≤ n → mint n ∉ ids) := by
  intro k position ids minted c hI hpick
  simp only [backfiller, Bool.true_and] at hpick ⊢
  split_ifs at hpick ⊢ with hgap
  · have hc : mint minted = c := Option.some.inj hpick
    rw [← hc]
    refine ⟨hI minted (Nat.le_refl minted), ?_⟩
    intro n hn hmem
    rcases List.mem_append.mp hmem with hmem | hmem
    · exact hI n (by omega) hmem
    · have hsame := hmint.distinct (List.mem_singleton.mp hmem)
      omega
  · have hc : reusable reuse k position = c := Option.some.inj hpick
    rw [Bool.or_eq_true, not_or] at hgap
    refine ⟨?_, ?_⟩
    · rw [← hc]
      simpa using hgap.2
    · intro n hn hmem
      rcases List.mem_append.mp hmem with hmem | hmem
      · exact hI n hn hmem
      · rw [List.mem_singleton, ← hc] at hmem
        exact hmint.unmapped n k position hmem

theorem picks_annotator (reuse : IdentityMap) : Picks annotator reuse (fun _ _ => True) := by
  intro k position ids minted c _ hpick
  refine ⟨?_, trivial⟩
  simp only [annotator] at hpick
  split_ifs at hpick with hgap
  rw [Bool.or_eq_true, not_or] at hgap
  rw [← Option.some.inj hpick]
  simpa using hgap.2

theorem indexed_backfillMissingClaimIds (hg : Indexed g) (hmint : FreshMints mint reuse g.claimIds) :
    Indexed (g.backfillMissingClaimIds reuse mint).1 := by
  apply indexed_assign hg (picks_backfiller hmint)
  · intro e _ hidless
    simpa [backfiller] using hidless
  · exact fun n _ => hmint.unused n

theorem indexed_annotateClaimIdsFromMap (hg : Indexed g) (reuse : IdentityMap)
    (hempty : "" ∉ g.claimIds) : Indexed (g.annotateClaimIdsFromMap reuse).1 := by
  apply indexed_assign hg (picks_annotator reuse)
  · intro e he hidless
    simp only [annotator, Bool.or_eq_true, decide_eq_true_eq] at hidless
    rcases hidless with hnone | hblank
    · exact hnone
    · exact absurd ((hg.claims "").mpr (mem_presentClaims.mpr ⟨e, he, hblank⟩)) hempty
  · trivial

theorem collectClaimIds_ok (hok : collectClaimIds es ids = .ok ids') (hids : ids.Nodup) :
    ids' = ids ++ presentClaims es ∧ ids'.Nodup := by
  induction es generalizing ids with
  | nil =>
    have hsame : ids = ids' := Except.ok.inj hok
    rw [← hsame]
    exact ⟨by simp [presentClaims], hids⟩
  | cons e es ih =>
    unfold collectClaimIds at hok
    cases hc : e.claimId with
    | none =>
      rw [hc] at hok
      have ⟨hall, hnodup⟩ := ih hok hids
      rw [presentClaims, List.filterMap_cons_none hc]
      exact ⟨hall, hnodup⟩
    | some c =>
      rw [hc] at hok
      simp only at hok
      split_ifs at hok with hduplicate
      have hnext : (ids ++ [c]).Nodup := by
        rw [List.nodup_append]
        refine ⟨hids, List.nodup_singleton c, ?_⟩
        intro x hx y hy hxy
        rw [List.mem_singleton] at hy
        rw [hxy, hy] at hx
        exact hduplicate hx
      have ⟨hall, hnodup⟩ := ih hok hnext
      rw [presentClaims, List.filterMap_cons_some hc]
      refine ⟨?_, hnodup⟩
      rw [hall, List.append_assoc, List.singleton_append]
      rfl

theorem le_largerKey (m : Int) (e : EdgeData) :
    m ≤ largerKey m e ∧ ∀ k, e.key = .int k → k ≤ largerKey m e := by
  unfold largerKey
  cases e.key with
  | int k =>
    simp only
    constructor
    · split_ifs <;> omega
    · intro k' hk'
      have hsame := EdgeKey.int.inj hk'
      split_ifs <;> omega
  | other label => simp

theorem le_foldl_largerKey (es : List EdgeData) (m : Int) :
    m ≤ es.foldl largerKey m ∧ ∀ e ∈ es, ∀ k, e.key = .int k → k ≤ es.foldl largerKey m := by
  induction es generalizing m with
  | nil => simp
  | cons x es ih =>
    have ⟨hge, hall⟩ := ih (largerKey m x)
    have ⟨hm, hx⟩ := le_largerKey m x
    rw [List.foldl_cons]
    constructor
    · omega
    · intro e he k hk
      rcases List.mem_cons.mp he with he | he
      · have hle := hx k (he ▸ hk)
        omega
      · exact hall e he k hk

theorem mem_filed_fileNode {b : String × NodeData} (hb : b.2.entityType ≠ some "") :
    n ∈ filed (fileNode index b) t ↔
      n ∈ filed index t ∨ (b.1 = n ∧ b.2.entityType = some t) := by
  unfold fileNode
  cases ht : b.2.entityType with
  | none => simp
  | some u =>
    have hu : u ≠ "" := fun hu => hb (by rw [ht, hu])
    simp only [if_neg hu, mem_filed_file, Option.some.injEq]
    constructor
    · rintro (h | ⟨h, h'⟩)
      · exact .inl h
      · exact .inr ⟨h'.symm, h.symm⟩
    · rintro (h | ⟨h, h'⟩)
      · exact .inl h
      · exact .inr ⟨h'.symm, h.symm⟩

theorem mem_filed_foldl {bs : List (String × NodeData)} (hbs : ∀ b ∈ bs, b.2.entityType ≠ some "") :
    n ∈ filed (bs.foldl fileNode index) t ↔
      n ∈ filed index t ∨ ∃ d, (n, d) ∈ bs ∧ d.entityType = some t := by
  induction bs generalizing index with
  | nil => simp
  | cons b bs ih =>
    rw [List.foldl_cons, ih (fun x hx => hbs x (List.mem_cons_of_mem b hx)),
      mem_filed_fileNode (hbs b List.mem_cons_self)]
    constructor
    · rintro ((h | ⟨hn, ht⟩) | ⟨d, hd, ht⟩)
      · exact .inl h
      · exact .inr ⟨b.2, by rw [← hn]; exact List.mem_cons_self, ht⟩
      · exact .inr ⟨d, List.mem_cons_of_mem b hd, ht⟩
    · rintro (h | ⟨d, hd, ht⟩)
      · exact .inl (.inl h)
      · rcases List.mem_cons.mp hd with hd | hd
        · rw [← hd]
          exact .inl (.inr ⟨rfl, ht⟩)
        · exact .inr ⟨d, hd, ht⟩

theorem mem_filed_fileNodes {nodes : Dict String NodeData}
    (hnamed : ∀ n d, nodes.get? n = some d → d.entityType ≠ some "") :
    n ∈ filed (fileNodes nodes) t ↔ ∃ d, nodes.get? n = some d ∧ d.entityType = some t := by
  unfold fileNodes
  rw [mem_filed_foldl fun b hb => hnamed b.1 b.2 (Dict.get?_of_mem hb)]
  constructor
  · rintro (h | ⟨d, hd, ht⟩)
    · cases h
    · exact ⟨d, Dict.get?_of_mem hd, ht⟩
  · rintro ⟨d, hd, ht⟩
    exact .inr ⟨d, Dict.mem_of_get? hd, ht⟩

theorem rebuild_ok {nodes : Dict String NodeData} (hok : rebuild nodes es = .ok g) :
    g.nodes = nodes ∧ g.edges = es ∧ g.claimIds = presentClaims es ∧ g.claimIds.Nodup ∧
      g.entitiesByType = fileNodes nodes ∧ g.edgeCounter = maxKey es + 1 := by
  unfold rebuild at hok
  split at hok
  · cases hok
  · rename_i ids hids
    have ⟨hall, hnodup⟩ := collectClaimIds_ok hids List.nodup_nil
    rw [← Except.ok.inj hok]
    exact ⟨rfl, rfl, hall, hnodup, rfl, rfl⟩

theorem edgesIndexed_rebuild {nodes : Dict String NodeData} (hok : rebuild nodes es = .ok g)
    (haddresses : (es.map EdgeData.address).Nodup) : EdgesIndexed g := by
  have ⟨_, hedges, hids, hnodup, _, hcounter⟩ := rebuild_ok hok
  constructor
  · intro c
    rw [hids, hedges]
  · rw [hedges, ← hids]
    exact hnodup
  · intro e he k hk
    rw [hedges] at he
    have hle := (le_foldl_largerKey es (-1)).2 e he k hk
    rw [hcounter, maxKey]
    omega
  · rw [hedges]
    exact haddresses

theorem indexed_fromDict {image : Image} (hok : fromDict image = .ok g)
    (hnamed : ∀ n d, image.nodes.get? n = some d → d.entityType ≠ some "") : Indexed g := by
  refine ⟨edgesIndexed_rebuild hok image.addresses, ?_⟩
  have ⟨hnodes, _, _, _, hindex, _⟩ := rebuild_ok hok
  intro t n
  rw [hindex, hnodes]
  exact mem_filed_fileNodes hnamed

/-- The public operations that change a graph or make one. -/
inductive Operation where
  | clear
  | load (image : Image)
  | addEntity (e : EntityInstance)
  | removeEntity (entityType entityId : String)
  | updateEntityProperties (entityType entityId : String) (updates : Properties)
  | updateEntityMetadata (entityType entityId : String) (updates : EntityMetadata)
  | addRelationship (r : RelationshipInstance)
  | updateRelationshipState (fromType fromId toType toId relationshipType : String)
      (propertyUpdates : Option Properties) (metadata : Option RelationshipMetadata)
      (edgeKey : Option Int)
  | replaceRelationshipState (fromType fromId toType toId relationshipType : String)
      (properties : Properties) (metadata : RelationshipMetadata) (edgeKey : Option Int)
  | removeRelationship (fromType fromId toType toId relationshipType : String)
      (edgeKey : Option Int)
  | backfillMissingClaimIds (reuse : IdentityMap) (mint : Nat → String)
  | annotateClaimIdsFromMap (reuse : IdentityMap)
  | relabelCloneReceipts (origin : String)

/-- An operation that raises leaves the graph as it then is. -/
def Operation.apply (g : EntityGraph) : Operation → EntityGraph
  | .clear => {}
  | .load image =>
      match fromDict image with
      | .ok h => h
      | .error _ => g
  | .addEntity e => g.addEntity e
  | .removeEntity t i => g.removeEntity t i
  | .updateEntityProperties t i updates => g.updateEntityProperties t i updates
  | .updateEntityMetadata t i updates => g.updateEntityMetadata t i updates
  | .addRelationship r =>
      match g.addRelationship r with
      | .ok h => h
      | .error _ => g
  | .updateRelationshipState ft fi tt ti r updates metadata key =>
      g.updateRelationshipState ft fi tt ti r updates metadata key
  | .replaceRelationshipState ft fi tt ti r properties metadata key =>
      g.replaceRelationshipState ft fi tt ti r properties metadata key
  | .removeRelationship ft fi tt ti r key => g.removeRelationship ft fi tt ti r key
  | .backfillMissingClaimIds reuse mint => (g.backfillMissingClaimIds reuse mint).1
  | .annotateClaimIdsFromMap reuse => (g.annotateClaimIdsFromMap reuse).1
  | .relabelCloneReceipts origin => g.relabelCloneReceipts origin

/-- A node is added and removed under the type that it has, an image names the
types of its nodes, minted ids are fresh, and only graphs without an empty claim
id are annotated. -/
def Admissible (g : EntityGraph) : Operation → Prop
  | .load image => ∀ n d, image.nodes.get? n = some d → d.entityType ≠ some ""
  | .addEntity e => SameType g e.entityType e.entityId
  | .removeEntity t i => SameType g t i
  | .backfillMissingClaimIds reuse mint => FreshMints mint reuse g.claimIds
  | .annotateClaimIdsFromMap _ => "" ∉ g.claimIds
  | _ => True

theorem indexed_empty : Indexed {} where
  claims := by simp [presentClaims]
  unique := by simp [presentClaims]
  keys := by simp
  addresses := by simp
  types := by simp [filed]

theorem indexed_apply (hg : Indexed g) {op : Operation} (hop : Admissible g op) :
    Indexed (op.apply g) := by
  cases op with
  | clear => exact indexed_empty
  | load image =>
    simp only [Operation.apply]
    cases hload : fromDict image with
    | ok h => exact indexed_fromDict hload hop
    | error m => exact hg
  | addEntity e => exact indexed_addEntity hg hop
  | removeEntity t i => exact indexed_removeEntity hg hop
  | updateEntityProperties t i updates
  | updateEntityMetadata t i updates => exact indexed_modifyNode hg _ (fun _ => rfl)
  | addRelationship r =>
    simp only [Operation.apply]
    cases hadd : g.addRelationship r with
    | ok h => exact indexed_addRelationship hg hadd
    | error m => exact hg
  | updateRelationshipState ft fi tt ti r updates metadata key
  | replaceRelationshipState ft fi tt ti r properties metadata key =>
    exact indexed_modifyEdge hg ft fi tt ti r key (fun _ => rfl) (fun _ => rfl)
  | removeRelationship ft fi tt ti r key => exact indexed_removeRelationship hg ft fi tt ti r key
  | backfillMissingClaimIds reuse mint => exact indexed_backfillMissingClaimIds hg hop
  | annotateClaimIdsFromMap reuse => exact indexed_annotateClaimIdsFromMap hg reuse hop
  | relabelCloneReceipts origin => exact indexed_relabelCloneReceipts hg origin

/-- Every operation of the run is admissible in the state it is made in. -/
def AdmissibleRun : EntityGraph → List Operation → Prop
  | _, [] => True
  | g, op :: ops => Admissible g op ∧ AdmissibleRun (op.apply g) ops

/-- In every run of admissible operations the indexes of the graph are exact. -/
theorem indexes_exact {ops : List Operation} (h : AdmissibleRun {} ops) :
    Indexed (ops.foldl Operation.apply {}) := by
  have hrun : ∀ (ops : List Operation) (g : EntityGraph), Indexed g → AdmissibleRun g ops →
      Indexed (ops.foldl Operation.apply g) := by
    intro ops
    induction ops with
    | nil => exact fun g hg _ => hg
    | cons op ops ih => exact fun g hg hops => ih _ (indexed_apply hg hops.1) hops.2
  exact hrun ops {} indexed_empty h

/-- Two services and a dependency without a claim id. -/
def legacyImage : Image where
  nodes := Dict.ofList
    [("Service:a", { entityType := some "Service", entityId := some "a" }),
     ("Service:b", { entityType := some "Service", entityId := some "b" })]
  edges := [{ fromNode := "Service:a", toNode := "Service:b", key := .int 3,
              relationshipType := "depends_on" }]
  addresses := by simp
  closed := by decide +kernel

/-- Identifiers that a counter makes: `CLM-`, `CLM-0`, `CLM-00` and so on. -/
def countedId (n : Nat) : String := "CLM-" ++ String.ofList (List.replicate n '0')

theorem countedId_injective : Function.Injective countedId := by
  intro m n h
  have hchars := congrArg (fun s : String => s.toList.length) h
  simpa [countedId] using hchars

/-- A legacy image is loaded, receives its missing id and gains a node and an edge. -/
def legacyRun : List Operation :=
  [.load legacyImage, .backfillMissingClaimIds ∅ countedId,
   .addEntity { entityType := "Service", entityId := "c" },
   .addRelationship { relationshipType := "depends_on", fromType := "Service", fromId := "c",
                      toType := "Service", toId := "a", claimId := some "CLM-X" }]

/-- The run stays exact when an endpoint of the loaded edge is removed. -/
theorem legacy_run_is_indexed :
    Indexed ((legacyRun ++ [Operation.removeEntity "Service" "b"]).foldl Operation.apply {}) := by
  apply indexes_exact
  refine ⟨?_, ?_, ?_, trivial, ?_, trivial⟩
  · have hnamed : ∀ b ∈ legacyImage.nodes.entries, b.2.entityType ≠ some "" := by decide +kernel
    exact fun n d hd => hnamed (n, d) (Dict.mem_of_get? hd)
  · refine ⟨countedId_injective, ?_, ?_⟩
    · intro n
      have hnone : (Operation.apply {} (.load legacyImage)).claimIds = [] := by decide +kernel
      rw [hnone]
      exact List.not_mem_nil
    · intro n k position h
      have hchars := congrArg String.toList h
      simp [countedId, reusable] at hchars
  · intro d hd
    have habsent : (Operation.apply (Operation.apply {} (.load legacyImage))
        (.backfillMissingClaimIds ∅ countedId)).nodes.get? (makeNodeId "Service" "c") = none := by
      decide +kernel
    rw [habsent] at hd
    cases hd
  · intro d hd
    have hpresent : (((legacyRun.foldl Operation.apply {}).nodes.get?
        (makeNodeId "Service" "b")).bind NodeData.entityType) = some "Service" := by
      decide +kernel
    have hd' : (legacyRun.foldl Operation.apply {}).nodes.get? (makeNodeId "Service" "b") =
        some d := hd
    rw [hd', Option.bind_some] at hpresent
    exact hpresent

def collidingRun : List Operation :=
  [.addEntity { entityType := "A:b", entityId := "c" },
   .addEntity { entityType := "A", entityId := "b:c" }]

/-- The types `A` and `A:b` spell one node id for the entities `b:c` and `c`: after
both are added, the index still lists the node under the type that it has lost. -/
theorem colliding_types_break_the_index :
    ¬ ∀ ops : List Operation, Indexed (ops.foldl Operation.apply {}) := by
  intro hall
  have hindexed := hall collidingRun
  have hlisted : "A:b:c" ∈ filed (collidingRun.foldl Operation.apply {}).entitiesByType
      "A:b" := by
    decide +kernel
  have htype : (((collidingRun.foldl Operation.apply {}).nodes.get? "A:b:c").bind
      NodeData.entityType) = some "A" := by
    decide +kernel
  have ⟨d, hd, ht⟩ := (hindexed.types "A:b" "A:b:c").mp hlisted
  rw [hd, Option.bind_some, ht] at htype
  simp at htype

end Cruxible.ClaimIndexes
