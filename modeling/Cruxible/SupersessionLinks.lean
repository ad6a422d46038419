import Cruxible.FreeWrites
import Cruxible.LifecycleVerbs
import Cruxible.PairedLinks
import Cruxible.Runs

/-!
# Supersession links over whole histories

A supersession writes two pointers: the predecessor names its successor, the
successor names its predecessor. Read through the lookups of the graph, the
pointers of claims and of entities are two families of links. A history that
starts empty keeps both families paired and acyclic, provided that claims are
superseded by ids without surrounding white space, since the lookup trims and
the pointer does not, and that no free write sends a typed lifecycle to a
record that holds a pointer, since such a write replaces the slice whole.
-/
namespace Cruxible.SupersessionLinks
open JsonValue PythonDict AssertionState AppendOnly Fallible Cruxible.Graph PropertyValidation
open GraphOperations DirectWrites WorkflowApply FreeWrites LifecycleVerbs PairedLinks Runs

inductive Request where
  | write (env : Environment) (write : FreeWrite)
  | supersedeClaim (w : WriteContext) (claimId successorClaimId : String) (a : Adjudication)
  | retractClaim (w : WriteContext) (claimId : String) (a : Adjudication)
  | supersedeEntity (w : WriteContext)
      (entityType entityId successorEntityType successorEntityId : String) (a : Adjudication)
  | retireEntity (w : WriteContext) (entityType entityId : String) (a : Adjudication)

def perform (g : EntityGraph) : Request → Except CoreError EntityGraph
  | .write env write => write.apply env g
  | .supersedeClaim w c s a => serviceSupersedeClaim w g c s a
  | .retractClaim w c a => serviceRetractClaim w g c a
  | .supersedeEntity w t i t' i' a => serviceSupersedeEntity w g t i t' i' a
  | .retireEntity w t i a => serviceRetireEntity w g t i a

/-- The node that an entity pointer reaches. -/
def pointerNode (p : SupersessionPointer) : Option NodeId :=
  match p.entityType, p.entityId with
  | some t, some i => some (makeNodeId t i)
  | _, _ => none

/-- The slice of the claim that the lookup finds under an id. -/
def claimSlice (g : EntityGraph) (c : String) : Option RelationshipLifecycleState :=
  (g.findRelationshipByClaimId c).map (fun r => r.metadata.assertion.lifecycle)

/-- The slice of the entity that is found under a node id. -/
def entitySlice (g : EntityGraph) (n : NodeId) : Option EntityLifecycleState :=
  (g.nodes.get? n).bind (fun d => d.metadata.lifecycle)

def claimLinks (g : EntityGraph) : Links String where
  succ c := (claimSlice g c).bind (fun l => l.supersededBy.bind SupersessionPointer.claimId)
  pred c := (claimSlice g c).bind (fun l => l.supersedes.bind SupersessionPointer.claimId)

def entityLinks (g : EntityGraph) : Links NodeId where
  succ n := (entitySlice g n).bind (fun l => l.supersededBy.bind pointerNode)
  pred n := (entitySlice g n).bind (fun l => l.supersedes.bind pointerNode)

variable {g : EntityGraph}

theorem claimSlice_eq_find (hg : WellFormed g) (c : String) :
    claimSlice g c = (g.edges.find? (fun e => e.claimId = c)).map EdgeData.lifecycle := by
  unfold claimSlice EntityGraph.findRelationshipByClaimId
  split_ifs with hc
  · rw [Option.map_map]
    rfl
  · have hnone : g.edges.find? (fun e => e.claimId = c) = none := by
      rw [List.find?_eq_none]
      intro e he hec
      exact hc (of_decide_eq_true hec ▸ hg.indexed e he)
    rw [hnone]
    rfl

def holdsPointer {σ : Type} (l : LifecycleState σ) : Prop :=
  l.supersedes ≠ none ∨ l.supersededBy ≠ none

def entityHolds (l : Option EntityLifecycleState) : Prop := ∃ s, l = some s ∧ holdsPointer s

/-- The condition on an accepted request: trimmed claim ids on a supersession,
and no typed lifecycle that carries a pointer or meets a stored one. -/
def KeepsLinks (g : EntityGraph) : Request → Prop
  | .write _ f =>
      (∀ e ∈ f.entities, ∀ l, e.metadata.lifecycle = some l → ¬holdsPointer l ∧
        ∀ d, g.nodes.get? e.nodeId = some d → ¬entityHolds d.metadata.lifecycle) ∧
      (∀ q ∈ f.requests, ∀ l, q.lifecycle = some l → ¬holdsPointer l ∧
        ∀ e, g.findRelationshipEdge q.edge.fromType q.edge.fromId q.edge.toType q.edge.toId
          q.edge.relationshipType = some e → ¬holdsPointer e.lifecycle)
  | .supersedeClaim _ c s _ => strip c = c ∧ strip s = s
  | .retractClaim .. => True
  | .supersedeEntity .. => True
  | .retireEntity .. => True

/-- The invariant of histories: besides the links, a record with a successor is
superseded, so it is never a predecessor again and never a successor. -/
structure Sound (g : EntityGraph) : Prop where
  wellFormed : WellFormed g
  claims : Chains (claimLinks g)
  entities : Chains (entityLinks g)
  claimClosed : ∀ c l, claimSlice g c = some l → l.supersededBy ≠ none → l.status = .superseded
  entityClosed : ∀ n l, entitySlice g n = some l → l.supersededBy ≠ none →
    l.status = .superseded

theorem Sound.empty : Sound {} where
  wellFormed := WellFormed.empty
  claims := Chains.empty
  entities := Chains.empty
  claimClosed := by
    intro c l h
    cases h
  entityClosed := by
    intro n l h
    cases h

section FreeWrites
variable {g h : EntityGraph}

/-- Two slices with the same pointers: equal, or neither holds one. -/
def SamePointers {σ : Type} (a b : Option (LifecycleState σ)) : Prop :=
  a = b ∨ ((∀ l, a = some l → ¬holdsPointer l) ∧ ∀ l, b = some l → ¬holdsPointer l)

theorem bind_eq_of_samePointers {σ α : Type} {a b : Option (LifecycleState σ)}
    (hab : SamePointers a b) (f : SupersessionPointer → Option α) :
    (a.bind (fun l => l.supersededBy.bind f) = b.bind (fun l => l.supersededBy.bind f)) ∧
    (a.bind (fun l => l.supersedes.bind f) = b.bind (fun l => l.supersedes.bind f)) := by
  rcases hab with rfl | ⟨ha, hb⟩
  · exact ⟨rfl, rfl⟩
  · have hnone : ∀ c : Option (LifecycleState σ), (∀ l, c = some l → ¬holdsPointer l) →
        c.bind (fun l => l.supersededBy.bind f) = none ∧
        c.bind (fun l => l.supersedes.bind f) = none := by
      intro c hc
      cases c with
      | none => exact ⟨rfl, rfl⟩
      | some l =>
        have hl := hc l rfl
        simp only [holdsPointer, not_or, not_not] at hl
        simp [hl.1, hl.2]
    rw [(hnone a ha).1, (hnone a ha).2, (hnone b hb).1, (hnone b hb).2]
    exact ⟨rfl, rfl⟩

theorem samePointers_entity (he : Evolves (lifecycleFrame entityHolds holdsPointer) g h)
    (n : NodeId) : SamePointers (entitySlice h n) (entitySlice g n) := by
  unfold entitySlice
  cases hg : g.nodes.get? n with
  | none =>
    right
    refine ⟨?_, by simp⟩
    intro l hl hp
    obtain ⟨d, hd, hdl⟩ := Option.bind_eq_some_iff.mp hl
    exact he.newNodes n d hg hd ⟨l, hdl, hp⟩
  | some d =>
    obtain ⟨d', hd', hkeep, hback⟩ := he.nodes n d hg
    rw [hd']
    by_cases hK : entityHolds d.metadata.lifecycle
    · exact .inl (hkeep hK)
    · right
      refine ⟨?_, ?_⟩
      · intro l hl hp
        exact hK (hback ⟨l, hl, hp⟩)
      · intro l hl hp
        exact hK ⟨l, hl, hp⟩

theorem samePointers_claim (he : Evolves (lifecycleFrame entityHolds holdsPointer) g h)
    (hg : WellFormed g) (c : String) : SamePointers (claimSlice h c) (claimSlice g c) := by
  rw [claimSlice_eq_find hg, claimSlice_eq_find (he.wellFormed hg)]
  have hmatch : ∀ a b, (lifecycleFrame entityHolds holdsPointer).edge a b →
      decide (b.claimId = c) = decide (a.claimId = c) := by
    intro a b hab
    rw [hab.1.1]
  cases hx : g.edges.find? (fun e => e.claimId = c) with
  | some e =>
    obtain ⟨e', he', -, hkeep, hback⟩ := he.edges.find? hmatch hx
    rw [he']
    by_cases hK : holdsPointer e.lifecycle
    · exact .inl (congrArg some (hkeep hK))
    · right
      refine ⟨?_, ?_⟩
      · intro l hl hp
        obtain rfl := Option.some.inj hl
        exact hK (hback hp)
      · intro l hl hp
        obtain rfl := Option.some.inj hl
        exact hK hp
  | none =>
    right
    refine ⟨?_, by simp⟩
    intro l hl hp
    obtain ⟨e', he', rfl⟩ := Option.map_eq_some_iff.mp hl
    rcases he.edges.find?_right hmatch he' with ⟨x, hx', -⟩ | hnew
    · rw [hx] at hx'
      cases hx'
    · exact hnew hp

theorem closed_of_samePointers {σ : Type} {status : σ} {a b : Option (LifecycleState σ)}
    (hab : SamePointers a b) (hb : ∀ l, b = some l → l.supersededBy ≠ none → l.status = status) :
    ∀ l, a = some l → l.supersededBy ≠ none → l.status = status := by
  intro l hl hp
  rcases hab with rfl | ⟨ha, -⟩
  · exact hb l hl hp
  · exact absurd (.inr hp) (ha l hl)

theorem Sound.evolves (hs : Sound g)
    (he : Evolves (lifecycleFrame entityHolds holdsPointer) g h) : Sound h where
  wellFormed := he.wellFormed hs.wellFormed
  claims := by
    have hlinks : claimLinks h = claimLinks g := by
      apply Links.ext
      · funext c
        exact (bind_eq_of_samePointers (samePointers_claim he hs.wellFormed c) _).1
      · funext c
        exact (bind_eq_of_samePointers (samePointers_claim he hs.wellFormed c) _).2
    rw [hlinks]
    exact hs.claims
  entities := by
    have hlinks : entityLinks h = entityLinks g := by
      apply Links.ext
      · funext n
        exact (bind_eq_of_samePointers (samePointers_entity he n) _).1
      · funext n
        exact (bind_eq_of_samePointers (samePointers_entity he n) _).2
    rw [hlinks]
    exact hs.entities
  claimClosed := fun c =>
    closed_of_samePointers (samePointers_claim he hs.wellFormed c) (hs.claimClosed c)
  entityClosed := fun n => closed_of_samePointers (samePointers_entity he n) (hs.entityClosed n)

variable {env : Environment} {f : FreeWrite}

theorem KeepsLinks.respects (hk : KeepsLinks g (.write env f)) :
    Respects entityHolds holdsPointer g f where
  entities := by
    intro e he l hl
    refine ⟨?_, (hk.1 e he l hl).2⟩
    rintro - ⟨s, hs, hp⟩
    obtain rfl := Option.some.inj hs
    exact (hk.1 e he l hl).1 hp
  relationships := by
    intro q hq l hl
    exact ⟨fun _ => (hk.2 q hq l hl).1, (hk.2 q hq l hl).2⟩

theorem sound_write (hs : Sound g) (hk : KeepsLinks g (.write env f)) (hok : f.apply env g = .ok h)
    : Sound h := by
  apply hs.evolves
  apply evolves_freeWrite hok _ _ hk.respects
  · rintro ⟨s, hs, -⟩
    cases hs
  · rintro (hp | hp) <;> exact hp rfl

end FreeWrites

section ClaimVerbs
variable {g h : EntityGraph} {w : WriteContext} {a : Adjudication} {r : RelationshipInstance}

theorem claimSlice_move {l : RelationshipLifecycleState} {source : String}
    {actor : GovernedActorContext} {e : EdgeData} {x : String}
    (hok : applyClaimLifecycle w g r l source actor a = .ok h) (hg : WellFormed g)
    (hx : g.edges.find? (fun y => y.claimId = x) = some e) (hr : Addresses r e) :
    WellFormed h ∧ h.nodes = g.nodes ∧
      (∀ c, c ≠ x → h.edges.find? (fun y => y.claimId = c) =
        g.edges.find? (fun y => y.claimId = c)) ∧
      ∀ c, claimSlice h c = if x = c then some l else claimSlice g c := by
  have hmem := List.mem_of_find?_eq_some hx
  have hclaim : e.claimId = x := by simpa using List.find?_some hx
  obtain ⟨hw, f, hid, hlife, rfl⟩ := applyClaimLifecycle_ok hok hg hmem hr
  rw [hclaim] at hw ⊢
  have hfind := fun c => find?_modifyFirst_key hid x c g.edges
  refine ⟨hw, rfl, ?_, ?_⟩
  · intro c hc
    simp only [hfind, Ne.symm hc, if_false]
  · intro c
    rw [claimSlice_eq_find hw, claimSlice_eq_find hg, hfind]
    split_ifs with hxc
    · subst hxc
      simp [hx, hlife]
    · rfl

theorem eligible_active {u : Unit} (h : requireClaimPredecessorEligible r = .ok u) :
    r.metadata.assertion.lifecycle.status = .active := by
  unfold requireClaimPredecessorEligible at h
  simp only at h
  split_ifs at h with hcond
  simp only [not_or, not_not] at hcond
  exact hcond.1

variable {s c : String}

theorem reused_none {existing : Option SupersessionPointer} {p : String} {u : Unit}
    (h : refuseReusedSuccessor existing s p = .ok u) : existing = none := by
  cases existing with
  | none => rfl
  | some q => cases h

theorem serviceSupersedeClaim_ok (hok : serviceSupersedeClaim w g c s a = .ok h) (hg : WellFormed g) :
    ∃ lp ls lp' ls' : RelationshipLifecycleState,
      strip c ≠ strip s ∧ claimSlice g (strip c) = some lp ∧ claimSlice g (strip s) = some ls ∧
      lp.status = .active ∧ ls.status = .active ∧ ls.supersedes = none ∧
      WellFormed h ∧ h.nodes = g.nodes ∧
      (lp'.supersedes = lp.supersedes ∧ lp'.status = .superseded ∧
        lp'.supersededBy = some { claimId := some s }) ∧
      (ls'.supersededBy = ls.supersededBy ∧ ls'.status = ls.status ∧
        ls'.supersedes = some { claimId := some c }) ∧
      ∀ d, claimSlice h d = if strip c = d then some lp'
        else if strip s = d then some ls' else claimSlice g d := by
  unfold serviceSupersedeClaim at hok
  obtain ⟨⟨actor, reason⟩, -, hok⟩ := bind_eq_ok.mp hok
  obtain ⟨⟨⟩, hself, hok⟩ := bind_eq_ok.mp hok
  obtain ⟨p, hp, hok⟩ := bind_eq_ok.mp hok
  obtain ⟨q, hq, hok⟩ := bind_eq_ok.mp hok
  obtain ⟨⟨⟩, heligible, hok⟩ := bind_eq_ok.mp hok
  obtain ⟨⟨⟩, -, hok⟩ := bind_eq_ok.mp hok
  obtain ⟨⟨⟩, hlive, hok⟩ := bind_eq_ok.mp hok
  obtain ⟨⟨⟩, hreused, hok⟩ := bind_eq_ok.mp hok
  obtain ⟨k, hk, hok⟩ := bind_eq_ok.mp hok
  rw [refuseIf_eq_ok] at hself hlive
  obtain ⟨ep, hep, hpaddr, hpmeta⟩ := getClaim_ok hp
  obtain ⟨eq, heq, hqaddr, hqmeta⟩ := getClaim_ok hq
  have hqactive : q.metadata.assertion.lifecycle.status = .active :=
    relationshipIsLive_status (by simpa using hlive)
  obtain ⟨hkw, hknodes, hkother, hkslice⟩ := claimSlice_move hk hg heq hqaddr
  have hep' : k.edges.find? (fun y => y.claimId = strip c) = some ep := by
    rw [hkother _ hself]
    exact hep
  obtain ⟨hhw, hhnodes, -, hhslice⟩ := claimSlice_move hok hkw hep' hpaddr
  simp only [hkslice] at hhslice
  refine ⟨p.metadata.assertion.lifecycle, q.metadata.assertion.lifecycle, _, _, hself, ?_, ?_,
    eligible_active heligible, hqactive, reused_none hreused, hhw, hhnodes.trans hknodes,
    ?_, ?_, hhslice⟩
  · rw [claimSlice_eq_find hg, hep, hpmeta]
    rfl
  · rw [claimSlice_eq_find hg, heq, hqmeta]
    rfl
  · exact ⟨rfl, rfl, rfl⟩
  · exact ⟨rfl, rfl, rfl⟩

theorem entityLinks_congr (hn : h.nodes = g.nodes) : entityLinks h = entityLinks g := by
  unfold entityLinks entitySlice
  rw [hn]

theorem sound_supersedeClaim (hs : Sound g) (hc : strip c = c) (hs' : strip s = s)
    (hok : serviceSupersedeClaim w g c s a = .ok h) : Sound h := by
  obtain ⟨lp, ls, lp', ls', hne, hp, hq, hpactive, hqactive, hreused, hw, hnodes, hlp, hls,
    hslice⟩ := serviceSupersedeClaim_ok hok hs.wellFormed
  rw [hc, hs'] at hne hslice
  rw [hc] at hp
  rw [hs'] at hq
  have hpopen : lp.supersededBy = none := by
    by_contra hsome
    rw [hs.claimClosed c lp hp hsome] at hpactive
    cases hpactive
  have hqopen : ls.supersededBy = none := by
    by_contra hsome
    rw [hs.claimClosed s ls hq hsome] at hqactive
    cases hqactive
  have hlinks : claimLinks h = (claimLinks g).link c s := by
    apply Links.ext
    · funext d
      simp only [claimLinks, Links.link, hslice, Function.update_apply]
      by_cases hcd : c = d
      · subst hcd
        simp [hlp.2.2]
      · by_cases hsd : s = d
        · subst hsd
          simp [hcd, Ne.symm hcd, hls.1, hq]
        · simp [hcd, Ne.symm hcd, hsd]
    · funext d
      simp only [claimLinks, Links.link, hslice, Function.update_apply]
      by_cases hcd : c = d
      · subst hcd
        simp [hne, hlp.1, hp]
      · by_cases hsd : s = d
        · subst hsd
          simp [hcd, hls.2.2]
        · simp [hcd, hsd, Ne.symm hsd]
  refine ⟨hw, ?_, ?_, ?_, ?_⟩
  · rw [hlinks]
    apply hs.claims.link
    · simp [claimLinks, hp, hpopen]
    · simp [claimLinks, hq, hreused]
    · simp [claimLinks, hq, hqopen]
    · exact hne
  · rw [entityLinks_congr hnodes]
    exact hs.entities
  · intro d l hd hsome
    rw [hslice] at hd
    split_ifs at hd
    · obtain rfl := Option.some.inj hd
      exact hlp.2.1
    · obtain rfl := Option.some.inj hd
      rw [hls.1, hqopen] at hsome
      exact absurd rfl hsome
    · exact hs.claimClosed d l hd hsome
  · intro n l hn
    unfold entitySlice at hn
    rw [hnodes] at hn
    exact hs.entityClosed n l hn

theorem sound_retractClaim (hs : Sound g) (hok : serviceRetractClaim w g c a = .ok h) :
    Sound h := by
  unfold serviceRetractClaim at hok
  obtain ⟨⟨actor, reason⟩, -, hok⟩ := bind_eq_ok.mp hok
  obtain ⟨p, hp, hok⟩ := bind_eq_ok.mp hok
  obtain ⟨⟨⟩, heligible, hok⟩ := bind_eq_ok.mp hok
  obtain ⟨e, he, haddr, hmeta⟩ := getClaim_ok hp
  have hactive := eligible_active heligible
  have hold : claimSlice g (strip c) = some p.metadata.assertion.lifecycle := by
    rw [claimSlice_eq_find hs.wellFormed, he, hmeta]
    rfl
  have hopen : p.metadata.assertion.lifecycle.supersededBy = none := by
    by_contra hsome
    rw [hs.claimClosed _ _ hold hsome] at hactive
    cases hactive
  obtain ⟨hw, hnodes, -, hslice⟩ := claimSlice_move hok hs.wellFormed he haddr
  have hlinks : claimLinks h = claimLinks g := by
    apply Links.ext
    · funext d
      simp only [claimLinks, hslice]
      split_ifs with hcd
      · subst hcd
        simp [hold]
      · rfl
    · funext d
      simp only [claimLinks, hslice]
      split_ifs with hcd
      · subst hcd
        simp [hold]
      · rfl
  refine ⟨hw, ?_, ?_, ?_, ?_⟩
  · rw [hlinks]
    exact hs.claims
  · rw [entityLinks_congr hnodes]
    exact hs.entities
  · intro d l hd hsome
    rw [hslice] at hd
    split_ifs at hd
    · obtain rfl := Option.some.inj hd
      exact absurd hopen hsome
    · exact hs.claimClosed d l hd hsome
  · intro n l hn
    unfold entitySlice at hn
    rw [hnodes] at hn
    exact hs.entityClosed n l hn

end ClaimVerbs

section EntityVerbs
variable {g h : EntityGraph} {w : WriteContext} {a : Adjudication} {d : EntityInstance} {n : NodeId}

theorem entitySlice_move {l : EntityLifecycleState} {source : String} {actor : GovernedActorContext}
    (hok : applyEntityLifecycle w g d l source actor = .ok h) (hg : WellFormed g)
    (hd : g.nodes.get? n = some d) :
    WellFormed h ∧ h.edges = g.edges ∧ h.claimIds = g.claimIds ∧
      (∀ m, m ≠ n → h.nodes.get? m = g.nodes.get? m) ∧
      ∀ m, entitySlice h m = if n = m then some l else entitySlice g m := by
  obtain ⟨d', rfl, hnode, hlife⟩ := applyEntityLifecycle_ok hok hg hd
  refine ⟨hg.setNode hnode, rfl, rfl, ?_, ?_⟩
  · intro m hm
    exact Dict.get?_set_of_ne g.nodes d' (Ne.symm hm)
  · intro m
    simp only [entitySlice, Dict.get?_set]
    split_ifs
    · exact hlife
    · rfl

theorem entity_eligible_live {u : Unit} (h : requireEntityPredecessorEligible d = .ok u) :
    d.metadata.lifecycleStatus = .live := by
  unfold requireEntityPredecessorEligible at h
  split_ifs at h with hlive
  exact not_not.mp hlive

theorem Sound.live_open (hs : Sound g) (hd : g.nodes.get? n = some d)
    (hlive : d.metadata.lifecycleStatus = .live) :
    (EntityInstance.lifecycleOrDefault d).supersededBy = none := by
  unfold EntityInstance.lifecycleOrDefault
  cases hl : d.metadata.lifecycle with
  | none => rfl
  | some l =>
    by_contra hsome
    have hslice : entitySlice g n = some l := by simp [entitySlice, hd, hl]
    have hclosed := hs.entityClosed n l hslice hsome
    simp [EntityMetadata.lifecycleStatus, hl, hclosed] at hlive

theorem entitySlice_bind (hd : g.nodes.get? n = some d) {α : Type}
    (f : SupersessionPointer → Option α) :
    (entitySlice g n).bind (fun l => l.supersededBy.bind f) =
        (EntityInstance.lifecycleOrDefault d).supersededBy.bind f ∧
      (entitySlice g n).bind (fun l => l.supersedes.bind f) =
        (EntityInstance.lifecycleOrDefault d).supersedes.bind f := by
  unfold entitySlice EntityInstance.lifecycleOrDefault
  rw [hd]
  cases hl : d.metadata.lifecycle with
  | none => simp [hl]
  | some l => simp [hl]

theorem claimSlice_congr (he : h.edges = g.edges) (hc : h.claimIds = g.claimIds) :
    claimSlice h = claimSlice g := by
  funext c
  simp only [claimSlice, EntityGraph.findRelationshipByClaimId, he, hc]

theorem claimLinks_congr (he : h.edges = g.edges) (hc : h.claimIds = g.claimIds) :
    claimLinks h = claimLinks g := by
  simp only [claimLinks, claimSlice_congr he hc]

theorem sound_supersedeEntity {t i t' i' : String} (hs : Sound g)
    (hok : serviceSupersedeEntity w g t i t' i' a = .ok h) : Sound h := by
  unfold serviceSupersedeEntity at hok
  obtain ⟨⟨actor, reason⟩, -, hok⟩ := bind_eq_ok.mp hok
  obtain ⟨⟨⟩, hself, hok⟩ := bind_eq_ok.mp hok
  obtain ⟨p, hp, hok⟩ := bind_eq_ok.mp hok
  obtain ⟨q, hq, hok⟩ := bind_eq_ok.mp hok
  obtain ⟨⟨⟩, heligible, hok⟩ := bind_eq_ok.mp hok
  obtain ⟨⟨⟩, htype, hok⟩ := bind_eq_ok.mp hok
  obtain ⟨⟨⟩, hlive, hok⟩ := bind_eq_ok.mp hok
  obtain ⟨⟨⟩, hreused, hok⟩ := bind_eq_ok.mp hok
  obtain ⟨k, hk, hok⟩ := bind_eq_ok.mp hok
  rw [refuseIf_eq_ok] at hself htype hlive
  rw [not_not] at htype
  subst htype
  have hne : makeNodeId t i ≠ makeNodeId t i' := by
    intro hn
    exact hself (by rw [makeNodeId_inj hn])
  have hpnode := getSubject_ok hp
  have hqnode := getSubject_ok hq
  have hpopen := hs.live_open hpnode (entity_eligible_live heligible)
  have hqopen := hs.live_open hqnode (EntityMetadata.isLive_status (by simpa using hlive))
  have hqfirst := reused_none hreused
  obtain ⟨hkw, hkedges, hkids, hkother, hkslice⟩ := entitySlice_move hk hs.wellFormed hqnode
  have hpnode' : k.nodes.get? (makeNodeId t i) = some p := by
    rw [hkother _ hne]
    exact hpnode
  obtain ⟨hw, hedges, hids, -, hslice⟩ := entitySlice_move hok hkw hpnode'
  simp only [hkslice] at hslice
  have hlinks : entityLinks h = (entityLinks g).link (makeNodeId t i) (makeNodeId t i') := by
    apply Links.ext
    · funext m
      simp only [entityLinks, Links.link, hslice, Function.update_apply]
      by_cases hpm : makeNodeId t i = m
      · subst hpm
        simp [pointerNode]
      · by_cases hqm : makeNodeId t i' = m
        · subst hqm
          simp [hne, Ne.symm hne, (entitySlice_bind hqnode pointerNode).1]
        · simp [hpm, Ne.symm hpm, hqm]
    · funext m
      simp only [entityLinks, Links.link, hslice, Function.update_apply]
      by_cases hpm : makeNodeId t i = m
      · subst hpm
        simp [hne, (entitySlice_bind hpnode pointerNode).2]
      · by_cases hqm : makeNodeId t i' = m
        · subst hqm
          simp [hne, pointerNode]
        · simp [hpm, hqm, Ne.symm hqm]
  refine ⟨hw, ?_, ?_, ?_, ?_⟩
  · rw [claimLinks_congr (hedges.trans hkedges) (hids.trans hkids)]
    exact hs.claims
  · rw [hlinks]
    apply hs.entities.link
    · simp [entityLinks, (entitySlice_bind hpnode pointerNode).1, hpopen]
    · simp [entityLinks, (entitySlice_bind hqnode pointerNode).2, hqfirst]
    · simp [entityLinks, (entitySlice_bind hqnode pointerNode).1, hqopen]
    · exact hne
  · intro c l hc
    rw [claimSlice_congr (hedges.trans hkedges) (hids.trans hkids)] at hc
    exact hs.claimClosed c l hc
  · intro m l hm hsome
    rw [hslice] at hm
    split_ifs at hm
    · obtain rfl := Option.some.inj hm
      rfl
    · obtain rfl := Option.some.inj hm
      exact absurd hqopen hsome
    · exact hs.entityClosed m l hm hsome

theorem sound_retireEntity {t i : String} (hs : Sound g)
    (hok : serviceRetireEntity w g t i a = .ok h) : Sound h := by
  unfold serviceRetireEntity at hok
  obtain ⟨⟨actor, reason⟩, -, hok⟩ := bind_eq_ok.mp hok
  obtain ⟨p, hp, hok⟩ := bind_eq_ok.mp hok
  obtain ⟨⟨⟩, heligible, hok⟩ := bind_eq_ok.mp hok
  have hpnode := getSubject_ok hp
  have hopen := hs.live_open hpnode (entity_eligible_live heligible)
  obtain ⟨hw, hedges, hids, -, hslice⟩ := entitySlice_move hok hs.wellFormed hpnode
  have hlinks : entityLinks h = entityLinks g := by
    apply Links.ext
    · funext m
      simp only [entityLinks, hslice]
      split_ifs with hpm
      · subst hpm
        rw [(entitySlice_bind hpnode pointerNode).1]
        rfl
      · rfl
    · funext m
      simp only [entityLinks, hslice]
      split_ifs with hpm
      · subst hpm
        rw [(entitySlice_bind hpnode pointerNode).2]
        rfl
      · rfl
  refine ⟨hw, ?_, ?_, ?_, ?_⟩
  · rw [claimLinks_congr hedges hids]
    exact hs.claims
  · rw [hlinks]
    exact hs.entities
  · intro c l hc
    rw [claimSlice_congr hedges hids] at hc
    exact hs.claimClosed c l hc
  · intro m l hm hsome
    rw [hslice] at hm
    split_ifs at hm
    · obtain rfl := Option.some.inj hm
      exact absurd hopen hsome
    · exact hs.entityClosed m l hm hsome

end EntityVerbs

theorem sound_perform {h : EntityGraph} {r : Request} (hs : Sound g) (hk : KeepsLinks g r)
    (hok : perform g r = .ok h) : Sound h := by
  cases r with
  | write env f => exact sound_write hs hk hok
  | supersedeClaim w c s a => exact sound_supersedeClaim hs hk.1 hk.2 hok
  | retractClaim w c a => exact sound_retractClaim hs hok
  | supersedeEntity w t i t' i' a => exact sound_supersedeEntity hs hok
  | retireEntity w t i a => exact sound_retireEntity hs hok

/-- The pointers are paired and acyclic, and no record has two predecessors. A
record has one successor at most because it holds one pointer. -/
structure Linked {κ : Type} (L : Links κ) : Prop where
  chains : Chains L
  onePredecessor : ∀ a b c, L.succ a = some c → L.succ b = some c → a = b

/-- In every state of a history whose accepted requests meet the condition, the
pointers of claims and of entities are linked. -/
theorem supersession_links_are_chains (history : List Request)
    (h : Throughout perform KeepsLinks {} history) :
    Linked (claimLinks (after perform {} history)) ∧
      Linked (entityLinks (after perform {} history)) := by
  have hsound : Sound (after perform {} history) :=
    after_invariant (C := KeepsLinks) sound_perform Sound.empty h
  constructor
  · exact ⟨hsound.claims, fun _ _ _ => hsound.claims.pred_unique⟩
  · exact ⟨hsound.entities, fun _ _ _ => hsound.entities.pred_unique⟩

def reviewer : Adjudication :=
  { reason := "replaced", actorContext := some
      { actorType := .humanUser, actorId := "ops", orgId := "org", operationId := "op-1",
        timestamp := 0 } }

/-- Three services and two claims from the first to the others. -/
def twoClaims : List Request :=
  [.write plainEnvironment (.addEntities
     [(service "a" none).2, (service "b" none).2, (service "c" none).2]),
   .write plainEnvironment (.addRelationships "cli" "seed"
     [{ edge := dependsOn "a" "b" 1, mintedClaimId := "CLM-1" },
      { edge := dependsOn "a" "c" 1, mintedClaimId := "CLM-2" }])]

def supersession (claimId successorClaimId : String) : Request :=
  .supersedeClaim plainEnvironment.w claimId successorClaimId reviewer

theorem supersession_links_of_trimmed_ids :
    (claimLinks (after perform {} (twoClaims ++ [supersession "CLM-1" "CLM-2"]))).succ "CLM-1" =
      some "CLM-2" ∧
    Linked (claimLinks (after perform {} (twoClaims ++ [supersession "CLM-1" "CLM-2"]))) := by
  constructor
  · decide +kernel
  · apply (supersession_links_are_chains _ _).1
    refine ⟨?_, ?_, ?_, trivial⟩
    · intro t _
      constructor
      · intro e he l hl
        simp only [FreeWrite.entities, List.mem_cons, List.not_mem_nil, or_false] at he
        rcases he with rfl | rfl | rfl <;> cases hl
      · intro q hq
        cases hq
    · intro t _
      constructor
      · intro e he
        cases he
      · intro q hq l hl
        simp only [FreeWrite.requests, List.mem_cons, List.not_mem_nil, or_false] at hq
        rcases hq with rfl | rfl <;> cases hl
    · intro t _
      constructor <;> decide +kernel

/-- A supersession by a padded id. -/
def paddedHistory : List Request := twoClaims ++ [supersession "CLM-1 " "CLM-2"]

/-- A supersession and then a typed `active` on the live successor. -/
def reactivatedHistory : List Request :=
  twoClaims ++ [supersession "CLM-1" "CLM-2",
    .write plainEnvironment (.addRelationships "cli" "edit"
      [{ edge := dependsOn "a" "c" 2, lifecycle := some { status := .active } }])]

/-- The padded id leaves a back pointer that names no claim, and the typed
lifecycle erases the back pointer of the successor. -/
theorem supersession_links_come_apart :
    ¬ (∀ history : List Request, Linked (claimLinks (after perform {} history)) ∧
        Linked (entityLinks (after perform {} history))) ∧
    ((claimLinks (after perform {} paddedHistory)).succ "CLM-1" = some "CLM-2" ∧
      (claimLinks (after perform {} paddedHistory)).pred "CLM-2" = some "CLM-1 ") ∧
    (claimLinks (after perform {} reactivatedHistory)).succ "CLM-1" = some "CLM-2" ∧
      (claimLinks (after perform {} reactivatedHistory)).pred "CLM-2" = none := by
  have hpadded : (claimLinks (after perform {} paddedHistory)).succ "CLM-1" = some "CLM-2" ∧
      (claimLinks (after perform {} paddedHistory)).pred "CLM-2" = some "CLM-1 " := by
    decide +kernel
  refine ⟨?_, hpadded, by decide +kernel⟩
  intro hall
  have hpaired := (hall paddedHistory).1.chains.paired "CLM-1" "CLM-2"
  have hback := hpaired.mp hpadded.1
  rw [hpadded.2] at hback
  exact absurd hback (by decide)

end Cruxible.SupersessionLinks
