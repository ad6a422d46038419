import Cruxible.EdgeChanges
import Cruxible.LifecycleVerbs
import Cruxible.MutationReceipts
import Cruxible.Runs

/-!
# Declared unique keys

A type that declares `unique_by` keeps its records apart by a normalized key of the
named properties. Every entity write goes through one chokepoint, which compares
the key that the record will have with those of the other records of the type. A
record is addressed by its node id, which is the type, a colon and the id, so that
a write is checked as a write of the record's own type only where no two types
spell one node id.
-/
namespace Cruxible.UniqueIdentities
open JsonValue PythonDict AssertionState AppendOnly Fallible Cruxible.Graph PropertyValidation
open GraphOperations GroupDrift DirectWrites FreeWrites WorkflowApply LifecycleVerbs
open EntityChanges EdgeChanges
open MutationReceipts Runs

/-- The properties that `unique_by` names for a type. -/
def uniqueProperties (w : WriteContext) (entityType : String) : List String :=
  match w.config.entityTypes.get? entityType with
  | some schema => schema.uniqueBy.getD []
  | none => []

/-- The complete normalized key of a stored record, if it has one. -/
def storedKey (w : WriteContext) (d : EntityInstance) : Option (List String) :=
  identityKey w (entityPropertiesWithIdentity w d.entityType d.entityId d.properties)
    (uniqueProperties w d.entityType)

/-- Two records of one type have the same complete key. -/
structure SharesKey (w : WriteContext) (d d' : EntityInstance) : Prop where
  sameType : d.entityType = d'.entityType
  distinct : d.entityId ≠ d'.entityId
  complete : (storedKey w d).isSome = true
  sameKey : storedKey w d = storedKey w d'

instance (w : WriteContext) (d d' : EntityInstance) : Decidable (SharesKey w d d') :=
  decidable_of_iff (d.entityType = d'.entityType ∧ d.entityId ≠ d'.entityId ∧
      (storedKey w d).isSome = true ∧ storedKey w d = storedKey w d')
    ⟨fun ⟨a, b, c, e⟩ => ⟨a, b, c, e⟩, fun ⟨a, b, c, e⟩ => ⟨a, b, c, e⟩⟩

/-- No two records of a type share a complete key. -/
def UniqueBy (w : WriteContext) (g : EntityGraph) : Prop :=
  ∀ p ∈ g.nodes.entries, ∀ q ∈ g.nodes.entries, ¬ SharesKey w p.2 q.2

instance (w : WriteContext) (g : EntityGraph) : Decidable (UniqueBy w g) :=
  inferInstanceAs (Decidable (∀ p ∈ g.nodes.entries, ∀ q ∈ g.nodes.entries, ¬ SharesKey w p.2 q.2))

/-- `materialize_auth_managed_entities`, for the entities that a credential asks
for. -/
def materializeAuthManagedEntities (w : WriteContext) (g : EntityGraph)
    (entities : List EntityInstance) : Except CoreError EntityGraph :=
  entities.foldlM (fun g e => do
    let v ← validateEntity w g e.entityType e.entityId e.properties e.metadata
    let (h, _) ← applyEntity w g v tokenMintSource false
    return h) g

/-- The writes that reach the entity chokepoint, with the guards that they run
under. -/
inductive EntityWrite where
  | addEntities (guards : Guards) (entities : List EntityInstance)
  | batchDirectWrite (guards : Guards) (source sourceRef : String)
      (entities : List EntityInstance) (requests : List RelationshipRequest) (call : Call)
  | applyEntities (guards : WorkflowGuards) (stepId : String) (call : Call) (set : EntitySet)
  | materialize (entities : List EntityInstance)
  | lifecycle (entity : EntityInstance) (state : EntityLifecycleState) (source : String)
      (actor : GovernedActorContext)

namespace EntityWrite

/-- The graph that an accepted write persists. -/
def apply (w : WriteContext) (g : EntityGraph) : EntityWrite → Except CoreError EntityGraph
  | .addEntities guards entities => do
      let b ← serviceAddEntities w guards g entities
      return b.graph
  | .batchDirectWrite guards source sourceRef entities requests call => do
      let (_, s) ← serviceBatchDirectWrite w guards g source sourceRef entities requests call
      return s.graph
  | .applyEntities guards stepId call set => do
      let (h, _) ← applyEntitySet w guards stepId call g set
      return h
  | .materialize entities => materializeAuthManagedEntities w g entities
  | .lifecycle entity state source actor => applyEntityLifecycle w g entity state source actor

def entities : EntityWrite → List EntityInstance
  | .addEntities _ entities => entities
  | .batchDirectWrite _ _ _ entities _ _ => entities
  | .applyEntities _ _ _ set => set.entities
  | .materialize entities => entities
  | .lifecycle entity _ _ _ => [entity]

end EntityWrite

/-- No member addresses a record under another type than the record's own, and no
two members address one node under different types. -/
structure Unambiguous (g : EntityGraph) (entities : List EntityInstance) : Prop where
  stored : ∀ e ∈ entities, ∀ d ∈ g.nodes.get? e.nodeId, d.entityType = e.entityType
  members : ∀ e ∈ entities, ∀ e' ∈ entities, e.nodeId = e'.nodeId → e.entityType = e'.entityType

instance (g : EntityGraph) (entities : List EntityInstance) :
    Decidable (Unambiguous g entities) :=
  decidable_of_iff ((∀ e ∈ entities, ∀ d ∈ g.nodes.get? e.nodeId, d.entityType = e.entityType) ∧
      ∀ e ∈ entities, ∀ e' ∈ entities, e.nodeId = e'.nodeId → e.entityType = e'.entityType)
    ⟨fun ⟨a, b⟩ => ⟨a, b⟩, fun ⟨a, b⟩ => ⟨a, b⟩⟩

section Keys
variable {w : WriteContext} {g : EntityGraph} {d e : EntityInstance} {v : ValidatedEntity}
  {warning : Option EntityIdentityWarning}

theorem SharesKey.symm {d' : EntityInstance} (h : SharesKey w d d') : SharesKey w d' d where
  sameType := h.sameType.symm
  distinct := h.distinct.symm
  complete := h.sameKey ▸ h.complete
  sameKey := h.sameKey.symm

theorem uniqueBy_iff : UniqueBy w g ↔
    ∀ n d n' d', g.nodes.get? n = some d → g.nodes.get? n' = some d' → ¬ SharesKey w d d' := by
  constructor
  · intro h n d n' d' hd hd'
    exact h (n, d) (Dict.mem_of_get? hd) (n', d') (Dict.mem_of_get? hd')
  · intro h p hp q hq
    exact h p.1 p.2 q.1 q.2 (Dict.get?_of_mem hp) (Dict.get?_of_mem hq)

variable {p q : Properties} {isUpdate : Bool}

theorem identityKey_congr (h : ∀ r, p.get? r = q.get? r) (names : List String) :
    identityKey w p names = identityKey w q names := by
  unfold identityKey
  simp only [h]

theorem withIdentity_congr (h : ∀ r, p.get? r = q.get? r) (t i r : String) :
    (entityPropertiesWithIdentity w t i p).get? r =
      (entityPropertiesWithIdentity w t i q).get? r := by
  unfold entityPropertiesWithIdentity
  split
  · rename_i pk _
    have hcontains : p.contains pk = q.contains pk := by simp only [Dict.contains, h]
    rw [hcontains]
    split_ifs
    · exact h r
    · simp only [Dict.get?_set, h]
  · exact h r

theorem storedKey_created (e : EntityInstance) :
    storedKey w e = identityKey w (candidateProperties w g e false)
      (uniqueProperties w e.entityType) := by
  have hcandidate : candidateProperties w g e false =
      entityPropertiesWithIdentity w e.entityType e.entityId
        ((∅ : Properties).update e.properties) := rfl
  rw [storedKey, hcandidate]
  apply identityKey_congr
  apply withIdentity_congr
  intro r
  rw [Dict.get?_update]
  cases e.properties.get? r <;> rfl

theorem storedKey_updated (hd : g.getEntity e.entityType e.entityId = some d)
    (ht : d.entityType = e.entityType) (hi : d.entityId = e.entityId) :
    storedKey w (overwrite d e) = identityKey w (candidateProperties w g e true)
      (uniqueProperties w e.entityType) := by
  have hcandidate : candidateProperties w g e true =
      entityPropertiesWithIdentity w e.entityType e.entityId
        (d.properties.update e.properties) := by
    simp only [candidateProperties, hd]
  rw [hcandidate, ← ht, ← hi]
  rfl

theorem matching_none {names : List String} {key : List String}
    (h : matchingExistingEntity w g e names isUpdate = none)
    (hkey : identityKey w (candidateProperties w g e isUpdate) names = some key) {n : NodeId}
    (hd : g.nodes.get? n = some d) (ht : d.entityType = e.entityType) (hi : d.entityId ≠ e.entityId) :
    identityKey w (entityPropertiesWithIdentity w d.entityType d.entityId d.properties) names ≠
      some key := by
  unfold matchingExistingEntity at h
  rw [hkey] at h
  have hmem : d ∈ ((g.nodes.entries.map Prod.snd).filter
      (fun d => d.entityType = e.entityType)).insertionSort
      (fun a b => a.entityId ≤ b.entityId) := by
    rw [List.mem_insertionSort]
    have hentry : d ∈ g.nodes.entries.map Prod.snd :=
      List.mem_map.mpr ⟨(n, d), Dict.mem_of_get? hd, rfl⟩
    exact List.mem_filter.mpr ⟨hentry, by simpa using ht⟩
  have hnone := List.find?_eq_none.mp h d hmem
  intro heq
  exact hnone (by simpa using ⟨hi, heq⟩)

theorem applyEntity_checked {h : EntityGraph} {source : String} {trusted : Bool}
    (hok : applyEntity w g v source trusted = .ok (h, warning)) :
    ∃ warning', checkDeclaredEntityIdentity w g v.entity v.isUpdate = .ok warning' := by
  unfold applyEntity at hok
  have ⟨_, _, hok⟩ := bind_eq_ok.mp hok
  have ⟨_, _, hok⟩ := bind_eq_ok.mp hok
  have ⟨_, _, hok⟩ := bind_eq_ok.mp hok
  have ⟨c, hc, _⟩ := bind_eq_ok.mp hok
  exact ⟨c, hc⟩

theorem check_matching (hok : checkDeclaredEntityIdentity w g e isUpdate = .ok warning)
    (hnames : uniqueProperties w e.entityType ≠ []) :
    isUpdate = true ∧ updateChangesUniqueKey w g e (uniqueProperties w e.entityType) = false ∨
      matchingExistingEntity w g e (uniqueProperties w e.entityType) isUpdate = none := by
  unfold checkDeclaredEntityIdentity at hok
  unfold uniqueProperties at hnames ⊢
  cases hschema : w.config.entityTypes.get? e.entityType with
  | none => simp [hschema] at hnames
  | some schema =>
    simp only [hschema] at hok hnames ⊢
    cases hunique : schema.uniqueBy with
    | none => simp [hunique] at hnames
    | some names =>
      simp only [hunique, Option.getD_some] at hok hnames ⊢
      split at hok
      · cases hok
      · by_cases hkept : isUpdate = true ∧ updateChangesUniqueKey w g e names = false
        · exact .inl hkept
        · have hchecked : isUpdate = false ∨ updateChangesUniqueKey w g e names = true := by
            cases isUpdate with
            | false => exact .inl rfl
            | true =>
              right
              rw [← Bool.not_eq_false]
              exact fun hfalse => hkept ⟨rfl, hfalse⟩
          rw [if_pos ⟨hnames, hchecked⟩] at hok
          cases hmatching : matchingExistingEntity w g e names isUpdate with
          | none => exact .inr rfl
          | some d =>
            rw [hmatching] at hok
            cases hok

/-- What an entity write keeps: `es` are the members that are still to be written. -/
structure Sound (w : WriteContext) (es : List EntityInstance) (g : EntityGraph) : Prop where
  wellFormed : WellFormed g
  unique : UniqueBy w g
  addressed : ∀ e ∈ es, ∀ d ∈ g.nodes.get? e.nodeId, d.entityType = e.entityType

theorem written_identity (hg : WellFormed g)
    (hown : ∀ d ∈ g.nodes.get? v.entity.nodeId, d.entityType = v.entity.entityType) :
    (writtenRecord (g.nodes.get? v.entity.nodeId) v).entityType = v.entity.entityType ∧
      (writtenRecord (g.nodes.get? v.entity.nodeId) v).entityId = v.entity.entityId := by
  cases hd : g.nodes.get? v.entity.nodeId with
  | none => exact ⟨rfl, rfl⟩
  | some d =>
    have htype := hown d hd
    have hnode := hg.keyed _ d hd
    rw [EntityInstance.nodeId, EntityInstance.nodeId, htype] at hnode
    exact ⟨htype, makeNodeId_inj hnode⟩

theorem storedKey_written (hg : WellFormed g)
    (hown : ∀ d ∈ g.nodes.get? v.entity.nodeId, d.entityType = v.entity.entityType)
    (hupdate : v.isUpdate = (g.nodes.get? v.entity.nodeId).isSome) :
    storedKey w (writtenRecord (g.nodes.get? v.entity.nodeId) v) =
      identityKey w (candidateProperties w g v.entity v.isUpdate)
        (uniqueProperties w v.entity.entityType) := by
  have ⟨ht, hi⟩ := written_identity hg hown
  cases hd : g.nodes.get? v.entity.nodeId with
  | none =>
    rw [hd, Option.isSome_none] at hupdate
    rw [hupdate]
    exact storedKey_created v.entity
  | some d =>
    rw [hd] at ht hi hupdate
    rw [Option.isSome_some] at hupdate
    rw [hupdate]
    exact storedKey_updated hd ht hi

theorem storedKey_kept (hd : g.getEntity e.entityType e.entityId = some d)
    (ht : d.entityType = e.entityType) (hi : d.entityId = e.entityId)
    (hkept : updateChangesUniqueKey w g e (uniqueProperties w e.entityType) = false) :
    storedKey w d = identityKey w (candidateProperties w g e true)
      (uniqueProperties w e.entityType) := by
  unfold updateChangesUniqueKey at hkept
  simp only [hd, decide_eq_false_iff_not, not_not] at hkept
  rw [storedKey, ht, hi]
  exact hkept

variable (hg : WellFormed g) (hu : UniqueBy w g)
    (hown : ∀ d ∈ g.nodes.get? v.entity.nodeId, d.entityType = v.entity.entityType)
    (hupdate : v.isUpdate = (g.nodes.get? v.entity.nodeId).isSome)
    (hok : checkDeclaredEntityIdentity w g v.entity v.isUpdate = .ok warning)

include hg hu hown hupdate hok

theorem written_fresh {n : NodeId} (hd : g.nodes.get? n = some d) :
    ¬ SharesKey w (writtenRecord (g.nodes.get? v.entity.nodeId) v) d := by
  intro hshares
  have ⟨ht, hi⟩ := written_identity hg hown
  have hcandidate := storedKey_written (w := w) hg hown hupdate
  have ⟨key, hkey⟩ := Option.isSome_iff_exists.mp hshares.complete
  have hnames : uniqueProperties w v.entity.entityType ≠ [] := by
    intro hnil
    rw [hkey, hnil] at hcandidate
    simp [identityKey] at hcandidate
  have htype : d.entityType = v.entity.entityType := hshares.sameType.symm.trans ht
  rcases check_matching hok hnames with ⟨htrue, hkept⟩ | hmatching
  case inl =>
    rw [htrue] at hupdate hcandidate
    have ⟨p, hp⟩ := Option.isSome_iff_exists.mp hupdate.symm
    rw [hp] at ht hi
    have hsame := storedKey_kept hp ht hi hkept
    rw [← hcandidate] at hsame
    have hold : SharesKey w p d := by
      constructor
      case sameType => exact ht.trans htype.symm
      case distinct =>
        have hdistinct := hshares.distinct
        rw [hp] at hdistinct
        exact hdistinct
      case complete => exact hsame ▸ hshares.complete
      case sameKey => exact hsame.trans hshares.sameKey
    exact uniqueBy_iff.mp hu _ _ _ _ hp hd hold
  case inr =>
    have hdistinct : d.entityId ≠ v.entity.entityId := fun heq => hshares.distinct (hi.trans heq.symm)
    have hother := matching_none hmatching (hcandidate.symm.trans hkey) hd htype hdistinct
    have hsame := hshares.sameKey.symm.trans hkey
    rw [storedKey] at hsame
    rw [← htype] at hother
    exact hother hsame

theorem uniqueBy_writeEntity : UniqueBy w (writeEntity g v) := by
  have hfresh := fun {n : NodeId} {d : EntityInstance} (hd : g.nodes.get? n = some d) =>
    written_fresh hg hu hown hupdate hok hd
  have hself := writeEntity_self hupdate
  rw [uniqueBy_iff]
  intro n d n' d' hd hd'
  by_cases hn : v.entity.nodeId = n
  · rw [← hn, hself] at hd
    rw [← Option.some.inj hd]
    by_cases hn' : v.entity.nodeId = n'
    · rw [← hn', hself] at hd'
      rw [← Option.some.inj hd']
      exact fun hshares => hshares.distinct rfl
    · rw [writeEntity_of_ne hn'] at hd'
      exact hfresh hd'
  · rw [writeEntity_of_ne hn] at hd
    by_cases hn' : v.entity.nodeId = n'
    · rw [← hn', hself] at hd'
      rw [← Option.some.inj hd']
      exact fun hshares => hfresh hd hshares.symm
    · rw [writeEntity_of_ne hn'] at hd'
      exact uniqueBy_iff.mp hu _ _ _ _ hd hd'

end Keys

section Batches
variable {w : WriteContext} {g k : EntityGraph} {es : List EntityInstance} {e : EntityInstance}
  {source sourceRef : String} {v : ValidatedEntity} {b : EntityBatch} {h : EntityGraph} {c : Call}
  {t : Applied} {guards : Guards} {warning : Option EntityIdentityWarning}
  {reference : EntityBatch → EntityGraph} {requests : List RelationshipRequest} {k' : EntityGraph}
  {trusted : Bool} {eb : EntityBatch}

theorem Sound.write (h : Sound w es k) (hes : Unambiguous g es) (he : e ∈ es)
    (ht : v.entity.entityType = e.entityType) (hnode : v.entity.nodeId = e.nodeId)
    (hupdate : v.isUpdate = (k.nodes.get? e.nodeId).isSome)
    (hok : applyEntity w k v source trusted = .ok (k', warning)) : Sound w es k' := by
  have ⟨warning', hchecked⟩ := applyEntity_checked hok
  have hown : ∀ d ∈ k.nodes.get? v.entity.nodeId, d.entityType = v.entity.entityType := by
    rw [hnode, ht]
    exact h.addressed e he
  rw [← hnode] at hupdate
  rw [(applyEntity_ok hok).1]
  constructor
  case wellFormed => exact writeEntity_wellFormed h.wellFormed v
  case unique => exact uniqueBy_writeEntity h.wellFormed h.unique hown hupdate hchecked
  case addressed =>
    intro e' he' d hd
    by_cases hn : v.entity.nodeId = e'.nodeId
    · rw [← hn, writeEntity_self hupdate] at hd
      rw [← Option.some.inj hd, (written_identity h.wellFormed hown).1, ht]
      exact hes.members e he e' he' (hnode.symm.trans hn)
    · rw [writeEntity_of_ne hn] at hd
      exact h.addressed e' he' d hd

theorem writeEntity_present (hupdate : v.isUpdate = (k.nodes.get? v.entity.nodeId).isSome)
    (n : NodeId) :
    ((writeEntity k v).nodes.get? n).isSome = true ↔
      (k.nodes.get? n).isSome = true ∨ v.entity.nodeId = n := by
  by_cases hn : v.entity.nodeId = n
  · rw [← hn, writeEntity_self hupdate]
    simp
  · rw [writeEntity_of_ne hn]
    simp [hn]

/-- The entity loop: what is sound, and which nodes have been added. -/
structure Added (w : WriteContext) (g : EntityGraph) (es : List EntityInstance) (b : EntityBatch) :
    Prop where
  sound : Sound w es b.graph
  nodes : ∀ n, (b.graph.nodes.get? n).isSome = true ↔
    (g.nodes.get? n).isSome = true ∨ ∃ s ∈ b.seen, makeNodeId s.1 s.2 = n
  seen : ∀ s ∈ b.seen, ∃ e ∈ es, (e.entityType, e.entityId) = s

/-- A member that was not seen is present now if it was present before. -/
theorem Added.absent (h : Added w g es b) (hes : Unambiguous g es) (he : e ∈ es)
    (hseen : (e.entityType, e.entityId) ∉ b.seen) :
    (b.graph.nodes.get? e.nodeId).isSome = (g.nodes.get? e.nodeId).isSome := by
  rw [Bool.eq_iff_iff, h.nodes]
  constructor
  · rintro (hpresent | ⟨s, hs, hnode⟩)
    · exact hpresent
    · have ⟨e', he', heq⟩ := h.seen s hs
      have hsame : e'.nodeId = e.nodeId := by
        rw [← hnode, ← heq]
        rfl
      have htype := hes.members e' he' e he hsame
      rw [EntityInstance.nodeId, EntityInstance.nodeId, htype] at hsame
      rw [← makeNodeId_inj hsame, ← htype, heq] at hseen
      exact absurd hs hseen
  · exact .inl

theorem Added.member {b' : EntityBatch} {i : Nat} (h : Added w g es b) (hes : Unambiguous g es)
    (he : e ∈ es) (hreference : (e.entityType, e.entityId) ∉ b.seen →
      ((reference b).nodes.get? e.nodeId).isSome = (b.graph.nodes.get? e.nodeId).isSome)
    (hok : addEntityMember w source reference b (i, e) = .ok b') : Added w g es b' := by
  have hsame : ∀ errors, Added w g es { b with errors := errors } :=
    fun errors => ⟨h.sound, h.nodes, h.seen⟩
  rcases addEntityMember_cases hok with ⟨error, rfl⟩ | ⟨hseen, v, k', warning, hv, hk, rfl⟩
  · exact hsame _
  · have ⟨hnode, _, hupdate⟩ := validateEntity_ok hv
    have ⟨ht, _⟩ := validateEntity_spelling hv
    have hnode' : v.entity.nodeId = e.nodeId := hnode
    have hupdate' : v.isUpdate = (b.graph.nodes.get? e.nodeId).isSome :=
      hupdate.trans (hreference hseen)
    constructor
    case sound => exact h.sound.write hes he ht hnode' hupdate' hk
    case nodes =>
      intro n
      rw [(applyEntity_ok hk).1, writeEntity_present (hnode' ▸ hupdate'), h.nodes]
      simp only [List.mem_cons, exists_eq_or_imp, hnode']
      rw [or_assoc]
      exact or_congr_right or_comm
    case seen =>
      intro s hs
      rcases List.mem_cons.mp hs with rfl | hs
      · exact ⟨e, he, rfl⟩
      · exact h.seen s hs

theorem Added.members (hg : Sound w es g) (hes : Unambiguous g es)
    (hreference : ∀ b : EntityBatch, reference b = g ∨ reference b = b.graph)
    (hok : (es.zipIdx 1).foldlM (fun b p => addEntityMember w source reference b (p.2, p.1))
      { graph := g } = .ok b) : Added w g es b := by
  apply foldlM_invariant (Added w g es) _ _ hok
  · exact ⟨hg, by simp, by simp⟩
  · intro p hp b b' hb hstep
    have hmem : p.1 ∈ es := (List.mem_zipIdx hp).2.2 ▸ List.getElem_mem _
    apply hb.member hes hmem _ hstep
    intro hseen
    rcases hreference b with hfixed | hcurrent
    · rw [hfixed]
      exact (hb.absent hes hmem hseen).symm
    · rw [hcurrent]

theorem validateRelationship_endpoints {ft fi r tt ti : String} {p : Properties}
    {hint : Option String} {v : ValidatedRelationship}
    (h : validateRelationship w g ft fi r tt ti p hint = .ok v) :
    g.hasEntity ft fi = true ∧ g.hasEntity tt ti = true := by
  unfold validateRelationship at h
  simp only at h
  split at h
  · cases h
  · split_ifs at h with _ _ hfrom hto
    rw [Bool.not_eq_false] at hfrom hto
    exact ⟨hfrom, hto⟩

theorem ensureNode_present {t i : String} (h : g.hasEntity t i = true) : g.ensureNode t i = g := by
  have ⟨d, hd⟩ := Option.isSome_iff_exists.mp h
  have hget : g.nodes.get? (makeNodeId t i) = some d := hd
  simp only [EntityGraph.ensureNode, hget]

theorem applyRelationship_nodes {v : ValidatedRelationship} {a : RelationshipWrite}
    {d : RelationshipInstance} (hok : applyRelationship w g v a = .ok (h, d))
    (hfrom : g.hasEntity v.relationship.fromType v.relationship.fromId = true)
    (hto : g.hasEntity v.relationship.toType v.relationship.toId = true) : h.nodes = g.nodes := by
  unfold applyRelationship at hok
  have ⟨_, _, hok⟩ := bind_eq_ok.mp hok
  have ⟨_, _, hok⟩ := bind_eq_ok.mp hok
  split_ifs at hok
  · rw [(updateRelationship_ok hok).1]
    rfl
  · have ⟨_, _, m, hm, hnodes, _⟩ := createRelationship_ok hok
    rw [ensureNode_present hfrom, ensureNode_present hto] at hm
    rw [hnodes, hm]

theorem stampGroupApprovalDrift_nodes {r : RelationshipInstance} {drift : Option GroupContentDrift}
    {receiptId : Option String} {actor : Option GovernedActorContext} {now : Timestamp} :
    (stampGroupApprovalDrift g r drift receiptId actor now).nodes = g.nodes := by
  unfold stampGroupApprovalDrift
  split
  · rfl
  · split
    · rfl
    · split <;> rfl

theorem applyAllPrepared_nodes {ms : List (PreparedRelationship × Option GroupContentDrift)}
    (hok : applyAllPrepared w source sourceRef c g ms = .ok t) (hms : ∀ m ∈ ms, Validated w g m.1) :
    t.graph.nodes = g.nodes := by
  unfold applyAllPrepared at hok
  apply foldlM_invariant (fun s : Applied => s.graph.nodes = g.nodes) rfl _ hok
  intro m hm s t hs hstep
  have hvalidated := hms m hm
  have ⟨hint, v, hv, hval⟩ := hvalidated
  have ⟨hft, hfi, htt, hti, _⟩ := hvalidated.fields
  have ⟨hfrom, hto⟩ := validateRelationship_endpoints hv
  unfold applyPrepared at hstep
  have ⟨⟨k, durable⟩, hk, hstep⟩ := bind_eq_ok.mp hstep
  rw [pure_eq_ok] at hstep
  have hhas : ∀ t i, s.graph.hasEntity t i = g.hasEntity t i := by
    intro t i
    simp only [EntityGraph.hasEntity, EntityGraph.getEntity, hs]
  have hnodes : k.nodes = s.graph.nodes := by
    apply applyRelationship_nodes hk
    · rw [hhas, hft, hfi]
      exact hfrom
    · rw [hhas, htt, hti]
      exact hto
  rw [← hstep]
  exact (stampGroupApprovalDrift_nodes.trans hnodes).trans hs

theorem Sound.of_nodes (h : Sound w es k) (hnodes : k'.nodes = k.nodes) (hwell : WellFormed k') :
    Sound w es k' where
  wellFormed := hwell
  unique := by
    unfold UniqueBy
    rw [hnodes]
    exact h.unique
  addressed := by
    rw [hnodes]
    exact h.addressed

theorem sound_addEntities (hg : Sound w es g) (hes : Unambiguous g es)
    (hok : serviceAddEntities w guards g es = .ok b) : Sound w es b.graph := by
  have ⟨hfold, _⟩ := addEntities_accepted hok
  exact (Added.members hg hes (fun _ => .inl rfl) hfold).sound

theorem batchDirectWrite_ok
    (hok : serviceBatchDirectWrite w guards g source sourceRef es requests c = .ok (eb, t)) :
    (es.zipIdx 1).foldlM (fun b p => addEntityMember w source EntityBatch.graph b (p.2, p.1))
      { graph := g } = .ok eb ∧ eb.errors = [] ∧ t.graph.nodes = eb.graph.nodes ∧
    ∃ proposed : EntityGraph, proposed.nodes = eb.graph.nodes ∧
      guards.entity g proposed eb.validated = [] := by
  have ⟨rb, proposed, drifts, happlied, haccepted⟩ := batch_accepted hok
  have ⟨_, ⟨ps, hps, _, hvalidated⟩, _⟩ :=
    prepareMembers_ok haccepted.prepared haccepted.relationshipErrors
  rw [List.nil_append] at hps
  have hnodes : t.graph.nodes = eb.graph.nodes := by
    apply applyAllPrepared_nodes happlied
    rintro ⟨p, drift⟩ hm
    exact hvalidated p (hps ▸ (List.of_mem_zip hm).1)
  have hproposedNodes : proposed.graph.nodes = eb.graph.nodes := by
    apply applyAllPrepared_nodes haccepted.proposes
    intro m hm
    have ⟨p, hp, hpm⟩ := List.mem_map.mp hm
    rw [← hpm]
    exact hvalidated p (hps ▸ hp)
  exact ⟨haccepted.folded, haccepted.entityErrors, hnodes, proposed.graph, hproposedNodes,
    haccepted.guarded⟩

theorem sound_batchDirectWrite (hg : Sound w es g) (hes : Unambiguous g es)
    (hok : serviceBatchDirectWrite w guards g source sourceRef es requests c = .ok (eb, t)) :
    Sound w es t.graph := by
  have hevolves : Evolves (lifecycleFrame (fun _ => False) (fun _ => False)) g t.graph :=
    evolves_serviceBatchDirectWrite hok id id (fun _ _ _ _ => ⟨fun _ => id, fun _ _ => id⟩)
      (fun _ _ _ _ => ⟨fun _ => id, fun _ _ => id⟩)
  have ⟨hfold, _, hnodes, _⟩ := batchDirectWrite_ok hok
  have hentities := (Added.members hg hes (fun _ => .inr rfl) hfold).sound
  exact hentities.of_nodes hnodes (hevolves.wellFormed hg.wellFormed)

theorem sound_applyEntities {guards : WorkflowGuards} {stepId : String} {set : EntitySet}
    {preview : ApplyEntitiesPreview} (hg : Sound w set.entities g)
    (hes : Unambiguous g set.entities)
    (hok : applyEntitySet w guards stepId c g set = .ok (h, preview)) : Sound w set.entities h := by
  have ⟨validated, hgather, _, hfold⟩ := applyEntitySet_accepted hok
  apply foldlM_invariant (fun s : EntityGraph × Counts => Sound w set.entities s.1) hg _ hfold
  intro v hv s t hs hstep
  have ⟨e, he, hvalidate⟩ := gather_ok hgather v hv
  have ⟨ht, hi⟩ := validateEntity_spelling hvalidate
  have htype : v.entity.entityType = e.entityType := ht.trans (set.member_type e he).symm
  have hnode : v.entity.nodeId = e.nodeId := by
    rw [EntityInstance.nodeId, EntityInstance.nodeId, htype, hi]
  unfold applyEntityMember at hstep
  simp only at hstep
  split at hstep
  · rename_i existing hexisting
    split_ifs at hstep
    · have ⟨⟨k, warning⟩, hk, hstep⟩ := bind_eq_ok.mp hstep
      rw [pure_eq_ok] at hstep
      have hpresent : (s.1.nodes.get? e.nodeId).isSome = true := by
        rw [← hnode]
        exact Option.isSome_iff_exists.mpr ⟨existing, hexisting⟩
      have hwritten : Sound w set.entities k := by
        refine Sound.write hs hes he ?_ ?_ ?_ hk
        · exact htype
        · exact hnode
        · exact hpresent.symm
      exact hstep ▸ hwritten
    · rw [Except.ok.injEq] at hstep
      exact hstep ▸ hs
  · rename_i hnone
    have ⟨⟨k, warning⟩, hk, hstep⟩ := bind_eq_ok.mp hstep
    rw [pure_eq_ok] at hstep
    have habsent : (s.1.nodes.get? e.nodeId).isSome = false := by
      rw [← hnode]
      exact Option.isSome_eq_false_iff.mpr (Option.isNone_iff_eq_none.mpr hnone)
    have hwritten : Sound w set.entities k := by
      refine Sound.write hs hes he ?_ ?_ ?_ hk
      · exact htype
      · exact hnode
      · exact habsent.symm
    exact hstep ▸ hwritten

theorem sound_applied {m : EntityMetadata} (hk : Sound w es k) (hes : Unambiguous g es)
    (he : e ∈ es) (hv : validateEntity w k e.entityType e.entityId e.properties m = .ok v)
    (hok : applyEntity w k v source trusted = .ok (h, warning)) : Sound w es h := by
  have ⟨hnode, _, hupdate⟩ := validateEntity_ok hv
  have ⟨ht, _⟩ := validateEntity_spelling hv
  exact hk.write hes he ht hnode hupdate hok

/-- An accepted write keeps the keys of every type apart, if it addresses records
under their own types. -/
theorem uniqueBy_apply {f : EntityWrite} (hg : WellFormed g ∧ UniqueBy w g)
    (hf : Unambiguous g f.entities) (hok : f.apply w g = .ok h) : WellFormed h ∧ UniqueBy w h := by
  have hsound : Sound w f.entities g := ⟨hg.1, hg.2, hf.stored⟩
  suffices hdone : Sound w f.entities h from ⟨hdone.wellFormed, hdone.unique⟩
  cases f with
  | addEntities guards entities =>
    have ⟨b, hb, hok⟩ := bind_eq_ok.mp hok
    rw [pure_eq_ok] at hok
    exact hok ▸ sound_addEntities hsound hf hb
  | batchDirectWrite guards source sourceRef entities requests call =>
    have ⟨⟨b, s⟩, hs, hok⟩ := bind_eq_ok.mp hok
    rw [pure_eq_ok] at hok
    exact hok ▸ sound_batchDirectWrite hsound hf hs
  | applyEntities guards stepId call set =>
    have ⟨⟨k, preview⟩, hk, hok⟩ := bind_eq_ok.mp hok
    rw [pure_eq_ok] at hok
    exact hok ▸ sound_applyEntities hsound hf hk
  | materialize entities =>
    apply foldlM_invariant (Sound w entities) hsound _ hok
    intro e he a b ha hstep
    have ⟨v, hv, hstep⟩ := bind_eq_ok.mp hstep
    have ⟨⟨k, warning⟩, hk, hstep⟩ := bind_eq_ok.mp hstep
    rw [pure_eq_ok] at hstep
    exact hstep ▸ sound_applied ha hf he hv hk
  | lifecycle entity state source actor =>
    have hlifecycle : applyEntityLifecycle w g entity state source actor = .ok h := hok
    unfold applyEntityLifecycle at hlifecycle
    have ⟨v, hv, hlifecycle⟩ := bind_eq_ok.mp hlifecycle
    have ⟨⟨k, warning⟩, hk, hlifecycle⟩ := bind_eq_ok.mp hlifecycle
    rw [pure_eq_ok] at hlifecycle
    exact hlifecycle ▸ sound_applied hsound hf (List.mem_singleton.mpr rfl) hv hk

end Batches

/-- No run of entity writes that address records under their own types makes two
records of a type share a complete key. -/
theorem unique_by_is_kept {w : WriteContext} {g : EntityGraph} {writes : List EntityWrite}
    (hwell : WellFormed g) (hunique : UniqueBy w g)
    (hwrites : Throughout (EntityWrite.apply w) (fun s f => Unambiguous s f.entities) g writes) :
    UniqueBy w (after (EntityWrite.apply w) g writes) := by
  have hkept := after_invariant (I := fun s => WellFormed s ∧ UniqueBy w s)
    (fun hs hf hok => uniqueBy_apply hs hf hok) ⟨hwell, hunique⟩ hwrites
  exact hkept.2

/-- The names of services are unique, and those of a type whose name begins with
theirs are not. -/
def namedConfig : CoreConfig where
  entityTypes := Dict.ofList
    [("Service", { properties := Dict.ofList [("name", {})], uniqueBy := some ["name"] }),
      ("Service:Legacy", { properties := Dict.ofList [("name", {})] })]
  relationships := []

def namedContext : WriteContext := { rt := plainRuntime, config := namedConfig }

def noGuards : Guards := { entity := fun _ _ _ => [], relationship := fun _ _ => [] }

def named (entityType id name : String) : EntityInstance :=
  { entityType := entityType, entityId := id, properties := Dict.ofList [("name", .str name)] }

/-- The second write is refused and the third renames a service. -/
theorem unique_by_is_kept_for_services :
    UniqueBy namedContext (after (EntityWrite.apply namedContext) {}
      [.addEntities noGuards [named "Service" "core" "Core"],
        .addEntities noGuards [named "Service" "api" "Core"],
        .addEntities noGuards [named "Service" "core" "Kernel"]]) := by
  apply unique_by_is_kept WellFormed.empty
  · decide
  · exact ⟨fun _ _ => by decide, fun _ _ => by decide +kernel, fun _ _ => by decide +kernel, trivial⟩

/-- A legacy service is written over a service with the id of its suffix, and so
past the check of the service's own type. -/
theorem second_core_is_written :
    UniqueBy namedContext {} ∧
      ¬ UniqueBy namedContext (after (EntityWrite.apply namedContext) {}
        [.addEntities noGuards [named "Service" "core" "Core", named "Service" "Legacy:api" "API"],
          .addEntities noGuards [named "Service:Legacy" "api" "Core"]]) := by
  decide +kernel

end Cruxible.UniqueIdentities
