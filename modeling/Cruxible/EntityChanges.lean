import Cruxible.FreeWrites
import Cruxible.Storage

/-!
# What one call changes on an entity row

The members of a call that address one node are patches, laid over each other
in order. The row that an accepted call leaves is the row it loaded with the
combined patch laid over it, so every field that the patch does not name keeps
the value that was loaded.
-/
namespace Cruxible.EntityChanges
open JsonValue PythonDict AssertionState AppendOnly Fallible Cruxible.Graph PropertyValidation
open GraphOperations DirectWrites FreeWrites Storage

/-- One member, as it was validated, over a record that it addresses. -/
def layMember (w : WriteContext) (g : EntityGraph) (n : NodeId) (d e : EntityInstance) :
    EntityInstance :=
  if e.nodeId = n then
    match validateEntity w g e.entityType e.entityId e.properties e.metadata with
    | .ok v => overwrite d v.entity
    | .error _ => d
  else d

/-- The combined patch of the members that address one node. -/
def entityChanges (w : WriteContext) (g : EntityGraph) (entities : List EntityInstance)
    (n : NodeId) : EntityInstance :=
  entities.foldl (layMember w g n) { entityType := "", entityId := "" }

/-- A row that is another row with a patch laid over it. -/
structure LaidOver (base patch d : EntityInstance) : Prop where
  properties : ∀ k, d.properties.get? k = (patch.properties.get? k).or (base.properties.get? k)
  lifecycle : d.metadata.lifecycle = patch.metadata.lifecycle.or base.metadata.lifecycle
  actorContext : d.metadata.actorContext = patch.metadata.actorContext.or base.metadata.actorContext
  extra : d.metadata.extra =
    if patch.metadata.extra.entries = [] then base.metadata.extra else patch.metadata.extra

/-- A row shows every field that a patch names. -/
structure Carries (d patch : EntityInstance) : Prop where
  properties : ∀ k v, patch.properties.get? k = some v → d.properties.get? k = some v
  lifecycle : ∀ l, patch.metadata.lifecycle = some l → d.metadata.lifecycle = some l
  actorContext : ∀ a, patch.metadata.actorContext = some a → d.metadata.actorContext = some a
  extra : patch.metadata.extra.entries ≠ [] → d.metadata.extra = patch.metadata.extra

/-- No field is named by both patches. -/
structure Separate (p q : EntityInstance) : Prop where
  properties : ∀ k, p.properties.get? k = none ∨ q.properties.get? k = none
  lifecycle : p.metadata.lifecycle = none ∨ q.metadata.lifecycle = none
  actorContext : p.metadata.actorContext = none ∨ q.metadata.actorContext = none
  extra : p.metadata.extra.entries = [] ∨ q.metadata.extra.entries = []

theorem Separate.symm {p q : EntityInstance} (h : Separate p q) : Separate q p where
  properties := fun k => (h.properties k).symm
  lifecycle := h.lifecycle.symm
  actorContext := h.actorContext.symm
  extra := h.extra.symm

namespace LaidOver
variable {base patch d : EntityInstance}

theorem start (d : EntityInstance) : LaidOver d { entityType := "", entityId := "" } d where
  properties := fun _ => rfl
  lifecycle := rfl
  actorContext := rfl
  extra := rfl

theorem overwrite (h : LaidOver base patch d) (e : EntityInstance) :
    LaidOver base (GraphOperations.overwrite patch e) (GraphOperations.overwrite d e) where
  properties := by
    intro k
    simp only [GraphOperations.overwrite, Dict.get?_update, h.properties k, Option.or_assoc]
  lifecycle := by
    simp only [GraphOperations.overwrite, EntityMetadata.merge, h.lifecycle, Option.or_assoc]
  actorContext := by
    simp only [GraphOperations.overwrite, EntityMetadata.merge, h.actorContext, Option.or_assoc]
  extra := by
    simp only [GraphOperations.overwrite, EntityMetadata.merge, h.extra]
    by_cases he : e.metadata.extra.entries = []
    · simp [he]
    · simp [he]

theorem layMember (h : LaidOver base patch d) (w : WriteContext) (g : EntityGraph) (n : NodeId)
    (e : EntityInstance) :
    LaidOver base (EntityChanges.layMember w g n patch e) (EntityChanges.layMember w g n d e) := by
  unfold EntityChanges.layMember
  split_ifs
  · split
    · exact h.overwrite _
    · exact h
  · exact h

theorem layMembers (h : LaidOver base patch d) (w : WriteContext) (g : EntityGraph) (n : NodeId)
    (entities : List EntityInstance) :
    LaidOver base (entities.foldl (EntityChanges.layMember w g n) patch)
      (entities.foldl (EntityChanges.layMember w g n) d) := by
  induction entities generalizing patch d with
  | nil => exact h
  | cons e entities ih => exact ih (h.layMember w g n e)

theorem carries (h : LaidOver base patch d) : Carries d patch where
  properties := by
    intro k v hv
    rw [h.properties, hv, Option.some_or]
  lifecycle := by
    intro l hl
    rw [h.lifecycle, hl, Option.some_or]
  actorContext := by
    intro a ha
    rw [h.actorContext, ha, Option.some_or]
  extra := by
    intro he
    rw [h.extra, if_neg he]

/-- A later patch that names none of its fields leaves an earlier one visible. -/
theorem keeps {p : EntityInstance} (h : LaidOver base patch d) (hb : Carries base p)
    (hs : Separate p patch) : Carries d p where
  properties := by
    intro k v hv
    have hnone : patch.properties.get? k = none := by
      rcases hs.properties k with hp | hp
      · rw [hv] at hp
        cases hp
      · exact hp
    rw [h.properties, hnone, Option.none_or]
    exact hb.properties k v hv
  lifecycle := by
    intro l hl
    have hnone : patch.metadata.lifecycle = none := hs.lifecycle.resolve_left (by simp [hl])
    rw [h.lifecycle, hnone, Option.none_or]
    exact hb.lifecycle l hl
  actorContext := by
    intro a ha
    have hnone : patch.metadata.actorContext = none := hs.actorContext.resolve_left (by simp [ha])
    rw [h.actorContext, hnone, Option.none_or]
    exact hb.actorContext a ha
  extra := by
    intro he
    rw [h.extra, if_pos (hs.extra.resolve_left he)]
    exact hb.extra he

end LaidOver

/-- The rows that `service_add_entities` persists, read back from the graph. -/
def touchedEntities (b : EntityBatch) : List EntityInstance :=
  b.validated.filterMap (fun v => b.graph.getEntity v.entity.entityType v.entity.entityId)

section Rows
variable {w : WriteContext} {g : EntityGraph} {b b' : EntityBatch} {source : String}
  {reference : EntityBatch → EntityGraph} {entities : List EntityInstance} {e d : EntityInstance}
  {guards : Guards}

/-- An error-free loop over the members: each is validated and applied. -/
inductive Adds (w : WriteContext) (reference : EntityBatch → EntityGraph) :
    EntityBatch → List EntityInstance → EntityBatch → Prop
  | nil {b : EntityBatch} : Adds w reference b [] b
  | cons {b mid b' : EntityBatch} {e : EntityInstance} {es : List EntityInstance}
      {v : ValidatedEntity} (hfresh : (e.entityType, e.entityId) ∉ b.seen)
      (hseen : mid.seen = (e.entityType, e.entityId) :: b.seen)
      (hv : validateEntity w (reference b) e.entityType e.entityId e.properties e.metadata = .ok v)
      (hgraph : mid.graph = writeEntity b.graph v) (hvalidated : mid.validated = b.validated ++ [v])
      (hrest : Adds w reference mid es b') : Adds w reference b (e :: es) b'

theorem adds_of_foldlM {k : Nat}
    (hok : (entities.zipIdx k).foldlM
      (fun b p => addEntityMember w source reference b (p.2, p.1)) b = .ok b')
    (herr : b'.errors = []) : b.errors = [] ∧ Adds w reference b entities b' := by
  induction entities generalizing b k with
  | nil =>
    obtain rfl := foldlM_nil_eq_ok.mp hok
    exact ⟨herr, .nil⟩
  | cons e entities ih =>
    rw [List.zipIdx_cons, List.foldlM_cons, bind_eq_ok] at hok
    obtain ⟨mid, hmid, hrest⟩ := hok
    have ⟨hmiderr, hadds⟩ := ih hrest
    rcases addEntityMember_cases hmid with ⟨error, rfl⟩ | ⟨hseen, v, k, warning, hv, hk, rfl⟩
    · simp at hmiderr
    · exact ⟨hmiderr, .cons hseen rfl hv (applyEntity_ok hk).1 rfl hadds⟩

theorem writeEntity_layMember {h : EntityGraph} {v : ValidatedEntity}
    (hv : validateEntity w g e.entityType e.entityId e.properties e.metadata = .ok v) {n : NodeId}
    {d₀ : EntityInstance} (h₀ : g.nodes.get? n = some d₀) (hd : h.nodes.get? n = some d) :
    (writeEntity h v).nodes.get? n = some (layMember w g n d e) := by
  obtain ⟨hnode, -, hupdate⟩ := validateEntity_ok hv
  by_cases he : e.nodeId = n
  · have hpresent : v.isUpdate = true := by
      have hget : g.getEntity e.entityType e.entityId = some d₀ := by
        rw [← he] at h₀
        exact h₀
      rw [hupdate, EntityGraph.hasEntity, hget]
      rfl
    have hvn : v.entity.nodeId = n := hnode.trans he
    rw [writeEntity_update h v hpresent, hvn]
    simp [EntityGraph.modifyNode, hd, layMember, he, hv]
  · have hvn : v.entity.nodeId ≠ n := fun hn => he (hnode.symm.trans hn)
    have hlay : layMember w g n d e = d := by simp [layMember, he]
    rw [hlay]
    cases hu : v.isUpdate with
    | true =>
      rw [writeEntity_update h v hu]
      unfold EntityGraph.modifyNode
      split
      · exact hd
      · rw [Dict.get?_set_of_ne _ _ hvn]
        exact hd
    | false =>
      simp only [writeEntity, hu, Bool.false_eq_true, if_false, EntityGraph.addEntity]
      rw [Dict.get?_set_of_ne _ _ hvn]
      exact hd

theorem adds_ok (h : Adds w (fun _ => g) b entities b') :
    (∀ n d₀ d, g.nodes.get? n = some d₀ → b.graph.nodes.get? n = some d →
      b'.graph.nodes.get? n = some (entities.foldl (layMember w g n) d)) ∧
    b.validated ⊆ b'.validated ∧
    ∀ e ∈ entities, ∃ v ∈ b'.validated, v.entity.nodeId = e.nodeId ∧
      makeNodeId v.entity.entityType v.entity.entityId = e.nodeId := by
  induction h with
  | nil => exact ⟨fun n d₀ d _ hd => hd, List.Subset.refl _, by simp⟩
  | @cons b mid b' e es v _ _ hv hgraph hvalidated _ ih =>
    obtain ⟨hnodes, hsub, hmem⟩ := ih
    refine ⟨?_, ?_, ?_⟩
    · intro n d₀ d h₀ hd
      have hstep := writeEntity_layMember hv h₀ hd
      rw [← hgraph] at hstep
      simpa using hnodes n d₀ _ h₀ hstep
    · apply List.Subset.trans _ hsub
      rw [hvalidated]
      exact List.subset_append_left _ _
    · intro e' he'
      rcases List.mem_cons.mp he' with rfl | he'
      · have hnode := (validateEntity_ok hv).1
        refine ⟨v, hsub ?_, hnode, hnode⟩
        rw [hvalidated]
        exact List.mem_append_right _ (List.mem_singleton.mpr rfl)
      · exact hmem e' he'

theorem serviceAddEntities_ok (hok : serviceAddEntities w guards g entities = .ok b) :
    (∀ n d, g.nodes.get? n = some d →
      b.graph.nodes.get? n = some (entities.foldl (layMember w g n) d)) ∧
    ∀ e ∈ entities, ∃ v ∈ b.validated,
      makeNodeId v.entity.entityType v.entity.entityId = e.nodeId := by
  obtain ⟨hfold, herrors, -⟩ := addEntities_accepted hok
  obtain ⟨hnodes, -, hmem⟩ := adds_ok (adds_of_foldlM hfold herrors).2
  refine ⟨fun n d hd => hnodes n d d hd hd, ?_⟩
  intro e he
  obtain ⟨v, hv, -, hkey⟩ := hmem e he
  exact ⟨v, hv, hkey⟩

theorem addEntities_row {d' : EntityGraph} (hg : WellFormed g)
    (hok : serviceAddEntities w guards g entities = .ok b)
    (hsave : upsertEntities g (touchedEntities b) = .ok d') {n : NodeId}
    (hd : g.nodes.get? n = some d) :
    ∃ d₁, d'.nodes.get? n = some d₁ ∧ LaidOver d (entityChanges w g entities n) d₁ := by
  obtain ⟨hnodes, hmem⟩ := serviceAddEntities_ok hok
  have hevolves : Evolves (lifecycleFrame (fun _ => False) (fun _ => False)) g b.graph :=
    evolves_serviceAddEntities hok id (fun _ _ _ _ => ⟨fun _ => id, fun _ _ => id⟩)
  have hwell := hevolves.wellFormed hg
  have hrows : ∀ r ∈ touchedEntities b, b.graph.nodes.get? r.nodeId = some r := by
    intro r hr
    obtain ⟨v, -, hget⟩ := List.mem_filterMap.mp hr
    rw [hwell.keyed _ r hget]
    exact hget
  have hrow := upsertEntities_get? hsave hrows n
  refine ⟨_, ?_, (LaidOver.start d).layMembers w g n entities⟩
  rw [hrow]
  split_ifs with hn
  · exact hnodes n d hd
  · have hskip : ∀ e ∈ entities, e.nodeId ≠ n := by
      intro e he hen
      obtain ⟨v, hv, hkey⟩ := hmem e he
      apply hn
      have hget := hnodes n d hd
      have hvget : b.graph.getEntity v.entity.entityType v.entity.entityId =
          some (entities.foldl (layMember w g n) d) := by
        rw [EntityGraph.getEntity, hkey, hen]
        exact hget
      exact List.mem_map.mpr ⟨_, List.mem_filterMap.mpr ⟨v, hv, hvget⟩, hwell.keyed _ _ hget⟩
    have hfold : ∀ es : List EntityInstance, (∀ e ∈ es, e.nodeId ≠ n) →
        es.foldl (layMember w g n) d = d := by
      intro es
      induction es with
      | nil => exact fun _ => rfl
      | cons e es ih =>
        intro hes
        have hlay : layMember w g n d e = d := by simp [layMember, hes e (by simp)]
        rw [List.foldl_cons, hlay]
        exact ih (fun x hx => hes x (by simp [hx]))
    rw [hfold entities hskip]
    exact hd

end Rows

end Cruxible.EntityChanges
