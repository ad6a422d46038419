import Cruxible.FreeWrites
import Cruxible.LocalWork

/-!
# Node ids

An entity is stored under its type and its id, joined by a colon. Neither the configuration nor
the validation of an entity refuses a type whose name has a colon of its own.
-/
namespace Cruxible.NodeIds
open GraphImages JsonValue AssertionState PythonDict Cruxible.Graph PropertyValidation
  GraphOperations

/-- Some write of an entity under this type and id is validated and applied. -/
def Admitted (w : WriteContext) (t i : String) : Prop :=
  ∃ g properties metadata v source trusted, validateEntity w g t i properties metadata = .ok v ∧
    (applyEntity w g v source trusted).isOk = true

/-- Two admitted entities have different ids, and each id is split into what it was made of. -/
def Faithful (w : WriteContext) : Prop :=
  (∀ t i t' i', Admitted w t i → Admitted w t' i' →
    GraphImages.makeNodeId t i = GraphImages.makeNodeId t' i' → t = t' ∧ i = i') ∧
  ∀ t i, Admitted w t i →
    GraphImages.splitNodeId (GraphImages.makeNodeId t i) = some (t, i)

theorem colon_not_mem_split {n : String} {s : String × String}
    (h : GraphImages.splitNodeId n = some s) : ':' ∉ s.1.toList := by
  unfold GraphImages.splitNodeId at h
  split_ifs at h with hcolon
  obtain rfl := Option.some.inj h
  intro hmem
  simp only [Graph.splitNodeId, String.toList_ofList] at hmem
  have hkept := List.all_takeWhile (p := fun c => decide (c ≠ ':')) (l := n.toList)
  have hne := List.all_eq_true.mp hkept ':' hmem
  simp at hne

/-- Ids stand for their entities exactly where no type that has entities has a colon. -/
theorem faithful_iff_no_colon (w : WriteContext) :
    Faithful w ↔ ∀ t i, Admitted w t i → ':' ∉ t.toList := by
  constructor
  case mp =>
    intro ⟨_, hsplit⟩ t i hadmitted
    exact colon_not_mem_split (hsplit t i hadmitted)
  case mpr =>
    intro hplain
    have hsplit : ∀ t i, Admitted w t i →
        GraphImages.splitNodeId (GraphImages.makeNodeId t i) = some (t, i) := by
      intro t i hadmitted
      exact LocalWork.splitNodeId_plain (hplain t i hadmitted) i
    refine ⟨?_, hsplit⟩
    intro t i t' i' hadmitted hadmitted' heq
    have hpair := hsplit t i hadmitted
    rw [heq, hsplit t' i' hadmitted', Option.some.injEq, Prod.mk.injEq] at hpair
    exact ⟨hpair.1.symm, hpair.2.symm⟩

/-- Two types, of which one has a colon. -/
def scopedContext : WriteContext where
  rt := FreeWrites.plainRuntime
  config := { entityTypes := Dict.ofList [("team", {}), ("team:lead", {})] }

theorem admitted_scoped {t i : String}
    (h : ((validateEntity scopedContext {} t i ∅ {}).bind fun v =>
      applyEntity scopedContext {} v "workflow_apply" false).isOk = true) :
    Admitted scopedContext t i := by
  cases hv : validateEntity scopedContext {} t i ∅ {} with
  | error e =>
    rw [hv] at h
    cases h
  | ok v =>
    rw [hv] at h
    exact ⟨{}, ∅, {}, v, _, _, hv, h⟩

/-- The lead `ann` and the member `lead:ann` of a team are one node. -/
theorem colon_types_share_a_node : ¬Faithful scopedContext := by
  intro ⟨hinjective, _⟩
  have hmember : Admitted scopedContext "team" "lead:ann" := admitted_scoped (by decide +kernel)
  have hlead : Admitted scopedContext "team:lead" "ann" := admitted_scoped (by decide +kernel)
  have htypes := (hinjective _ _ _ _ hmember hlead (by decide)).1
  exact absurd htypes (by decide)

end Cruxible.NodeIds
