import Cruxible.EdgeChanges
import Cruxible.EntityChanges
import Cruxible.Interleavings

/-!
# Two writers of one record

Adding entities, adding relationships and giving feedback load the graph before
their write transaction opens, compute the touched rows from that copy, and
replace the stored rows whole. Two calls on one record that set disjoint fields
both survive when neither transaction falls between the other's load and
transaction; the overlapping schedules lose the first writer's fields.

A load that returns the cached graph of its process stands at the read that
filled the cache.
-/
namespace Cruxible.LostUpdates
open JsonValue PythonDict AssertionState AppendOnly Fallible Cruxible.Graph PropertyValidation
open GraphOperations DirectWrites Feedback FreeWrites Storage EntityChanges EdgeChanges
open Interleavings

inductive Request where
  | addEntities (entities : List EntityInstance)
  | addRelationships (source sourceRef : String) (requests : List RelationshipRequest)
  | feedback (request : FeedbackRequest)

/-- One call of the service, with what the process supplies to it. -/
structure ServiceCall where
  guards : Guards
  profiles : Dict String FeedbackProfileSchema := ∅
  graphWrite : Bool := true
  call : Call := {}
  request : Request

/-- The write transaction of a call: the rows come from the loaded copy. -/
def ServiceCall.commit (w : WriteContext) (s : ServiceCall) (loaded store : EntityGraph) :
    Except CoreError EntityGraph :=
  match s.request with
  | .addEntities entities => do
      let b ← serviceAddEntities w s.guards loaded entities
      upsertEntities store (touchedEntities b)
  | .addRelationships source sourceRef requests => do
      let a ← serviceAddRelationships w s.guards loaded source sourceRef requests s.call
      upsertRelationships store a.touched
  | .feedback q => do
      let h ← serviceFeedback w s.profiles s.graphWrite loaded [q] s.call
      upsertRelationships store (touchedByFeedback h q)

/-- The fields that a call sets on one entity of the graph it loaded. -/
def ServiceCall.entityChange (w : WriteContext) (s : ServiceCall) (loaded : EntityGraph)
    (n : NodeId) : EntityInstance :=
  match s.request with
  | .addEntities entities => entityChanges w loaded entities n
  | _ => { entityType := "", entityId := "" }

/-- The fields that a call sets on one edge of the graph it loaded. -/
def ServiceCall.edgeChange (w : WriteContext) (s : ServiceCall) (loaded : EntityGraph)
    (claimId : String) : EdgeChange :=
  match s.request with
  | .addEntities _ => {}
  | .addRelationships _ _ requests => relationshipChanges w loaded requests claimId
  | .feedback q => feedbackChanges w loaded q s.call claimId

/-- What a commit on the graph that was loaded does to every stored record. -/
structure Applies (w : WriteContext) (s : ServiceCall) (g g' : EntityGraph) : Prop where
  wellFormed : WellFormed g'
  entity : ∀ n d, g.nodes.get? n = some d →
    ∃ d', g'.nodes.get? n = some d' ∧ LaidOver d (s.entityChange w g n) d'
  edge : ∀ c e, g.edges.find? (fun x => x.claimId = c) = some e →
    ∃ e', g'.edges.find? (fun x => x.claimId = c) = some e' ∧
      e'.relationshipType = e.relationshipType ∧ Effect w (s.edgeChange w g c) e e'

variable {g : EntityGraph} {w : WriteContext}

theorem applies_of_commit {s : ServiceCall} {g' : EntityGraph} (hg : WellFormed g)
    (h : s.commit w g g = .ok g') : Applies w s g g' := by
  unfold ServiceCall.commit at h
  cases hreq : s.request with
  | addEntities entities =>
    simp only [hreq] at h
    obtain ⟨b, hb, h⟩ := bind_eq_ok.mp h
    refine ⟨upsertEntities_wellFormed h hg, ?_, ?_⟩
    · intro n d hd
      simpa only [ServiceCall.entityChange, hreq] using addEntities_row hg hb h hd
    · intro c e he
      rw [(upsertEntities_edges h).1]
      refine ⟨e, he, rfl, ?_⟩
      simpa only [ServiceCall.edgeChange, hreq] using Effect.refl w e
  | addRelationships source sourceRef requests =>
    simp only [hreq] at h
    obtain ⟨a, ha, h⟩ := bind_eq_ok.mp h
    refine ⟨upsertRelationships_wellFormed h hg, ?_, ?_⟩
    · intro n d hd
      rw [upsertRelationships_nodes h]
      refine ⟨d, hd, ?_⟩
      simpa only [ServiceCall.entityChange, hreq] using LaidOver.start d
    · intro c e he
      simpa only [ServiceCall.edgeChange, hreq] using addRelationships_row hg ha h he
  | feedback q =>
    simp only [hreq] at h
    obtain ⟨k, hk, h⟩ := bind_eq_ok.mp h
    refine ⟨upsertRelationships_wellFormed h hg, ?_, ?_⟩
    · intro n d hd
      rw [upsertRelationships_nodes h]
      refine ⟨d, hd, ?_⟩
      simpa only [ServiceCall.entityChange, hreq] using LaidOver.start d
    · intro c e he
      simpa only [ServiceCall.edgeChange, hreq] using feedback_row hg hk h he

theorem normal_edgeChange (s : ServiceCall) (hg : WellFormed g) {c : String} {e : EdgeData}
    (he : g.edges.find? (fun x => x.claimId = c) = some e) :
    Normal w e.relationshipType (s.edgeChange w g c) := by
  have htype : ∀ (t : RelationshipInstance) (key : Option Nat), reaches g t key c = true →
      t.relationshipType = e.relationshipType := by
    intro t key hreach
    simp only [reaches, decide_eq_true_eq] at hreach
    obtain ⟨x, hx, hxc⟩ := Option.map_eq_some_iff.mp hreach
    have hxe : x = e := by
      have hfind := hg.find?_claimId (List.mem_of_find?_eq_some hx)
      rw [hxc, he] at hfind
      exact (Option.some.inj hfind).symm
    have hmatch := List.find?_some hx
    simp only [EntityGraph.edgeMatches, Bool.and_eq_true, decide_eq_true_eq] at hmatch
    rw [← hxe]
    exact hmatch.2.symm
  have hempty : Normal w e.relationshipType {} := by
    intro k v hv
    cases hv
  unfold ServiceCall.edgeChange
  split
  · exact hempty
  · rename_i requests _
    unfold relationshipChanges
    split
    · rename_i q hq
      have hreach : reaches g q.edge none c = true := by simpa using List.find?_some hq
      rw [← htype q.edge none hreach]
      exact normal_requestChange w q
    · exact hempty
  · rename_i q _
    unfold feedbackChanges
    split_ifs with hreach
    · rw [← htype q.target q.target.edgeKey hreach]
      exact normal_feedbackChange w q s.call
    · exact hempty

/-- The transactions of two calls on one store. -/
def runCalls (w : WriteContext) (calls : Bool → ServiceCall) (base : EntityGraph)
    (schedule : List Step) : Except CoreError (World EntityGraph) :=
  run (fun p => (calls p).commit w) (.value "commit without a loaded graph") { store := base }
    schedule

/-- Both calls survive: every record shows the fields that either call set on it
when they set no field in common, and the store is that of a serial order. -/
structure BothSurvive (w : WriteContext) (calls : Bool → ServiceCall)
    (loaded : Bool → EntityGraph) (base final : EntityGraph) : Prop where
  entity : ∀ n, base.nodes.get? n ≠ none →
    Separate ((calls false).entityChange w (loaded false) n)
      ((calls true).entityChange w (loaded true) n) →
    ∃ d, final.nodes.get? n = some d ∧ ∀ p, Carries d ((calls p).entityChange w (loaded p) n)
  edge : ∀ c, (base.edges.find? (fun x => x.claimId = c)).isSome →
    Apart ((calls false).edgeChange w (loaded false) c) ((calls true).edgeChange w (loaded true) c) →
    ∃ e, final.edges.find? (fun x => x.claimId = c) = some e ∧
      ∀ p, Shows e ((calls p).edgeChange w (loaded p) c)
  serial : ∃ p last, runCalls w calls base (serial p) = .ok last ∧ last.store = final

/-- In every schedule of two accepted calls in which neither transaction falls
between the load and the transaction of the other, both calls survive. -/
theorem disjoint_updates_survive (w : WriteContext) (calls : Bool → ServiceCall)
    (base : EntityGraph) (hbase : WellFormed base) (schedule : List Step)
    (hs : Interleaves schedule) (hu : Undisturbed schedule) (last : World EntityGraph)
    (hrun : runCalls w calls base schedule = .ok last) (loaded : Bool → EntityGraph)
    (hloaded : ∀ p, last.copy p = some (loaded p)) :
    BothSurvive w calls loaded base last.store := by
  obtain ⟨p, hserial⟩ : ∃ p, schedule = serial p := by
    rcases serial_of_undisturbed hs hu with h | h
    · exact ⟨false, h⟩
    · exact ⟨true, h⟩
  rw [hserial] at hrun
  obtain ⟨mid, hfirst, hsecond, hcopy, hcopy'⟩ := run_serial hrun
  have hp : loaded p = base := Option.some.inj ((hloaded p).symm.trans hcopy)
  have hq : loaded (!p) = mid := Option.some.inj ((hloaded (!p)).symm.trans hcopy')
  have one := applies_of_commit hbase hfirst
  have two := applies_of_commit one.wellFormed hsecond
  refine ⟨?_, ?_, p, last, hrun, rfl⟩
  · intro n hn hsep
    obtain ⟨d, hd⟩ := Option.ne_none_iff_exists'.mp hn
    obtain ⟨d₁, hd₁, hover₁⟩ := one.entity n d hd
    obtain ⟨d₂, hd₂, hover₂⟩ := two.entity n d₁ hd₁
    have hsep' : Separate ((calls p).entityChange w base n) ((calls !p).entityChange w mid n) := by
      rw [← hp, ← hq]
      cases p with
      | false => exact hsep
      | true => exact hsep.symm
    have hold := hover₂.keeps hover₁.carries hsep'
    have hnew := hover₂.carries
    rw [← hp] at hold
    rw [← hq] at hnew
    refine ⟨d₂, hd₂, ?_⟩
    intro r
    cases p <;> cases r <;> assumption
  · intro c hc hapart
    obtain ⟨e, he⟩ := Option.isSome_iff_exists.mp hc
    obtain ⟨e₁, he₁, htype₁, heff₁⟩ := one.edge c e he
    obtain ⟨e₂, he₂, -, heff₂⟩ := two.edge c e₁ he₁
    have hapart' : Apart ((calls p).edgeChange w base c) ((calls !p).edgeChange w mid c) := by
      rw [← hp, ← hq]
      cases p with
      | false => exact hapart
      | true => exact hapart.symm
    have hnormal : Normal w e₁.relationshipType ((calls p).edgeChange w base c) := by
      rw [htype₁]
      exact normal_edgeChange (calls p) hbase he
    have hold := heff₂.keeps heff₁.shows hnormal hapart'
    have hnew := heff₂.shows
    rw [← hp] at hold
    rw [← hq] at hnew
    refine ⟨e₂, he₂, ?_⟩
    intro r
    cases p <;> cases r <;> assumption

/-- Services with a tier and an owner. -/
def ownedContext : WriteContext where
  rt := plainRuntime
  config := { entityTypes := Dict.ofList [("Service",
    { properties := Dict.ofList [("tier", { optional := true }), ("owner", { optional := true })] })] }

/-- One process sets the tier of a service, the other its owner. -/
def ownProperty (p : Bool) : Properties :=
  Dict.ofList [if p then ("owner", .str "ops") else ("tier", .str "gold")]

def setOneProperty (p : Bool) : ServiceCall where
  guards := { entity := fun _ _ _ => [], relationship := fun _ _ => [] }
  request := .addEntities
    [{ entityType := "Service", entityId := "a", properties := ownProperty p }]

def oneService : EntityGraph := { nodes := Dict.ofList [service "a" none] }

theorem oneService_wellFormed : WellFormed oneService :=
  WellFormed.empty.setNode rfl

/-- The row of service `a` after a schedule, when every commit is accepted. -/
def rowAfter (schedule : List Step) : Option Properties :=
  (runCalls ownedContext setOneProperty oneService schedule).toOption.bind
    (fun last => (last.store.getEntity "Service" "a").map EntityInstance.properties)

/-- One after the other, both properties stand. -/
theorem disjoint_updates_survive_in_order :
    rowAfter (serial true) = some (Dict.ofList [("owner", .str "ops"), ("tier", .str "gold")]) ∧
    ∃ last loaded, runCalls ownedContext setOneProperty oneService (serial true) = .ok last ∧
      BothSurvive ownedContext setOneProperty loaded oneService last.store := by
  refine ⟨by decide +kernel, ?_⟩
  have hok : (runCalls ownedContext setOneProperty oneService (serial true)).isOk = true := by
    decide +kernel
  cases hrun : runCalls ownedContext setOneProperty oneService (serial true) with
  | error e =>
      rw [hrun] at hok
      cases hok
  | ok last =>
      obtain ⟨mid, -, -, hcopy, hcopy'⟩ := run_serial hrun
      refine ⟨last, fun p => if p then oneService else mid, rfl, ?_⟩
      apply disjoint_updates_survive _ _ _ oneService_wellFormed (serial true) _ _ _ hrun
      · intro p
        cases p with
        | false => exact hcopy'
        | true => exact hcopy
      · decide
      · decide

/-- Both processes load before either commits, and the second row replaces the
first: the tier is gone, although the calls set different properties. -/
theorem overlapping_updates_lose_a_property :
    ¬ (∀ (w : WriteContext) (calls : Bool → ServiceCall) (base : EntityGraph), WellFormed base →
        ∀ schedule, Interleaves schedule → ∀ last, runCalls w calls base schedule = .ok last →
        ∀ loaded, (∀ p, last.copy p = some (loaded p)) →
          BothSurvive w calls loaded base last.store) ∧
    rowAfter [.load false, .load true, .commit false, .commit true] =
      some (Dict.ofList [("owner", .str "ops")]) := by
  have hrow : rowAfter [.load false, .load true, .commit false, .commit true] =
      some (Dict.ofList [("owner", .str "ops")]) := by
    decide +kernel
  refine ⟨?_, hrow⟩
  intro hall
  unfold rowAfter at hrow
  cases hrun : runCalls ownedContext setOneProperty oneService
      [.load false, .load true, .commit false, .commit true] with
  | error e =>
      rw [hrun] at hrow
      cases hrow
  | ok last =>
      rw [hrun] at hrow
      have hcopy : ∀ p, last.copy p = some oneService := by
        intro p
        have hcopies : ∀ p, (runCalls ownedContext setOneProperty oneService
            [.load false, .load true, .commit false, .commit true]).toOption.bind
              (fun l => l.copy p) = some oneService := by
          decide +kernel
        have hp := hcopies p
        rw [hrun] at hp
        exact hp
      have hboth := hall ownedContext setOneProperty oneService oneService_wellFormed _
        (by decide) last hrun (fun _ => oneService) hcopy
      have hchange : ∀ p, ((setOneProperty p).entityChange ownedContext oneService
          (makeNodeId "Service" "a")).properties = ownProperty p := by
        decide +kernel
      have hsep : Separate
          ((setOneProperty false).entityChange ownedContext oneService (makeNodeId "Service" "a"))
          ((setOneProperty true).entityChange ownedContext oneService
            (makeNodeId "Service" "a")) := by
        refine ⟨?_, by decide +kernel, by decide +kernel, by decide +kernel⟩
        intro k
        rw [hchange, hchange]
        by_cases hk : "tier" = k
        · right
          rw [← hk]
          decide +kernel
        · left
          have hnone : (ownProperty false).get? k = (∅ : Properties).get? k := by
            simp only [ownProperty, Dict.ofList, Bool.false_eq_true, if_false, List.foldl_cons,
              List.foldl_nil, Dict.get?_set, hk]
            rfl
          rw [hnone, Dict.get?_empty]
      obtain ⟨d, hd, hcarries⟩ := hboth.entity (makeNodeId "Service" "a") (by decide +kernel) hsep
      have htier := (hcarries false).properties "tier" (.str "gold")
        (by rw [hchange]; decide +kernel)
      have hprops : d.properties = Dict.ofList [("owner", .str "ops")] := by
        simpa [Except.toOption, EntityGraph.getEntity, hd] using hrow
      rw [hprops] at htier
      exact absurd htier (by decide +kernel)

end Cruxible.LostUpdates
