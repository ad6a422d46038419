import Cruxible.InFlight
import Cruxible.ResolutionContracts

/-!
# How a resolution contract is consumed

Any number of direct writes, contract operations and other graph transactions are
in flight. Adding entities loads the graph when the call begins and evaluates the
guards against that copy inside its transaction; the batch write loads the graph
inside its transaction. Two things are said of a run. A contract is consumed at
most once, whatever the schedule. And a write that consumes a contract finds the
subject as the contract pinned it and changes nothing of it but the guarded
property, as long as the subject's row did not change since the write loaded it.
A load that returns the cached graph of its process stands at the read that
filled the cache.
-/
namespace Cruxible.ContractConsumption
open JsonValue PythonDict AssertionState AppendOnly Fallible Cruxible.Graph PropertyValidation
open GraphOperations DirectWrites FreeWrites Storage EntityChanges MutationReceipts
open ResolutionContracts

variable {δ : Type}

section Selection
variable [DecidableEq δ] {env : ContractEnv δ} {store : ContractStore δ} {now : Timestamp}

/-- What a guard has established about the contract that it selects. -/
structure Selected (env : ContractEnv δ) (store : ContractStore δ) (current : Option EntityInstance)
    (proposed : EntityInstance) (contractId : String) where
  guard : MutationGuard
  property : String
  row : EntityInstance
  newValue : Value
  contract : ResolutionContract δ
  configured : guard ∈ env.mutationGuards
  demands : guard.condition = .requiresResolutionContract
  guards : guard.property = some property
  found : current = some row
  proposes : proposed.properties.get? property = some newValue
  changes : ∀ old, row.properties.get? property = some old → old.pyEq newValue = false
  stored : contract ∈ store.contracts
  named : contract.contractId = contractId
  subject : contract.entityType = row.entityType ∧ contract.entityId = row.entityId
  pinned : entityDigest env row = .ok contract.subjectContentDigest
  reverted : computeEntityContentDigest env proposed.entityType proposed.entityId
    (propertiesWithGuardedValueReverted property (row.properties.get? property)
      proposed.properties) = .ok contract.subjectContentDigest

variable {current : Option EntityInstance} {guard : MutationGuard} {proposed : EntityInstance}
  {new : Value} {property : String} {v : ValidatedEntity} {ev : GuardEvaluation δ}

theorem guardTransitionContext_ok {w : WriteContext} {old : Option Value}
    (h : guardTransitionContext w guard v current proposed = .ok (some (property, old, new))) :
    guard.property = some property ∧ old = current.bind (fun c => c.properties.get? property) ∧
      proposed.properties.get? property = some new ∧
      (old.any fun o => o.pyEq new) = false := by
  unfold guardTransitionContext at h
  split_ifs at h with htype
  · cases h
  · split at h
    · cases h
    · rename_i p hp
      split_ifs at h with hmissing
      · cases h
      · split at h
        · cases h
        · obtain ⟨guarded, -, h⟩ := bind_eq_ok.mp h
          simp only at h
          split at h
          · cases h
          · rename_i value hvalue
            split_ifs at h with hany hsame
            · cases h
            · cases h
            · simp only [Except.ok.injEq, Option.some.injEq, Prod.mk.injEq] at h
              obtain ⟨rfl, rfl, rfl⟩ := h
              exact ⟨hp, rfl, hvalue, by simpa using hsame⟩

theorem mem_findEligibleContracts {entityType entityId : String} {digest : δ} {c : ResolutionContract δ}
    (h : c ∈ store.findEligibleContracts entityType entityId digest now) :
    c ∈ store.contracts ∧ c.entityType = entityType ∧ c.entityId = entityId ∧
      c.subjectContentDigest = digest ∧ store.activated c.contractId = false := by
  unfold ContractStore.findEligibleContracts at h
  rw [List.mem_insertionSort, List.mem_filter] at h
  have hp := of_decide_eq_true h.2
  exact ⟨h.1, hp.1, hp.2.1, hp.2.2.1, hp.2.2.2.2⟩

variable {intent : ContractActivationIntent δ}

theorem conditionOutcome_selects {consumed : List String} {missing : List String}
    (hguard : guard ∈ env.mutationGuards) (hdemands : guard.condition = .requiresResolutionContract)
    (hproperty : guard.property = some property)
    (hnew : proposed.properties.get? property = some new)
    (hchange : ((current.bind fun c => c.properties.get? property).any fun o => o.pyEq new) = false)
    (h : resolutionContractConditionOutcome env store consumed now guard missing current proposed
      property (current.bind fun c => c.properties.get? property) = .ok (.inl intent)) :
    Nonempty (Selected env store current proposed intent.contractId) := by
  unfold resolutionContractConditionOutcome at h
  split_ifs at h with hmissing
  · cases h
  · cases current with
    | none => cases h
    | some row =>
      simp only [Option.bind_some] at h hchange
      obtain ⟨pre, hpre, h⟩ := bind_eq_ok.mp h
      obtain ⟨reverted, hreverted, h⟩ := bind_eq_ok.mp h
      split at h
      · cases h
      · rename_i contract hfind
        split_ifs at h with hdigest
        · cases h
        · obtain ⟨accepted, -, h⟩ := bind_eq_ok.mp h
          simp only [Except.ok.injEq, Sum.inl.injEq] at h
          subst h
          have hmem := mem_findEligibleContracts (List.mem_of_find?_eq_some hfind)
          obtain ⟨hstored, htype, hid, hpin, -⟩ := hmem
          rw [not_not] at hdigest
          refine ⟨⟨guard, property, row, new, contract, hguard, hdemands, hproperty, rfl, hnew,
            ?_, hstored, rfl, ⟨htype, hid⟩, ?_, ?_⟩⟩
          · intro old hold
            rw [hold] at hchange
            simpa using hchange
          · rw [hpin]
            exact hpre
          · rw [← hdigest]
            exact hreverted

theorem evaluateGuard_selects {graph : EntityGraph} {ev' : GuardEvaluation δ}
    (hguard : guard ∈ env.mutationGuards)
    (h : evaluateGuard env store now current proposed graph v ev guard = .ok ev')
    (hi : intent ∈ ev'.contractActivations) :
    intent ∈ ev.contractActivations ∨
      Nonempty (Selected env store current proposed intent.contractId) := by
  unfold evaluateGuard at h
  cases hc : guard.condition with
  | other =>
    simp only [hc] at h
    obtain ⟨refusal, -, h⟩ := bind_eq_ok.mp h
    cases h
    exact .inl hi
  | requiresResolutionContract =>
    simp only [hc] at h
    obtain ⟨context, hcontext, h⟩ := bind_eq_ok.mp h
    cases context with
    | none =>
      cases h
      exact .inl hi
    | some t =>
      obtain ⟨property, old, new⟩ := t
      obtain ⟨hproperty, rfl, hnew, hchange⟩ := guardTransitionContext_ok hcontext
      simp only at h
      split_ifs at h with hscope
      · cases h
        exact .inl hi
      · obtain ⟨outcome, houtcome, h⟩ := bind_eq_ok.mp h
        cases outcome with
        | inr reason =>
          cases h
          exact .inl hi
        | inl chosen =>
          cases h
          rcases List.mem_append.mp hi with hi | hi
          · exact .inl hi
          · rw [List.mem_singleton] at hi
            subst hi
            exact .inr (conditionOutcome_selects hguard hc hproperty hnew hchange houtcome)

/-- Every intent of an evaluation is a contract selected for one of the members. -/
def SelectsFor (env : ContractEnv δ) (store : ContractStore δ)
    (currentGraph proposedGraph : EntityGraph) (entities : List ValidatedEntity)
    (ev : GuardEvaluation δ) : Prop :=
  ∀ intent ∈ ev.contractActivations, ∃ v ∈ entities, ∃ proposed,
    proposedGraph.getEntity v.entity.entityType v.entity.entityId = some proposed ∧
    Nonempty (Selected env store (currentGraph.getEntity v.entity.entityType v.entity.entityId)
      proposed intent.contractId)

theorem evaluateMutationGuards_selects {currentGraph proposedGraph : EntityGraph}
    {entities : List ValidatedEntity}
    (h : evaluateMutationGuards env store now currentGraph proposedGraph entities = .ok ev) :
    SelectsFor env store currentGraph proposedGraph entities ev := by
  unfold evaluateMutationGuards at h
  apply foldlM_invariant (SelectsFor env store currentGraph proposedGraph entities) _ _ h
  · intro intent hi
    cases hi
  · intro v hv a b ha hstep
    cases hproposed : proposedGraph.getEntity v.entity.entityType v.entity.entityId with
    | none =>
      simp only [hproposed] at hstep
      cases hstep
      exact ha
    | some proposed =>
      simp only [hproposed] at hstep
      apply foldlM_invariant (SelectsFor env store currentGraph proposedGraph entities) ha _ hstep
      intro guard hguard a b ha hstep intent hi
      rcases evaluateGuard_selects hguard hstep hi with hi | hi
      · exact ha intent hi
      · exact ⟨v, hv, proposed, hproposed, hi⟩

end Selection

section Content
variable {env : ContractEnv δ}

theorem computeEntityContentDigest_ok {t i : String} {d : δ} {p : Properties}
    (h : computeEntityContentDigest env t i p = .ok d) : d = env.hash (contentPayload t i p) := by
  unfold computeEntityContentDigest at h
  split_ifs at h
  exact (Except.ok.inj h).symm

theorem contentPayload_properties {t i t' i' : String} {p p' : Properties}
    (h : contentPayload t i p = contentPayload t' i' p') (k : String) :
    (p.get? k).map Value.canonical = (p'.get? k).map Value.canonical := by
  have hfields := Value.canonical_object_get? (by simp) (by simp) h "properties"
  simp only [Bindings.get?, String.reduceEq, if_false, if_true, Option.map_some,
    Option.some.injEq] at hfields
  exact Value.canonical_object_get? p.nodup p'.nodup hfields k

theorem get?_reverted {property k : String} (hk : k ≠ property) (old : Option Value)
    (p : Properties) : (propertiesWithGuardedValueReverted property old p).get? k = p.get? k := by
  unfold propertiesWithGuardedValueReverted
  cases old with
  | none => simp only [Dict.get?_erase, if_neg (Ne.symm hk)]
  | some v => simp only [Dict.get?_set_of_ne _ _ (Ne.symm hk)]

theorem Selected.others {store : ContractStore δ} {current : Option EntityInstance}
    {proposed : EntityInstance} {contractId : String}
    (h : Selected env store current proposed contractId) (hinj : Function.Injective env.hash)
    {k : String} (hk : k ≠ h.property) :
    (proposed.properties.get? k).map Value.canonical =
      (h.row.properties.get? k).map Value.canonical := by
  have hrow := computeEntityContentDigest_ok h.pinned
  have hreverted := computeEntityContentDigest_ok h.reverted
  have hpayload := contentPayload_properties (hinj (hreverted.symm.trans hrow)) k
  rw [get?_reverted hk] at hpayload
  exact hpayload

end Content

section Rows

/-- Existing rows stay as they are; edges and new rows are not looked at. -/
def rowFrame : Frame where
  node := Eq
  newNode := fun _ => True
  edge := fun _ _ => True
  newEdge := fun _ => True
  node_refl := fun _ => rfl
  node_trans := Eq.trans
  newNode_node := fun _ _ => trivial
  edge_refl := fun _ => trivial
  edge_trans := fun _ _ => trivial
  newEdge_edge := fun _ _ => trivial

variable {g : EntityGraph} {n : NodeId} {d : EntityInstance} {source : String} {w : WriteContext}

theorem applyAllPrepared_rows {sourceRef : String} {c : Call}
    {ms : List (PreparedRelationship × Option GroupDrift.GroupContentDrift)} {t : Applied}
    (hok : applyAllPrepared w source sourceRef c g ms = .ok t) (hd : g.nodes.get? n = some d) :
    t.graph.nodes.get? n = some d := by
  unfold applyAllPrepared at hok
  have hevolves : Evolves rowFrame g t.graph := by
    apply foldlM_invariant (fun s : Applied => Evolves rowFrame g s.graph) _ _ hok
    · exact Evolves.refl _ g
    · intro m _ a b ha hstep
      unfold applyPrepared at hstep
      obtain ⟨⟨k, durable⟩, hk, hstep⟩ := bind_eq_ok.mp hstep
      rw [pure_eq_ok] at hstep
      rw [← hstep]
      have hwritten := evolves_applyRelationship ha hk (fun _ _ _ => trivial)
        (fun _ _ _ => trivial) (fun _ _ => trivial)
      obtain ⟨f, hstamp | hstamp⟩ := GroupDrift.stampGroupApprovalDrift_eq k m.1.request.edge m.2
        c.receiptId c.actorContext c.now
      · simp only [hstamp]
        exact hwritten
      · simp only [hstamp]
        exact hwritten.trans (Evolves.modifyEdge _ _ _ _ _ _ _ (fun _ => rfl) (fun _ => rfl)
          (fun _ _ => trivial))
  obtain ⟨d', hd', rfl⟩ := hevolves.nodes n d hd
  exact hd'

theorem writeEntity_present (v : ValidatedEntity) (hn : (g.nodes.get? n).isSome) :
    ((writeEntity g v).nodes.get? n).isSome := by
  by_cases hvn : v.entity.nodeId = n
  · cases hu : v.isUpdate with
    | true =>
      rw [writeEntity_update g v hu, hvn]
      unfold EntityGraph.modifyNode
      split
      · exact hn
      · simp
    | false => simp [writeEntity, hu, EntityGraph.addEntity, hvn]
  · cases hu : v.isUpdate with
    | true =>
      rw [writeEntity_update g v hu]
      unfold EntityGraph.modifyNode
      split
      · exact hn
      · rw [Dict.get?_set_of_ne _ _ hvn]
        exact hn
    | false =>
      simp only [writeEntity, hu, Bool.false_eq_true, if_false, EntityGraph.addEntity]
      rw [Dict.get?_set_of_ne _ _ hvn]
      exact hn

theorem adds_present {reference : EntityBatch → EntityGraph} {es : List EntityInstance}
    {b b' : EntityBatch} (h : Adds w reference b es b') (hn : (b.graph.nodes.get? n).isSome) :
    (b'.graph.nodes.get? n).isSome := by
  induction h with
  | nil => exact hn
  | @cons _ _ _ _ _ v _ _ _ hgraph _ _ ih =>
    apply ih
    rw [hgraph]
    exact writeEntity_present v hn

theorem prepare_present {m : Mutation} {p : PreparedBatch} (hok : m.prepare g = .ok p)
    (hd : g.nodes.get? n = some d) : ∃ d', p.entities.graph.nodes.get? n = some d' := by
  obtain ⟨reference, -, hadds⟩ := prepare_ok hok
  exact Option.isSome_iff_exists.mp (adds_present hadds (by rw [hd]; rfl))

end Rows

section Tables
variable {s t : ContractStore δ}

/-- What every operation does to the contract tables: consumed contracts stay
consumed, and the keys of the tables stay distinct. -/
structure Extends (s t : ContractStore δ) : Prop where
  activated : ∀ id, s.activated id = true → t.activated id = true
  contractIds : (s.contracts.map (·.contractId)).Nodup → (t.contracts.map (·.contractId)).Nodup
  activationIds : (s.activations.map (·.contractId)).Nodup →
    (t.activations.map (·.contractId)).Nodup

theorem Extends.refl (s : ContractStore δ) : Extends s s := ⟨fun _ => id, id, id⟩

theorem activated_iff {id : String} :
    s.activated id = true ↔ id ∈ s.activations.map (·.contractId) := by
  simp [ContractStore.activated]

theorem nodup_append_key {α : Type} {key : α → String} {rows : List α} {r : α}
    (hrows : (rows.map key).Nodup) (hr : key r ∉ rows.map key) : ((rows ++ [r]).map key).Nodup := by
  rw [List.map_append, List.map_singleton, List.nodup_append]
  refine ⟨hrows, List.nodup_singleton _, ?_⟩
  intro a ha b hb hab
  rw [List.mem_singleton] at hb
  subst hab hb
  exact hr ha

variable {a : ContractActivation δ}

theorem saveActivation_ok (h : s.saveActivation a = .ok t) :
    t = { s with activations := s.activations ++ [a] } ∧ s.activated a.contractId = false := by
  unfold ContractStore.saveActivation at h
  obtain ⟨⟨⟩, -, h⟩ := bind_eq_ok.mp h
  obtain ⟨⟨⟩, -, h⟩ := bind_eq_ok.mp h
  obtain ⟨⟨⟩, hunique, h⟩ := bind_eq_ok.mp h
  exact ⟨(Except.ok.inj h).symm, by simpa using hunique⟩

theorem extends_saveActivation (h : s.saveActivation a = .ok t) : Extends s t := by
  obtain ⟨rfl, hfresh⟩ := saveActivation_ok h
  constructor
  · intro id hid
    rw [activated_iff] at hid ⊢
    rw [List.map_append]
    exact List.mem_append_left _ hid
  · exact id
  · intro hn
    apply nodup_append_key hn
    rw [← activated_iff, hfresh]
    exact Bool.false_ne_true

theorem recordContractActivations_ok {intents : List (ContractActivationIntent δ)}
    {mint : Nat → String} {receiptId : Option String} {now : Timestamp}
    (h : recordContractActivations s intents mint receiptId now = .ok t) :
    Extends s t ∧ ∀ id, t.activated id = true →
      s.activated id = true ∨ ∃ intent ∈ intents, intent.contractId = id := by
  unfold recordContractActivations at h
  apply foldlM_invariant (fun u : ContractStore δ => Extends s u ∧ ∀ id, u.activated id = true →
    s.activated id = true ∨ ∃ intent ∈ intents, intent.contractId = id) _ _ h
  · exact ⟨Extends.refl s, fun id hid => .inl hid⟩
  · intro p hp a b ha hstep
    have hext := extends_saveActivation hstep
    obtain ⟨rfl, -⟩ := saveActivation_ok hstep
    refine ⟨⟨fun id hid => hext.activated id (ha.1.activated id hid),
      fun hn => hext.contractIds (ha.1.contractIds hn),
      fun hn => hext.activationIds (ha.1.activationIds hn)⟩, ?_⟩
    intro id hid
    rw [activated_iff, List.map_append, List.mem_append] at hid
    rcases hid with hid | hid
    · exact ha.2 id (activated_iff.mpr hid)
    · right
      have hmem : p.1 ∈ intents := (List.mem_zipIdx hp).2.2 ▸ List.getElem_mem _
      exact ⟨p.1, hmem, (List.mem_singleton.mp hid).symm⟩

end Tables

variable [DecidableEq δ]

/-- The tables of an instance: a graph that loads, and distinct keys. -/
structure Valid (s : ServiceState δ) : Prop where
  wellFormed : WellFormed s.graph
  contractIds : (s.contracts.contracts.map (·.contractId)).Nodup
  activationIds : (s.contracts.activations.map (·.contractId)).Nodup

abbrev Store (δ : Type) := { s : ServiceState δ // Valid s }

abbrev LoadedGraph := { g : EntityGraph // WellFormed g }

/-- A transaction that writes the graph and no contract table. -/
structure GraphTransaction where
  run : EntityGraph → Except CoreError EntityGraph
  wellFormed : ∀ g g', WellFormed g → run g = .ok g' → WellFormed g'

inductive Request where
  | write (d : DirectWrite)
  | openContract (o : OpenRequest)
  | resolveOutcome (r : ResolveRequest)
  | disposeResolution (q : DisposeRequest)
  | other (t : GraphTransaction)

/-- A request between its reads and its transaction. A write that loads the graph
inside its transaction holds no copy. -/
inductive Plan where
  | write (d : DirectWrite) (loaded : Option LoadedGraph)
  | openContract (o : OpenRequest)
  | resolveOutcome (r : ResolveRequest)
  | disposeResolution (q : DisposeRequest)
  | other (t : GraphTransaction)

/-- `service_add_entities` loads the graph before its transaction opens,
`service_batch_direct_write` inside. -/
def DirectWrite.loads (d : DirectWrite) (s : Store δ) : Option LoadedGraph :=
  match d.request with
  | .addEntities _ => some ⟨s.val.graph, s.property.wellFormed⟩
  | .batchDirectWrite _ _ _ _ => none

def readRequest (env : ContractEnv δ) (r : Request) (s : Store δ) : Except CoreError Plan :=
  match r with
  | .write d => do
      (d.mutation env s.val.contracts).checkOwnership
      .ok (.write d (DirectWrite.loads d s))
  | .openContract o => .ok (.openContract o)
  | .resolveOutcome r => .ok (.resolveOutcome r)
  | .disposeResolution q => .ok (.disposeResolution q)
  | .other t => .ok (.other t)

def commitState (env : ContractEnv δ) (p : Plan) (s : ServiceState δ) :
    Except CoreError (ServiceState δ) :=
  match p with
  | .write d loaded => d.commit env (loaded.elim s.graph Subtype.val) s
  | .openContract o => serviceOpenResolutionContract env o s
  | .resolveOutcome r => serviceResolveOutcome env r s
  | .disposeResolution q => serviceDisposeResolution q s
  | .other t => do
      let g ← t.run s.graph
      .ok { s with graph := g }

/-- A direct write, step by step. -/
structure Accepted (env : ContractEnv δ) (d : DirectWrite) (loaded : EntityGraph)
    (s t : ServiceState δ) where
  prepared : PreparedBatch
  proposed : Applied
  evaluation : GuardEvaluation δ
  prepares : (d.mutation env s.contracts).prepare loaded = .ok prepared
  proposes : applyAllPrepared env.w (d.mutation env s.contracts).origin.1
    (d.mutation env s.contracts).origin.2 d.call prepared.entities.graph
    (prepared.relationships.map fun r => (r.1, none)) = .ok proposed
  evaluates : evaluateMutationGuards env s.contracts d.call.now loaded proposed.graph
    prepared.entities.validated = .ok evaluation
  records : recordContractActivations s.contracts evaluation.contractActivations d.mint
    d.call.receiptId d.call.now = .ok t.contracts
  saves : (d.mutation env s.contracts).save s.graph prepared = .ok t.graph

variable {env : ContractEnv δ} {s t : ServiceState δ} {contract : ResolutionContract δ}
  {schedule : List InFlight.Step} {d : DirectWrite} {loaded : EntityGraph}

theorem accepted_of_commit (h : d.commit env loaded s = .ok t) :
    Nonempty (Accepted env d loaded s t) := by
  unfold DirectWrite.commit at h
  simp only at h
  obtain ⟨p, hp, h⟩ := bind_eq_ok.mp h
  obtain ⟨proposed, hproposed, h⟩ := bind_eq_ok.mp h
  obtain ⟨ev, hev, h⟩ := bind_eq_ok.mp h
  obtain ⟨contracts, hcontracts, h⟩ := bind_eq_ok.mp h
  obtain ⟨graph, hgraph, h⟩ := bind_eq_ok.mp h
  cases h
  exact ⟨⟨p, proposed, ev, hp, hproposed, hev, hcontracts, hgraph⟩⟩

omit [DecidableEq δ] in
theorem serviceOpenResolutionContract_ok {o : OpenRequest}
    (h : serviceOpenResolutionContract env o s = .ok t) : ∃ rows,
      t = { s with contracts := { s.contracts with contracts := s.contracts.contracts ++ rows } } ∧
        Extends s.contracts t.contracts := by
  unfold serviceOpenResolutionContract at h
  obtain ⟨actor, -, h⟩ := bind_eq_ok.mp h
  obtain ⟨subject, -, h⟩ := bind_eq_ok.mp h
  obtain ⟨declaration, -, h⟩ := bind_eq_ok.mp h
  split at h
  · obtain ⟨⟨⟩, -, h⟩ := bind_eq_ok.mp h
    cases h
    exact ⟨[], by rw [List.append_nil], Extends.refl _⟩
  · obtain ⟨⟨⟩, -, h⟩ := bind_eq_ok.mp h
    obtain ⟨digest, -, h⟩ := bind_eq_ok.mp h
    obtain ⟨contracts, hsave, h⟩ := bind_eq_ok.mp h
    cases h
    unfold ContractStore.saveContract at hsave
    obtain ⟨⟨⟩, hkey, hsave⟩ := bind_eq_ok.mp hsave
    obtain ⟨⟨⟩, -, hsave⟩ := bind_eq_ok.mp hsave
    cases hsave
    refine ⟨_, rfl, fun _ => id, ?_, id⟩
    intro hn
    apply nodup_append_key hn
    intro hmem
    obtain ⟨c, hc, hid⟩ := List.mem_map.mp hmem
    rw [refuseIf_eq_ok, not_not, ContractStore.getContract, List.find?_eq_none] at hkey
    exact hkey c hc (by simpa using hid)

omit [DecidableEq δ] in
theorem resolve_adds {r : ResolveRequest} (h : serviceResolveOutcome env r s = .ok t) :
    t.graph = s.graph ∧ ∃ row : ContractResolution, t.contracts = { s.contracts with
        resolutions := s.contracts.resolutions ++ [row] } ∧
      s.contracts.activated row.contractId = true ∧
      nextResolutionSequence s.contracts row.contractId = .ok row.sequence ∧
      ∀ q ∈ s.contracts.resolutions, q.resolutionId ≠ row.resolutionId := by
  unfold serviceResolveOutcome at h
  have ⟨actor, _, h⟩ := bind_eq_ok.mp h
  have ⟨contract, _, h⟩ := bind_eq_ok.mp h
  have ⟨_, hactivated, h⟩ := bind_eq_ok.mp h
  have ⟨sequence, hsequence, h⟩ := bind_eq_ok.mp h
  have ⟨_, _, h⟩ := bind_eq_ok.mp h
  have ⟨_, _, h⟩ := bind_eq_ok.mp h
  have ⟨_, _, h⟩ := bind_eq_ok.mp h
  have ⟨_, _, h⟩ := bind_eq_ok.mp h
  have ⟨_, _, h⟩ := bind_eq_ok.mp h
  have ⟨contracts, hsave, h⟩ := bind_eq_ok.mp h
  unfold ContractStore.saveResolution at hsave
  have ⟨_, hunique, hsave⟩ := bind_eq_ok.mp hsave
  cases h
  cases hsave
  rw [refuseIf_eq_ok] at hactivated hunique
  refine ⟨rfl, _, rfl, by simpa using hactivated, hsequence, ?_⟩
  intro q hq hid
  exact hunique ⟨q, hq, .inl hid⟩

omit [DecidableEq δ] in
theorem dispose_adds {q : DisposeRequest} (h : serviceDisposeResolution q s = .ok t) :
    t.graph = s.graph ∧ ∃ (row : ResolutionDisposition) (r : ContractResolution),
      t.contracts = { s.contracts with dispositions := s.contracts.dispositions ++ [row] } ∧
      r ∈ s.contracts.resolutions ∧ r.resolutionId = row.resolutionId ∧
      row.sequence = ((s.contracts.listDispositions row.resolutionId).getLast?).elim 1
        (fun d => d.sequence + 1) ∧
      ((s.contracts.listDispositions row.resolutionId).getLast?).any
        (resolutionAnsweredAfter s.contracts r) = false := by
  unfold serviceDisposeResolution at h
  have ⟨reviewer, _, h⟩ := bind_eq_ok.mp h
  have ⟨r, hr, h⟩ := bind_eq_ok.mp h
  simp only at h
  have ⟨_, hlive, h⟩ := bind_eq_ok.mp h
  have ⟨contracts, hsave, h⟩ := bind_eq_ok.mp h
  unfold ContractStore.saveDisposition at hsave
  have ⟨_, _, hsave⟩ := bind_eq_ok.mp hsave
  cases h
  cases hsave
  rw [refuseIf_eq_ok, Bool.not_eq_true] at hlive
  unfold requireResolution at hr
  split at hr
  · rename_i found hfind
    cases hr
    exact ⟨rfl, _, r, rfl, List.mem_of_find?_eq_some hfind, by simpa using List.find?_some hfind,
      rfl, hlive⟩
  · cases hr

omit [DecidableEq δ] in
theorem serviceResolveOutcome_ok {r : ResolveRequest} (h : serviceResolveOutcome env r s = .ok t) :
    t.graph = s.graph ∧ t.contracts.contracts = s.contracts.contracts ∧
      t.contracts.activations = s.contracts.activations := by
  obtain ⟨hgraph, row, ht, -⟩ := resolve_adds h
  rw [ht]
  exact ⟨hgraph, rfl, rfl⟩

omit [DecidableEq δ] in
theorem serviceDisposeResolution_ok {q : DisposeRequest} (h : serviceDisposeResolution q s = .ok t) :
    t.graph = s.graph ∧ t.contracts.contracts = s.contracts.contracts ∧
      t.contracts.activations = s.contracts.activations := by
  obtain ⟨hgraph, row, r, ht, -⟩ := dispose_adds h
  rw [ht]
  exact ⟨hgraph, rfl, rfl⟩

omit [DecidableEq δ] in
theorem extends_of_same {s t : ContractStore δ} (hc : t.contracts = s.contracts)
    (ha : t.activations = s.activations) : Extends s t where
  activated := by
    intro id hid
    simpa only [ContractStore.activated, ha] using hid
  contractIds := by
    rw [hc]
    exact id
  activationIds := by
    rw [ha]
    exact id

variable {p : Plan}

theorem commitState_keeps (h : commitState env p s = .ok t) :
    Extends s.contracts t.contracts ∧ (WellFormed s.graph → WellFormed t.graph) := by
  cases p with
  | write d loaded =>
    obtain ⟨a⟩ := accepted_of_commit h
    exact ⟨(recordContractActivations_ok a.records).1, save_wellFormed a.saves⟩
  | openContract o =>
    obtain ⟨rows, rfl, hextends⟩ := serviceOpenResolutionContract_ok h
    exact ⟨hextends, id⟩
  | resolveOutcome r =>
    obtain ⟨hgraph, hc, ha⟩ := serviceResolveOutcome_ok h
    exact ⟨extends_of_same hc ha, fun hs => hgraph ▸ hs⟩
  | disposeResolution q =>
    obtain ⟨hgraph, hc, ha⟩ := serviceDisposeResolution_ok h
    exact ⟨extends_of_same hc ha, fun hs => hgraph ▸ hs⟩
  | other t =>
    obtain ⟨g, hg, h⟩ := bind_eq_ok.mp h
    cases h
    exact ⟨Extends.refl _, fun hs => t.wellFormed _ _ hs hg⟩

theorem valid_commitState (h : commitState env p s = .ok t) (hs : Valid s) : Valid t where
  wellFormed := (commitState_keeps h).2 hs.wellFormed
  contractIds := (commitState_keeps h).1.contractIds hs.contractIds
  activationIds := (commitState_keeps h).1.activationIds hs.activationIds

/-- The write transaction of a plan. -/
def commitPlan (env : ContractEnv δ) (p : Plan) (s : Store δ) : Except CoreError (Store δ) :=
  match h : commitState env p s.val with
  | .ok t => .ok ⟨t, valid_commitState h s.property⟩
  | .error e => .error e

theorem commitPlan_ok {s t : Store δ} (h : commitPlan env p s = .ok t) :
    commitState env p s.val = .ok t.val := by
  unfold commitPlan at h
  split at h
  · rename_i u hu
    cases h
    exact hu
  · cases h

/-- The nodes whose rows differ between two graphs. -/
def changedNodes (g h : EntityGraph) : List NodeId :=
  (g.nodes.keys ++ h.nodes.keys).filter fun n => g.nodes.get? n ≠ h.nodes.get? n

theorem get?_of_not_changed {g h : EntityGraph} {n : NodeId} (hn : n ∉ changedNodes g h) :
    h.nodes.get? n = g.nodes.get? n := by
  by_contra hne
  apply hn
  have hdiff : g.nodes.get? n ≠ h.nodes.get? n := fun he => hne he.symm
  refine List.mem_filter.mpr ⟨?_, by simpa using hdiff⟩
  by_contra hmem
  rw [List.mem_append, not_or] at hmem
  rw [Dict.get?_eq_none.mpr hmem.1, Dict.get?_eq_none.mpr hmem.2] at hdiff
  exact hdiff rfl

def contractService (env : ContractEnv δ) :
    InFlight.System (Store δ) Request Plan NodeId CoreError where
  read := readRequest env
  commit := commitPlan env
  writes := fun p s =>
    match commitPlan env p s with
    | .ok t => changedNodes s.val.graph t.val.graph
    | .error _ => []

/-- The row that the graph stores for a node. -/
def rowOf (n : NodeId) (s : Store δ) : Option EntityInstance := s.val.graph.nodes.get? n

theorem contractService_framed (env : ContractEnv δ) :
    InFlight.Framed (contractService env) rowOf := by
  intro p s t h n hn
  simp only [contractService] at h hn
  rw [h] at hn
  exact get?_of_not_changed hn

abbrev Committed (δ : Type) := InFlight.Commit (Store δ) Plan NodeId

/-- The run of a schedule from a store with no request in flight. -/
def runFrom (env : ContractEnv δ) (s : Store δ) (requests : Nat → Request)
    (schedule : List InFlight.Step) : InFlight.World (Store δ) Plan NodeId :=
  InFlight.run (contractService env) requests (InFlight.idle s) schedule

theorem runFrom_current (env : ContractEnv δ) (s : Store δ) (requests : Nat → Request)
    (schedule : List InFlight.Step) :
    InFlight.Current (contractService env) rowOf requests (runFrom env s requests schedule) :=
  InFlight.current_run (contractService_framed env) s schedule

/-- A commit that moves a contract to its consumed state. -/
def Consumes (contractId : String) (c : Committed δ) : Prop :=
  c.before.val.contracts.activated contractId = false ∧
    c.after.val.contracts.activated contractId = true

instance (contractId : String) : DecidablePred (Consumes (δ := δ) contractId) :=
  fun _ => inferInstanceAs (Decidable (_ ∧ _))

/-- The commits of a log that consume a contract. -/
def consumptions (contractId : String) (log : List (Committed δ)) : List (Committed δ) :=
  log.filter fun c => Consumes contractId c

/-- Nothing has consumed a contract that is not consumed, and at most one commit
has consumed one that is. -/
def ConsumedOnce (contractId : String) (log : List (Committed δ)) (s : Store δ) : Prop :=
  (consumptions contractId log).length ≤ 1 ∧
    (s.val.contracts.activated contractId = false → consumptions contractId log = [])

variable {c : Committed δ}

omit [DecidableEq δ] in
theorem consumedOnce_append {contractId : String} {log : List (Committed δ)}
    (hlog : ConsumedOnce contractId log c.before)
    (hc : Extends c.before.val.contracts c.after.val.contracts) :
    ConsumedOnce contractId (log ++ [c]) c.after := by
  unfold ConsumedOnce consumptions at *
  rw [List.filter_append]
  cases hbefore : c.before.val.contracts.activated contractId with
  | true =>
    have hafter := hc.activated contractId hbefore
    have hnot : ¬Consumes contractId c := by
      intro hcons
      rw [hcons.1] at hbefore
      cases hbefore
    simp only [List.filter_singleton, hnot, decide_false, cond_false, List.append_nil]
    refine ⟨hlog.1, ?_⟩
    intro hfalse
    rw [hafter] at hfalse
    cases hfalse
  | false =>
    rw [hlog.2 hbefore, List.nil_append]
    refine ⟨List.length_filter_le _ [c], ?_⟩
    intro hafter
    rw [List.filter_eq_nil_iff]
    intro x hx hcons
    rw [List.mem_singleton] at hx
    subst hx
    have hdone := (of_decide_eq_true hcons).2
    rw [hafter] at hdone
    cases hdone

theorem consumedOnce_run (env : ContractEnv δ) (s : Store δ) (requests : Nat → Request)
    (schedule : List InFlight.Step) (contractId : String) :
    ConsumedOnce contractId (runFrom env s requests schedule).log
      (runFrom env s requests schedule).store := by
  apply InFlight.run_log_invariant (contractService env) requests (ConsumedOnce contractId)
    (fun c => Extends c.before.val.contracts c.after.val.contracts)
  · intro log c hlog hc
    exact consumedOnce_append hlog hc
  · exact ⟨Nat.zero_le _, fun _ => rfl⟩
  · intro c hc
    have hcommit := ((runFrom_current env s requests schedule).log c hc).2
    exact (commitState_keeps (commitPlan_ok hcommit)).1

/-- The write that consumes a contract finds the subject as the contract pinned it
and changes, of its properties, only the one that a guard protects. -/
structure AcceptedAsPinned (env : ContractEnv δ) (s t : ServiceState δ)
    (contract : ResolutionContract δ) : Prop where
  accepted : ∃ guard ∈ env.mutationGuards, ∃ property row row' new,
    guard.condition = .requiresResolutionContract ∧ guard.property = some property ∧
    s.graph.getEntity contract.entityType contract.entityId = some row ∧
    entityDigest env row = .ok contract.subjectContentDigest ∧
    t.graph.getEntity contract.entityType contract.entityId = some row' ∧
    row'.properties.get? property = some new ∧
    (∀ old, row.properties.get? property = some old → old.pyEq new = false) ∧
    ∀ k, k ≠ property →
      (row'.properties.get? k).map Value.canonical = (row.properties.get? k).map Value.canonical

omit [DecidableEq δ] in
theorem eq_of_contractId {rows : List (ResolutionContract δ)}
    (hn : (rows.map (·.contractId)).Nodup) {c d : ResolutionContract δ} (hc : c ∈ rows)
    (hd : d ∈ rows) (h : c.contractId = d.contractId) : c = d :=
  List.inj_on_of_nodup_map hn hc hd h

theorem directWrite_accepts (hinj : Function.Injective env.hash) (hs : Valid s)
    (hloaded : WellFormed loaded) (h : d.commit env loaded s = .ok t)
    (hcontract : contract ∈ s.contracts.contracts)
    (hbefore : s.contracts.activated contract.contractId = false)
    (hafter : t.contracts.activated contract.contractId = true)
    (hsame : loaded.getEntity contract.entityType contract.entityId =
      s.graph.getEntity contract.entityType contract.entityId) :
    AcceptedAsPinned env s t contract := by
  obtain ⟨a⟩ := accepted_of_commit h
  have hprepared := prepare_wellFormed a.prepares hloaded
  have hintent : ∃ intent ∈ a.evaluation.contractActivations,
      intent.contractId = contract.contractId := by
    rcases (recordContractActivations_ok a.records).2 _ hafter with hold | hnew
    · rw [hbefore] at hold
      cases hold
    · exact hnew
  obtain ⟨intent, hintent, hid⟩ := hintent
  obtain ⟨v, hv, proposed, hproposed, ⟨sel⟩⟩ :=
    evaluateMutationGuards_selects a.evaluates intent hintent
  obtain rfl : sel.contract = contract :=
    eq_of_contractId hs.contractIds sel.stored hcontract (sel.named.trans hid)
  have hrow := sel.found
  have hnode : makeNodeId sel.contract.entityType sel.contract.entityId =
      makeNodeId v.entity.entityType v.entity.entityId := by
    rw [sel.subject.1, sel.subject.2]
    exact hloaded.keyed _ _ hrow
  obtain ⟨d', hd'⟩ := prepare_present a.prepares hrow
  have hkept := applyAllPrepared_rows a.proposes hd'
  obtain rfl : d' = proposed := by
    rw [EntityGraph.getEntity, hkept] at hproposed
    exact Option.some.inj hproposed
  have hsaved := save_get? hprepared a.saves (makeNodeId v.entity.entityType v.entity.entityId)
  rw [if_pos (mem_touchedEntities hprepared hv hd')] at hsaved
  refine ⟨⟨sel.guard, sel.configured, sel.property, sel.row, d', sel.newValue, sel.demands,
    sel.guards, ?_, sel.pinned, ?_, sel.proposes, sel.changes, fun k hk => sel.others hinj hk⟩⟩
  · rw [← hsame, EntityGraph.getEntity, hnode]
    exact hrow
  · rw [EntityGraph.getEntity, hnode, hsaved]
    exact hd'

/-- A write that loaded its graph ahead of the transaction meets the subject's row
as it loaded it. -/
def SubjectUndisturbed (contract : ResolutionContract δ) (c : Committed δ) : Prop :=
  ∀ d loaded, c.plan = .write d (some loaded) →
    makeNodeId contract.entityType contract.entityId ∉ c.since

theorem commit_accepts (hinj : Function.Injective env.hash) {s : Store δ} {requests : Nat → Request}
    (hc : c ∈ (runFrom env s requests schedule).log)
    (hcontract : contract ∈ c.before.val.contracts.contracts)
    (hconsumes : Consumes contract.contractId c) (hfresh : SubjectUndisturbed contract c) :
    AcceptedAsPinned env c.before.val c.after.val contract := by
  obtain ⟨⟨origin, hread, hagree⟩, hcommit⟩ := (runFrom_current env s requests schedule).log c hc
  have hstate := commitPlan_ok hcommit
  have hunchanged :
      c.after.val.contracts.activations = c.before.val.contracts.activations → False := by
    intro hsame
    have hdone := hconsumes.2
    rw [ContractStore.activated, hsame] at hdone
    rw [← ContractStore.activated, hconsumes.1] at hdone
    cases hdone
  cases hplan : c.plan with
  | write d loaded =>
    rw [hplan] at hstate
    cases loaded with
    | none =>
      exact directWrite_accepts hinj c.before.property c.before.property.wellFormed hstate
        hcontract hconsumes.1 hconsumes.2 rfl
    | some loaded =>
      have hrow := hagree _ (hfresh d loaded hplan)
      have horigin : origin.val.graph = loaded.val := by
        simp only [contractService, readRequest] at hread
        rw [hplan] at hread
        split at hread
        · rename_i d'
          obtain ⟨⟨⟩, -, hread⟩ := bind_eq_ok.mp hread
          simp only [Except.ok.injEq, Plan.write.injEq] at hread
          obtain ⟨rfl, hloads⟩ := hread
          unfold DirectWrite.loads at hloads
          split at hloads
          · rw [← Option.some.inj hloads]
          · cases hloads
        · cases hread
        · cases hread
        · cases hread
        · cases hread
      have hsame : loaded.val.getEntity contract.entityType contract.entityId =
          c.before.val.graph.getEntity contract.entityType contract.entityId := by
        rw [← horigin]
        exact hrow
      exact directWrite_accepts hinj c.before.property loaded.property hstate hcontract
        hconsumes.1 hconsumes.2 hsame
  | openContract o =>
    rw [hplan] at hstate
    obtain ⟨rows, hrows, -⟩ := serviceOpenResolutionContract_ok hstate
    exact (hunchanged (congrArg (fun t => t.contracts.activations) hrows)).elim
  | resolveOutcome r =>
    rw [hplan] at hstate
    exact (hunchanged (serviceResolveOutcome_ok hstate).2.2).elim
  | disposeResolution q =>
    rw [hplan] at hstate
    exact (hunchanged (serviceDisposeResolution_ok hstate).2.2).elim
  | other t =>
    rw [hplan] at hstate
    obtain ⟨g, -, hg⟩ := bind_eq_ok.mp hstate
    exact (hunchanged (by rw [← Except.ok.inj hg])).elim

/-- In every run a contract is consumed at most once, and every write that consumes
one, and meets its subject as it loaded it, accepts the subject as it was pinned. -/
theorem contracts_are_consumed_as_pinned (env : ContractEnv δ) (hinj : Function.Injective env.hash)
    (s : Store δ) (requests : Nat → Request) (schedule : List InFlight.Step) :
    (∀ contractId,
      (consumptions contractId (runFrom env s requests schedule).log).length ≤ 1) ∧
    ∀ c ∈ (runFrom env s requests schedule).log, ∀ contract ∈ c.before.val.contracts.contracts,
      Consumes contract.contractId c → SubjectUndisturbed contract c →
      AcceptedAsPinned env c.before.val c.after.val contract := by
  constructor
  · intro contractId
    exact (consumedOnce_run env s requests schedule contractId).1
  · intro c hc contract hcontract hconsumes hfresh
    exact commit_accepts hinj hc hcontract hconsumes hfresh

/-! A decision whose acceptance needs a contract. It is created, a contract is
opened on it, and one write accepts it; another write edits its title. -/

def decisionSchema : EntityTypeSchema where
  properties := Dict.ofList [("status", { optional := true }), ("title", { optional := true })]

def decisionConfig : CoreConfig where
  entityTypes := Dict.ofList [("Decision", decisionSchema)]

def outcomeGuard : MutationGuard where
  name := "accepted_needs_outcome"
  entityType := some "Decision"
  property := some "status"
  newValue := .str "accepted"
  condition := .requiresResolutionContract

/-- Contents stand for their own digests. -/
def decisionEnv : ContractEnv Value where
  w := { rt := plainRuntime, config := decisionConfig }
  mutationGuards := [outcomeGuard]
  hash := id
  repr := plainRuntime.str
  scopeMatches := fun _ _ _ => true
  otherCondition := fun _ _ _ _ _ => .ok none
  relationshipGuards := fun _ _ => []
  buildDeclaration := .ok
  validateMeasurementEvidence := fun _ _ => .ok ()

def decision (properties : List (String × Value)) : EntityInstance where
  entityType := "Decision"
  entityId := "d"
  properties := Dict.ofList properties

def decisionWrite (properties : List (String × Value)) : Request :=
  .write { request := .addEntities [decision properties], mint := fun k => "RSA-" ++ toString k }

def opener : GovernedActorContext where
  actorType := .humanUser
  actorId := "alice"
  orgId := "org"
  operationId := "op"
  timestamp := 0

def decisionRequests : Nat → Request
  | 0 => decisionWrite [("status", .str "proposed"), ("title", .str "x")]
  | 1 => .openContract
      { entityType := "Decision", entityId := "d",
        declaration :=
          { description := "fewer pages", checkAt := 5, expiresAt := 9, measurement := .null },
        actorContext := some opener, contractId := "RSC-1" }
  | 2 => decisionWrite [("status", .str "accepted")]
  | _ => decisionWrite [("title", .str "y")]

def emptyStore : Store Value where
  val := { graph := {} }
  property := ⟨WellFormed.empty, List.nodup_nil, List.nodup_nil⟩

/-- The decision is created and the contract opened. -/
def opening : List InFlight.Step := [.read 0, .commit 0, .read 1, .commit 1]

/-- The commits of a run that consume a contract, with the contract. -/
def consumedContracts (schedule : List InFlight.Step) :
    List (Committed Value × ResolutionContract Value) :=
  (runFrom decisionEnv emptyStore decisionRequests schedule).log.flatMap fun c =>
    (c.before.val.contracts.contracts.filter fun k => Consumes k.contractId c).map fun k => (c, k)

theorem mem_consumedContracts {p : Committed Value × ResolutionContract Value}
    (hp : p ∈ consumedContracts schedule) :
    p.1 ∈ (runFrom decisionEnv emptyStore decisionRequests schedule).log ∧
      p.2 ∈ p.1.before.val.contracts.contracts ∧ Consumes p.2.contractId p.1 := by
  obtain ⟨c, hc, hp⟩ := List.mem_flatMap.mp hp
  obtain ⟨k, hk, rfl⟩ := List.mem_map.mp hp
  rw [List.mem_filter] at hk
  exact ⟨hc, hk.1, of_decide_eq_true hk.2⟩

theorem undisturbed_acceptance_is_as_pinned :
    ∃ c ∈ (runFrom decisionEnv emptyStore decisionRequests
        (opening ++ [.read 2, .commit 2])).log,
      ∃ contract ∈ c.before.val.contracts.contracts, Consumes contract.contractId c ∧
        AcceptedAsPinned decisionEnv c.before.val c.after.val contract := by
  have hsome : ∃ p ∈ consumedContracts (opening ++ [.read 2, .commit 2]), p.1.since = [] := by
    decide +kernel
  obtain ⟨p, hp, hsince⟩ := hsome
  obtain ⟨hc, hcontract, hconsumes⟩ := mem_consumedContracts hp
  refine ⟨p.1, hc, p.2, hcontract, hconsumes, ?_⟩
  apply (contracts_are_consumed_as_pinned decisionEnv Function.injective_id emptyStore
    decisionRequests _).2 p.1 hc p.2 hcontract hconsumes
  intro d loaded _
  rw [hsince]
  exact List.not_mem_nil

/-- An edit that commits between the acceptance's load and its transaction leaves a
subject that the contract never pinned, and the contract is consumed all the same. -/
theorem overtaken_acceptance_is_not_as_pinned :
    ∃ c ∈ (runFrom decisionEnv emptyStore decisionRequests
        (opening ++ [.read 2, .read 3, .commit 3, .commit 2])).log,
      ∃ contract ∈ c.before.val.contracts.contracts, Consumes contract.contractId c ∧
        ¬AcceptedAsPinned decisionEnv c.before.val c.after.val contract := by
  have hsome : ∃ p ∈ consumedContracts (opening ++ [.read 2, .read 3, .commit 3, .commit 2]),
      ∀ row ∈ p.1.before.val.graph.getEntity p.2.entityType p.2.entityId,
        entityDigest decisionEnv row ≠ .ok p.2.subjectContentDigest := by
    decide +kernel
  obtain ⟨p, hp, hdrift⟩ := hsome
  obtain ⟨hc, hcontract, hconsumes⟩ := mem_consumedContracts hp
  refine ⟨p.1, hc, p.2, hcontract, hconsumes, ?_⟩
  rintro ⟨guard, -, property, row, row', new, -, -, hrow, hpinned, -⟩
  exact hdrift row hrow hpinned

end Cruxible.ContractConsumption
