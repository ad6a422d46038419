import Cruxible.CanonicalJson
import Cruxible.MutationReceipts

/-!
# Resolution contracts and the guards that consume them

A resolution contract is a commitment about one subject, pinned to the digest of
the subject's content when it was opened. A mutation guard may demand such a
contract for a transition of one property. Guard evaluation selects an eligible
contract, and the accepting write stores its activation, which consumes it. The
four tables only grow, and the activation table admits one row per contract.

Guard conditions of other kinds and the scope predicates of a guard are arbitrary
functions, as are the parts of a declaration's and a resolution's validation that
read the configuration, the evidence and the other stores.
-/
namespace Cruxible.ResolutionContracts
open JsonValue PythonDict AssertionState AppendOnly Fallible Cruxible.Graph PropertyValidation
open GraphOperations DirectWrites FreeWrites Storage EntityChanges MutationReceipts

variable {δ : Type} [DecidableEq δ]

structure ContractDeclaration where
  description : String
  checkAt : Timestamp
  expiresAt : Timestamp
  measurement : Value
  deriving DecidableEq

structure ResolutionContract (δ : Type) where
  contractId : String
  entityType : String
  entityId : String
  subjectContentDigest : δ
  declaration : ContractDeclaration
  openedAt : Timestamp
  actorContext : GovernedActorContext
  idempotencyKey : Option String := none
  receiptId : Option String := none
  deriving DecidableEq

/-- The join of a contract to the write that accepted its subject. The digest is
of the accepted content, not of the content that was promised against. -/
structure ContractActivation (δ : Type) where
  activationId : String
  contractId : String
  acceptanceReceiptId : Option String
  subjectContentDigest : δ
  activatedAt : Timestamp
  deriving DecidableEq

inductive ResolutionVerdict where
  | satisfied
  | contradicted
  | indeterminate
  deriving DecidableEq, Repr

def ResolutionVerdict.text : ResolutionVerdict → String
  | .satisfied => "satisfied"
  | .contradicted => "contradicted"
  | .indeterminate => "indeterminate"

inductive DispositionVerdict where
  | upheld
  | overturned
  deriving DecidableEq, Repr

structure ContractResolution where
  resolutionId : String
  contractId : String
  sequence : Nat
  verdict : ResolutionVerdict
  evidenceRefs : List Value
  observedAt : Timestamp
  recordedAt : Timestamp
  actorContext : GovernedActorContext
  note : Option String
  resolvingQueryReceiptId : Option String := none
  resolvingAttestationIds : List String := []
  receiptId : Option String
  deriving DecidableEq

structure ResolutionDisposition where
  dispositionId : String
  resolutionId : String
  sequence : Nat
  verdict : DispositionVerdict
  reviewerActorContext : GovernedActorContext
  note : Option String
  receiptId : Option String
  deriving DecidableEq

structure ContractStore (δ : Type) where
  contracts : List (ResolutionContract δ) := []
  activations : List (ContractActivation δ) := []
  resolutions : List ContractResolution := []
  dispositions : List ResolutionDisposition := []

namespace ContractStore

def getContract (s : ContractStore δ) (contractId : String) : Option (ResolutionContract δ) :=
  s.contracts.find? fun c => c.contractId = contractId

/-- Whether a contract has been consumed. -/
def activated (s : ContractStore δ) (contractId : String) : Bool :=
  s.activations.any fun a => a.contractId = contractId

def findIdempotentContract (s : ContractStore δ) (key entityType entityId : String)
    (actor : GovernedActorContext) : Option (ResolutionContract δ) :=
  s.contracts.find? fun c => c.idempotencyKey = some key ∧ c.entityType = entityType ∧
    c.entityId = entityId ∧ c.actorContext.orgId = actor.orgId ∧
    c.actorContext.actorId = actor.actorId

/-- `save_contract`, with the primary key and the idempotency index. -/
def saveContract (s : ContractStore δ) (c : ResolutionContract δ) :
    Except CoreError (ContractStore δ) := do
  refuseIf (s.getContract c.contractId ≠ none)
    (.storageIntegrity "resolution_contracts.contract_id")
  refuseIf (∃ key ∈ c.idempotencyKey,
      s.findIdempotentContract key c.entityType c.entityId c.actorContext ≠ none)
    (.storageIntegrity "idx_resolution_contracts_idempotency")
  .ok { s with contracts := s.contracts ++ [c] }

/-- Oldest first, then by contract id. -/
def opensBefore (c d : ResolutionContract δ) : Prop :=
  c.openedAt < d.openedAt ∨ (c.openedAt = d.openedAt ∧ c.contractId ≤ d.contractId)

instance : DecidableRel (opensBefore (δ := δ)) := fun _ _ => inferInstanceAs (Decidable (_ ∨ _))

/-- `find_eligible_contracts`: unexpired, never activated, pinned to this content. -/
def findEligibleContracts (s : ContractStore δ) (entityType entityId : String) (digest : δ)
    (now : Timestamp) : List (ResolutionContract δ) :=
  (s.contracts.filter fun c => c.entityType = entityType ∧ c.entityId = entityId ∧
    c.subjectContentDigest = digest ∧ now < c.declaration.expiresAt ∧
    s.activated c.contractId = false).insertionSort opensBefore

/-- `save_activation`: the foreign key, the primary key, and one row per contract. -/
def saveActivation (s : ContractStore δ) (a : ContractActivation δ) :
    Except CoreError (ContractStore δ) := do
  refuseIf (s.getContract a.contractId = none) (.storageIntegrity "FOREIGN KEY")
  refuseIf (∃ b ∈ s.activations, b.activationId = a.activationId)
    (.storageIntegrity "resolution_contract_activations.activation_id")
  refuseIf (s.activated a.contractId = true)
    (.storageIntegrity "resolution_contract_activations.contract_id")
  .ok { s with activations := s.activations ++ [a] }

def listResolutions (s : ContractStore δ) (contractId : String) : List ContractResolution :=
  (s.resolutions.filter fun r => r.contractId = contractId).insertionSort
    fun a b => a.sequence ≤ b.sequence

def listDispositions (s : ContractStore δ) (resolutionId : String) : List ResolutionDisposition :=
  (s.dispositions.filter fun d => d.resolutionId = resolutionId).insertionSort
    fun a b => a.sequence ≤ b.sequence

def saveResolution (s : ContractStore δ) (r : ContractResolution) :
    Except CoreError (ContractStore δ) := do
  refuseIf (∃ q ∈ s.resolutions, q.resolutionId = r.resolutionId ∨
      (q.contractId = r.contractId ∧ q.sequence = r.sequence))
    (.storageIntegrity "resolution_contract_resolutions")
  .ok { s with resolutions := s.resolutions ++ [r] }

def saveDisposition (s : ContractStore δ) (d : ResolutionDisposition) :
    Except CoreError (ContractStore δ) := do
  refuseIf (∃ q ∈ s.dispositions, q.dispositionId = d.dispositionId ∨
      (q.resolutionId = d.resolutionId ∧ q.sequence = d.sequence))
    (.storageIntegrity "resolution_contract_dispositions")
  .ok { s with dispositions := s.dispositions ++ [d] }

end ContractStore

inductive GuardCondition where
  | requiresResolutionContract
  | other
  deriving DecidableEq, Repr

/-- `MutationGuardSchema`, entity part. `wherePaths` are the keys of its `where`
clause. -/
structure MutationGuard where
  name : String
  entityType : Option String := none
  property : Option String := none
  newValue : Value := .null
  condition : GuardCondition := .other
  message : Option String := none
  wherePaths : List String := []
  deriving DecidableEq

structure ResolveRequest where
  contractId : String
  verdict : ResolutionVerdict
  observedAt : Timestamp
  evidenceRefs : List Value := []
  actorContext : Option GovernedActorContext
  note : Option String := none
  resolvingQueryReceiptId : Option String := none
  resolvingAttestationIds : List String := []
  resolutionId : String
  receiptId : Option String := none
  now : Timestamp := 0

/-- What the contract operations call and do not decide themselves. The evidence check sees the
whole request, whose minted id tells two calls apart. -/
structure ContractEnv (δ : Type) where
  w : WriteContext
  mutationGuards : List MutationGuard
  hash : Value → δ
  repr : Value → String
  scopeMatches : MutationGuard → EntityInstance → EntityGraph → Bool
  otherCondition : MutationGuard → ValidatedEntity → Option EntityInstance → EntityInstance →
    EntityGraph → Except CoreError (Option String)
  relationshipGuards : EntityGraph → List ValidatedRelationship → List String
  buildDeclaration : ContractDeclaration → Except CoreError ContractDeclaration
  validateMeasurementEvidence : ResolutionContract δ → ResolveRequest → Except CoreError Unit

/-- The text that `compute_entity_content_digest` hashes, as the data it spells. -/
def contentPayload (entityType entityId : String) (properties : Properties) : Value :=
  Value.canonical (.object [("entity_type", .str entityType), ("entity_id", .str entityId),
    ("properties", .object properties.entries)])

/-- `compute_entity_content_digest`: the serializer refuses non-finite numbers. -/
def computeEntityContentDigest (env : ContractEnv δ) (entityType entityId : String)
    (properties : Properties) : Except CoreError δ :=
  if storable properties then .ok (env.hash (contentPayload entityType entityId properties))
  else .error (.value "Out of range float values are not JSON compliant")

def entityDigest (env : ContractEnv δ) (e : EntityInstance) : Except CoreError δ :=
  computeEntityContentDigest env e.entityType e.entityId e.properties

structure ContractActivationIntent (δ : Type) where
  contractId : String
  guardName : String
  entityType : String
  entityId : String
  acceptedContentDigest : δ
  deriving DecidableEq

/-- `GuardEvaluation`; the passes, which only the receipt shows, are left out. -/
structure GuardEvaluation (δ : Type) where
  refusals : List String := []
  contractActivations : List (ContractActivationIntent δ) := []

def guardedValueList : Value → List Value
  | .array values => values
  | v => [v]

def normalizeGuarded (w : WriteContext) (schema : PropertySchema) (v : Value) :
    Except CoreError Value :=
  match normalizeValue w.rt v schema w.config with
  | .ok v => .ok v
  | .error (.valueError m) => .error (.value m)
  | .error (.overflowError m) => .error (.overflow m)
  | .error (.attributeError m) => .error (.attribute m)

/-- `_guard_transition_context`: the guarded property, its old value when there is
one, and its new value. -/
def guardTransitionContext (w : WriteContext) (guard : MutationGuard) (v : ValidatedEntity)
    (current : Option EntityInstance) (proposed : EntityInstance) :
    Except CoreError (Option (String × Option Value × Value)) :=
  if guard.entityType ≠ some v.entity.entityType then .ok none
  else match guard.property with
  | none => .ok none
  | some p =>
      if v.entity.properties.get? p = none then .ok none
      else match (w.config.entityTypes.get? v.entity.entityType).bind
        (fun s => s.properties.get? p) with
      | none => .error (.keyError p)
      | some schema => do
          let guarded ← (guardedValueList guard.newValue).mapM (normalizeGuarded w schema)
          let old := current.bind fun c => c.properties.get? p
          match proposed.properties.get? p with
          | none => .ok none
          | some new =>
              if (guarded.any fun g => new.pyEq g) = false then .ok none
              else if (old.any fun o => o.pyEq new) = true then .ok none
              else .ok (some (p, old, new))

def entityPredicateScopes : List String := ["candidate", "current", "entry", "source", "target"]

/-- `_scoped_property_name`. -/
def scopedPropertyName (path : String) : Option String :=
  match path.splitOn "." with
  | [scope, part, name] =>
      if scope ∈ entityPredicateScopes ∧ part = "properties" then some name else none
  | _ => none

/-- `_missing_scope_properties`. -/
def missingScopeProperties (guard : MutationGuard) (proposed : EntityInstance) : List String :=
  ((guard.wherePaths.filterMap scopedPropertyName).filter fun p =>
    proposed.properties.get? p = none).dedup

/-- `_properties_with_guarded_value_reverted`. -/
def propertiesWithGuardedValueReverted (property : String) (old : Option Value)
    (proposed : Properties) : Properties :=
  match old with
  | none => proposed.erase property
  | some v => proposed.set property v

def createWithGuardedValueRefusal : String :=
  "an outcome-tracked value cannot be set at create time: a resolution " ++
    "contract must be opened against a subject that already exists, and a " ++
    "subject cannot pre-exist its own creation. Propose the record first, open " ++
    "a resolution contract against it (cruxible outcome open), then accept it"

def noEligibleContractRefusal : String :=
  "no eligible resolution contract exists for this subject. An eligible " ++
    "contract is unexpired, never previously activated, and pinned to the " ++
    "subject content being accepted (editing the subject after opening means " ++
    "opening a new contract). Open one with cruxible outcome open"

def contentCoEditRefusal : String :=
  "this write changes subject content the contract never committed to: an " ++
    "eligible contract is pinned to the content it was opened against, and " ++
    "accepting an edited subject would ratify a promise made about different " ++
    "content. Re-open a contract against the edited subject (cruxible outcome " ++
    "open), then accept — or accept first and edit in a separate write"

def missingScopeRefusal (missing : List String) (proposed : EntityInstance) : String :=
  "the guard's scope property " ++ ", ".intercalate (missing.map fun n => "'" ++ n ++ "'") ++
    " is not set on " ++ proposed.entityType ++ ":" ++ proposed.entityId ++ ", so this " ++
    "guard cannot tell whether the transition needs a resolution contract. " ++
    "Outcome tracking is an explicit, reviewable choice: set the property " ++
    "to the value that demands a contract (outcome_tracking: required) or " ++
    "to the value that records no honest measurable outcome " ++
    "(not_applicable), then re-run the transition. Records created before " ++
    "the property existed must be migrated, not skipped"

/-- `_resolution_contract_condition_outcome`: an activation intent, or the reason
of a refusal. -/
def resolutionContractConditionOutcome (env : ContractEnv δ) (store : ContractStore δ)
    (consumed : List String) (now : Timestamp) (guard : MutationGuard) (missing : List String)
    (current : Option EntityInstance) (proposed : EntityInstance) (property : String)
    (old : Option Value) : Except CoreError (ContractActivationIntent δ ⊕ String) :=
  if missing ≠ [] then .ok (.inr (missingScopeRefusal missing proposed))
  else match current with
  | none => .ok (.inr createWithGuardedValueRefusal)
  | some current => do
      let preWriteDigest ← entityDigest env current
      let revertedDigest ← computeEntityContentDigest env proposed.entityType proposed.entityId
        (propertiesWithGuardedValueReverted property old proposed.properties)
      let eligible := store.findEligibleContracts current.entityType current.entityId
        preWriteDigest now
      match eligible.find? fun c => c.contractId ∉ consumed with
      | none => .ok (.inr noEligibleContractRefusal)
      | some contract =>
          if revertedDigest ≠ contract.subjectContentDigest then
            .ok (.inr contentCoEditRefusal)
          else do
            let accepted ← entityDigest env proposed
            .ok (.inl (ContractActivationIntent.mk contract.contractId guard.name
              proposed.entityType proposed.entityId accepted))

/-- `_guard_error_message`. -/
def guardErrorMessage (env : ContractEnv δ) (guard : MutationGuard) (e : EntityInstance)
    (newValue : Value) (reason : String) : String :=
  "Mutation guard '" ++ guard.name ++ "' rejected write " ++ e.entityType ++ ":" ++ e.entityId ++
    " " ++ guard.property.getD "None" ++ "=" ++ env.repr newValue ++ ": " ++
    "; ".intercalate ((guard.message.toList ++ [reason]).filter fun part => part ≠ "")

/-- One guard against one member. Contracts that an earlier member or guard of the
call has selected are not selected again. -/
def evaluateGuard (env : ContractEnv δ) (store : ContractStore δ) (now : Timestamp)
    (current : Option EntityInstance) (proposed : EntityInstance) (proposedGraph : EntityGraph)
    (v : ValidatedEntity) (ev : GuardEvaluation δ) (guard : MutationGuard) :
    Except CoreError (GuardEvaluation δ) :=
  match guard.condition with
  | .requiresResolutionContract => do
      let context ← guardTransitionContext env.w guard v current proposed
      match context with
      | none => .ok ev
      | some (property, old, new) =>
          let missing := missingScopeProperties guard proposed
          if missing = [] ∧ env.scopeMatches guard proposed proposedGraph = false then .ok ev
          else do
            let outcome ← resolutionContractConditionOutcome env store
              (ev.contractActivations.map (·.contractId)) now guard missing current proposed
              property old
            match outcome with
            | .inr reason => .ok { ev with refusals :=
                ev.refusals ++ [guardErrorMessage env guard v.entity new reason] }
            | .inl intent => .ok { ev with contractActivations :=
                ev.contractActivations ++ [intent] }
  | .other => do
      let refusal ← env.otherCondition guard v current proposed proposedGraph
      .ok { ev with refusals := ev.refusals ++ refusal.toList }

/-- `evaluate_mutation_guards`. -/
def evaluateMutationGuards (env : ContractEnv δ) (store : ContractStore δ) (now : Timestamp)
    (currentGraph proposedGraph : EntityGraph) (entities : List ValidatedEntity) :
    Except CoreError (GuardEvaluation δ) :=
  entities.foldlM (fun ev v =>
    match proposedGraph.getEntity v.entity.entityType v.entity.entityId with
    | none => .ok ev
    | some proposed => env.mutationGuards.foldlM (evaluateGuard env store now
        (currentGraph.getEntity v.entity.entityType v.entity.entityId) proposed proposedGraph v)
        ev) {}

/-- The messages that the guards raise against a write: a validation error inside
an evaluation is reported like a refusal. -/
def contractGuards (env : ContractEnv δ) (store : ContractStore δ) (now : Timestamp) : Guards where
  entity := fun current proposed entities =>
    match evaluateMutationGuards env store now current proposed entities with
    | .ok ev => ev.refusals
    | .error (.dataValidation m errors) => m :: errors
    | .error _ => []
  relationship := env.relationshipGuards

/-- `record_contract_activations`; `mint` numbers the fresh activation ids. -/
def recordContractActivations (store : ContractStore δ) (intents : List (ContractActivationIntent δ))
    (mint : Nat → String) (receiptId : Option String) (now : Timestamp) :
    Except CoreError (ContractStore δ) :=
  intents.zipIdx.foldlM (fun s i => s.saveActivation
    { activationId := mint i.2, contractId := i.1.contractId, acceptanceReceiptId := receiptId,
      subjectContentDigest := i.1.acceptedContentDigest, activatedAt := now }) store

structure ServiceState (δ : Type) where
  graph : EntityGraph
  contracts : ContractStore δ := {}

/-- A direct write: its request, the call's clock and receipt, and the minted
activation ids. -/
structure DirectWrite where
  request : EntityRequest
  call : Call := {}
  mint : Nat → String

def DirectWrite.mutation (env : ContractEnv δ) (store : ContractStore δ) (d : DirectWrite) :
    Mutation where
  w := env.w
  guards := contractGuards env store d.call.now
  call := d.call
  request := d.request

/-- The write transaction of a direct write. The rows and the guard evaluation come
from `loaded`, the contracts from the transaction's own store. -/
def DirectWrite.commit (env : ContractEnv δ) (d : DirectWrite) (loaded : EntityGraph)
    (s : ServiceState δ) : Except CoreError (ServiceState δ) := do
  let m := d.mutation env s.contracts
  let p ← m.prepare loaded
  let proposed ← applyAllPrepared m.w m.origin.1 m.origin.2 m.call p.entities.graph
    (p.relationships.map fun r => (r.1, none))
  let ev ← evaluateMutationGuards env s.contracts d.call.now loaded proposed.graph
    p.entities.validated
  let contracts ← recordContractActivations s.contracts ev.contractActivations d.mint
    d.call.receiptId d.call.now
  let graph ← m.save s.graph p
  .ok { graph := graph, contracts := contracts }

structure OpenRequest where
  entityType : String
  entityId : String
  declaration : ContractDeclaration
  actorContext : Option GovernedActorContext
  idempotencyKey : Option String := none
  contractId : String
  receiptId : Option String := none
  now : Timestamp := 0

def requireActor (role : String) :
    Option GovernedActorContext → Except CoreError GovernedActorContext
  | none => .error (.config ("resolution contract " ++ role ++ " actor context is required"))
  | some a => .ok a

/-- `_outcome_guard_covers`. -/
def outcomeGuardCovers (env : ContractEnv δ) (entityType : String) : Bool :=
  env.mutationGuards.any fun g =>
    g.condition = .requiresResolutionContract ∧ g.entityType = some entityType

def requireSubject (s : ServiceState δ) (entityType entityId : String) :
    Except CoreError EntityInstance :=
  match s.graph.getEntity entityType entityId with
  | some e => .ok e
  | none => .error (.config ("resolution contract subject '" ++ entityType ++ ":" ++ entityId ++
      "' does not exist; propose the record first, then open a contract against it"))

/-- `service_open_resolution_contract`. A replay of an idempotency key writes
nothing. -/
def serviceOpenResolutionContract (env : ContractEnv δ) (o : OpenRequest) (s : ServiceState δ) :
    Except CoreError (ServiceState δ) := do
  let actor ← requireActor "opening" o.actorContext
  let subject ← requireSubject s o.entityType o.entityId
  let declaration ← env.buildDeclaration o.declaration
  match o.idempotencyKey.bind fun key =>
      s.contracts.findIdempotentContract key o.entityType o.entityId actor with
  | some original => do
      refuseIf (original.declaration ≠ declaration)
        (.config "idempotency key replay diverges from the original contract")
      .ok s
  | none => do
      refuseIf (outcomeGuardCovers env o.entityType = false)
        (.config ("no requires_resolution_contract mutation guard covers entity type '" ++
          o.entityType ++ "'"))
      let digest ← entityDigest env subject
      let contracts ← s.contracts.saveContract
        { contractId := o.contractId, entityType := o.entityType, entityId := o.entityId,
          subjectContentDigest := digest, declaration := declaration, openedAt := o.now,
          actorContext := actor, idempotencyKey := o.idempotencyKey, receiptId := o.receiptId }
      .ok { s with contracts := contracts }

/-- `_next_resolution_sequence`: one standing answer, unless a reviewer overturned
it. -/
def nextResolutionSequence (s : ContractStore δ) (contractId : String) : Except CoreError Nat :=
  match (s.listResolutions contractId).getLast? with
  | none => .ok 1
  | some latest =>
      match (s.listDispositions latest.resolutionId).getLast? with
      | some d =>
          if d.verdict = .overturned then .ok (latest.sequence + 1)
          else .error (.config ("resolution contract '" ++ contractId ++
            "' already carries a standing '" ++ latest.verdict.text ++ "' resolution"))
      | none => .error (.config ("resolution contract '" ++ contractId ++
          "' already carries a standing '" ++ latest.verdict.text ++ "' resolution"))

def requireContract (s : ContractStore δ) (contractId : String) :
    Except CoreError (ResolutionContract δ) :=
  match s.getContract contractId with
  | some c => .ok c
  | none => .error (.config ("resolution contract '" ++ contractId ++ "' not found"))

/-- `service_resolve_outcome`. -/
def serviceResolveOutcome (env : ContractEnv δ) (r : ResolveRequest) (s : ServiceState δ) :
    Except CoreError (ServiceState δ) := do
  let actor ← requireActor "resolving" r.actorContext
  let contract ← requireContract s.contracts r.contractId
  refuseIf (s.contracts.activated r.contractId = false)
    (.config ("resolution contract '" ++ r.contractId ++ "' was never activated by an acceptance"))
  let sequence ← nextResolutionSequence s.contracts r.contractId
  refuseIf (r.verdict ≠ .indeterminate ∧ r.evidenceRefs = [])
    (.config ("verdict '" ++ r.verdict.text ++ "' requires at least one evidence ref"))
  refuseIf (r.verdict = .contradicted ∧ blank (r.note.getD "") = true)
    (.config "verdict 'contradicted' requires a note")
  refuseIf (r.now < r.observedAt) (.config "observed_at must be <= recorded_at")
  refuseIf (r.verdict = .satisfied ∧ r.observedAt < contract.declaration.checkAt)
    (.config "verdict 'satisfied' requires observed_at at or after the declared check_at")
  env.validateMeasurementEvidence contract r
  let contracts ← s.contracts.saveResolution
    { resolutionId := r.resolutionId, contractId := r.contractId, sequence := sequence,
      verdict := r.verdict, evidenceRefs := r.evidenceRefs, observedAt := r.observedAt,
      recordedAt := r.now, actorContext := actor, note := r.note,
      resolvingQueryReceiptId := r.resolvingQueryReceiptId,
      resolvingAttestationIds := r.resolvingAttestationIds, receiptId := r.receiptId }
  .ok { s with contracts := contracts }

structure DisposeRequest where
  resolutionId : String
  verdict : DispositionVerdict
  actorContext : Option GovernedActorContext
  note : Option String := none
  dispositionId : String
  receiptId : Option String := none

/-- `_resolution_answered_after`. -/
def resolutionAnsweredAfter (s : ContractStore δ) (r : ContractResolution)
    (d : ResolutionDisposition) : Bool :=
  d.verdict = .overturned &&
    (s.listResolutions r.contractId).any fun later => r.sequence < later.sequence

def requireResolution (s : ContractStore δ) (resolutionId : String) :
    Except CoreError ContractResolution :=
  match s.resolutions.find? fun r => r.resolutionId = resolutionId with
  | some r => .ok r
  | none => .error (.config ("resolution '" ++ resolutionId ++ "' not found"))

/-- `service_dispose_resolution`. -/
def serviceDisposeResolution (q : DisposeRequest) (s : ServiceState δ) :
    Except CoreError (ServiceState δ) := do
  let reviewer ← requireActor "reviewer" q.actorContext
  let resolution ← requireResolution s.contracts q.resolutionId
  let superseded := (s.contracts.listDispositions q.resolutionId).getLast?
  refuseIf ((superseded.any (resolutionAnsweredAfter s.contracts resolution)) = true)
    (.config ("resolution '" ++ q.resolutionId ++ "' was already overturned and answered " ++
      "by a later resolution; dispose that resolution instead"))
  let contracts ← s.contracts.saveDisposition
    { dispositionId := q.dispositionId, resolutionId := q.resolutionId,
      sequence := superseded.elim 1 (fun d => d.sequence + 1), verdict := q.verdict,
      reviewerActorContext := reviewer, note := q.note, receiptId := q.receiptId }
  .ok { s with contracts := contracts }

end Cruxible.ResolutionContracts
