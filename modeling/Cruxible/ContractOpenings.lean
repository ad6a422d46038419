import Cruxible.ContractHistories
import Cruxible.QueryEngine
import Cruxible.ReadMetadata

/-!
# Contracts opened again

A repeated request to open a contract is compared with the declaration that the first one
stored. A query measurement pins the definition and the execution options of its query, and
the repeated request pins them again from the configuration of its own time, before the
comparison.
-/
namespace Cruxible.ResolutionContracts
open JsonValue PythonDict AssertionState Fallible Cruxible.Graph PropertyValidation
open ContractConsumption ContractHistories QueryEngine ReadMetadata

/-- `QueryMeasurement`; the expectation is what its dump shows. -/
structure QueryMeasurement where
  queryName : String
  params : Dict String Value := ∅
  expect : Value
  queryDefinitionDigest : Option String := none
  executionOptions : Option (List (String × String)) := none

structure AttestationMeasurement where
  relationshipType : String
  fromType : String
  fromId : String
  toType : String
  toId : String

inductive ContractMeasurement where
  | query (m : QueryMeasurement)
  | attestation (m : AttestationMeasurement)

/-- `model_dump(mode="json", exclude_none=True)`. -/
def ContractMeasurement.dump : ContractMeasurement → Value
  | .query m => .object ([("kind", .str "query"), ("query_name", .str m.queryName),
      ("params", .object m.params.entries), ("expect", m.expect)] ++
      (m.queryDefinitionDigest.map fun d => ("query_definition_digest", Value.str d)).toList ++
      (m.executionOptions.map fun options => ("execution_options",
        Value.object (options.map fun e => (e.1, .str e.2)))).toList)
  | .attestation m => .object [("kind", .str "attestation"),
      ("relationship_type", .str m.relationshipType), ("from_type", .str m.fromType),
      ("from_id", .str m.fromId), ("to_type", .str m.toType), ("to_id", .str m.toId)]

/-- A named query, with its dump. -/
structure NamedQuery where
  schema : NamedQuerySchema
  definition : Value

/-- What a declaration reads of the live configuration. -/
structure MeasurementConfig where
  env : QueryEnv
  namedQueries : Dict String NamedQuery := ∅

/-- The class validation of a declaration, the digest of a canonical text, and `repr`. -/
structure MeasurementRuntime where
  modelValidate : ContractDeclaration → Except String ContractMeasurement
  sha256 : Value → String
  repr : Value → String

/-- The root of a reference `$input.<root>[...]`. -/
def inputRoot (s : String) : Option String :=
  (dropMarker "$input." s).map fun rest => String.ofList (rest.takeWhile (· ≠ '.'))

/-! `_input_reference_roots`. -/
mutual

def inputReferenceRoots : Value → List String
  | .object entries => entryRoots entries
  | .array items => itemRoots items
  | .str s => (inputRoot s).toList
  | _ => []

def entryRoots : List (String × Value) → List String
  | [] => []
  | (key, v) :: rest => (inputRoot key).toList ++ inputReferenceRoots v ++ entryRoots rest

def itemRoots : List Value → List String
  | [] => []
  | v :: rest => inputReferenceRoots v ++ itemRoots rest

end

section Declarations

variable (rt : MeasurementRuntime) (config : MeasurementConfig)

/-- The primary key of an entry point. -/
def entryKey (q : NamedQuery) : Option String :=
  q.schema.entryPoint.bind fun e =>
    (config.env.entityTypes.get? e).bind EntityTypeSchema.getPrimaryKey

/-- `_accepted_query_param_keys`. -/
def acceptedQueryParamKeys (q : NamedQuery) : List String :=
  (entryKey config q).toList ++ inputReferenceRoots q.definition

def names (texts : List String) : Value :=
  .array ((texts.dedup.insertionSort (· ≤ ·)).map .str)

def checkEntryPoint (m : QueryMeasurement) (q : NamedQuery) : Except CoreError Unit :=
  match q.schema.entryPoint with
  | none => .ok ()
  | some e =>
      match entryKey config q with
      | none => .error (.config ("query measurement query '" ++ m.queryName ++
          "' has entry point '" ++ e ++ "', which declares no primary key"))
      | some key => refuseIf (key ∉ m.params.keys)
          (.config ("query measurement params must supply '" ++ key ++ "' for entry point '" ++ e ++
            "'; got " ++ rt.repr (names m.params.keys)))

/-- `_validated_query_schema`. -/
def validatedQuerySchema (m : QueryMeasurement) : Except CoreError NamedQuery :=
  match config.namedQueries.get? m.queryName with
  | none => .error (.config ("query measurement query_name '" ++ m.queryName ++
      "' is not defined in named_queries"))
  | some q => do
      checkEntryPoint rt config m q
      let accepted := acceptedQueryParamKeys config q
      let unexpected := m.params.keys.filter (· ∉ accepted)
      refuseIf (unexpected ≠ []) (.config ("query measurement params carry key(s) " ++
        rt.repr (names unexpected) ++ " that query '" ++ m.queryName ++
        "' does not accept; accepted keys are " ++ rt.repr (names accepted)))
      .ok q

def stateText : QueryVisibilityState → String
  | .live => "live"
  | .accepted => "accepted"
  | .all => "all"
  | .notLive => "not-live"
  | .pending => "pending"
  | .reviewable => "reviewable"

def shapeText : QueryResultShape → String
  | .entity => "entity"
  | .path => "path"
  | .relationship => "relationship"

def dedupeText : QueryDedupe → String
  | .entity => "entity"
  | .path => "path"
  | .none => "none"

/-- `_pinned_execution_options`. -/
def pinnedExecutionOptions (m : QueryMeasurement) (q : NamedQuery) :
    Except CoreError (List (String × String)) :=
  match validateEffectiveQueryOptions config.env m.queryName q.schema with
  | .ok _ => .ok [("relationship_state", stateText q.schema.relationshipState),
      ("result_shape", shapeText q.schema.resultShape), ("dedupe", dedupeText q.schema.dedupe)]
  | .error (.queryExecution text) => .error (.config ("query measurement query '" ++ m.queryName ++
      "' cannot be executed as configured: " ++ text))
  | .error e => .error e

/-- A query measurement with the pins of the configuration. -/
def pinned (m : QueryMeasurement) : Except CoreError QueryMeasurement := do
  let q ← validatedQuerySchema rt config m
  let options ← pinnedExecutionOptions config m q
  .ok { m with queryDefinitionDigest := some (rt.sha256 q.definition),
               executionOptions := some options }

/-- `_build_declaration`. -/
def buildDeclaration (d : ContractDeclaration) : Except CoreError ContractDeclaration :=
  match rt.modelValidate d with
  | .error text => .error (.config ("invalid resolution contract declaration: " ++ text))
  | .ok (.attestation m) => .ok { d with measurement := (ContractMeasurement.attestation m).dump }
  | .ok (.query m) => do
      let m ← pinned rt config m
      .ok { d with measurement := (ContractMeasurement.query m).dump }

end Declarations

/-- The configuration pins a declaration as another one did. -/
def PinsAlike (rt : MeasurementRuntime) (before after : MeasurementConfig)
    (d : ContractDeclaration) : Prop :=
  ∀ m, rt.modelValidate d = .ok (.query m) → pinned rt after m = pinned rt before m

theorem pinned_dump {rt : MeasurementRuntime} {before after : MeasurementConfig}
    {m p q : QueryMeasurement} (hp : pinned rt before m = .ok p) (hq : pinned rt after m = .ok q)
    (h : (ContractMeasurement.query p).dump = (ContractMeasurement.query q).dump) : p = q := by
  obtain ⟨s, -, hp⟩ := bind_eq_ok.mp hp
  obtain ⟨options, -, hp⟩ := bind_eq_ok.mp hp
  obtain ⟨s', -, hq⟩ := bind_eq_ok.mp hq
  obtain ⟨options', -, hq⟩ := bind_eq_ok.mp hq
  cases hp
  cases hq
  simp only [ContractMeasurement.dump, Option.map_some, Option.toList_some, Value.object.injEq,
    List.cons_append, List.nil_append, List.cons.injEq, Prod.mk.injEq, true_and, and_true,
    Value.str.injEq] at h
  have hinj : Function.Injective fun e : String × String => (e.1, Value.str e.2) := by
    rintro ⟨a, b⟩ ⟨c, d⟩ heq
    simpa using heq
  rw [h.1, List.map_injective_iff.mpr hinj h.2]

theorem buildDeclaration_eq_iff {rt : MeasurementRuntime} {before after : MeasurementConfig}
    {d declared : ContractDeclaration} (h : buildDeclaration rt before d = .ok declared) :
    buildDeclaration rt after d = .ok declared ↔ PinsAlike rt before after d := by
  unfold PinsAlike
  unfold buildDeclaration at h ⊢
  cases hvalid : rt.modelValidate d with
  | error text =>
    rw [hvalid] at h
    cases h
  | ok measurement =>
    rw [hvalid] at h
    cases measurement with
    | attestation m => simpa using h
    | query m =>
      obtain ⟨p, hp, h⟩ := bind_eq_ok.mp h
      simp only [Except.ok.injEq, ContractMeasurement.query.injEq, forall_eq', hp]
      constructor
      · intro hafter
        obtain ⟨q, hq, hafter⟩ := bind_eq_ok.mp hafter
        rw [← h] at hafter
        have hdump := congrArg ContractDeclaration.measurement (Except.ok.inj hafter)
        rw [hq, pinned_dump hq hp hdump]
      · intro hafter
        rw [hafter]
        exact h

structure ContractOpenResult (δ : Type) where
  contract : ResolutionContract δ
  idempotentReplay : Bool := false
  receiptId : Option String := none

variable {δ : Type}

/-- `service_open_resolution_contract`, with its result. -/
def openResolutionContract (env : ContractEnv δ) (o : OpenRequest) (s : ServiceState δ) :
    Except CoreError (ServiceState δ × ContractOpenResult δ) := do
  let actor ← requireActor "opening" o.actorContext
  let subject ← requireSubject s o.entityType o.entityId
  let declaration ← env.buildDeclaration o.declaration
  match o.idempotencyKey.bind fun key =>
      s.contracts.findIdempotentContract key o.entityType o.entityId actor with
  | some original => do
      refuseIf (original.declaration ≠ declaration)
        (.config "idempotency key replay diverges from the original contract")
      .ok (s, { contract := original, idempotentReplay := true, receiptId := original.receiptId })
  | none => do
      refuseIf (outcomeGuardCovers env o.entityType = false)
        (.config ("no requires_resolution_contract mutation guard covers entity type '" ++
          o.entityType ++ "'"))
      let digest ← entityDigest env subject
      let contract : ResolutionContract δ :=
        { contractId := o.contractId, entityType := o.entityType, entityId := o.entityId,
          subjectContentDigest := digest, declaration := declaration, openedAt := o.now,
          actorContext := actor, idempotencyKey := o.idempotencyKey, receiptId := o.receiptId }
      let contracts ← s.contracts.saveContract contract
      .ok ({ s with contracts := contracts }, { contract := contract, receiptId := o.receiptId })

theorem openResolutionContract_state (env : ContractEnv δ) (o : OpenRequest) (s : ServiceState δ) :
    Prod.fst <$> openResolutionContract env o s = serviceOpenResolutionContract env o s := by
  unfold openResolutionContract serviceOpenResolutionContract
  simp only [map_bind]
  refine bind_congr fun actor => bind_congr fun subject => bind_congr fun declaration => ?_
  cases o.idempotencyKey.bind fun key =>
      s.contracts.findIdempotentContract key o.entityType o.entityId actor with
  | none | some original =>
    simp only [map_bind]
    rfl

/-- What an accepted opening leaves behind: the contract that its key finds, and the
declaration that was compared or stored. -/
structure Opened (env : ContractEnv δ) (o : OpenRequest) (key : String) (s : ServiceState δ)
    (c : ResolutionContract δ) : Prop where
  found : ∃ actor, requireActor "opening" o.actorContext = .ok actor ∧
    s.contracts.findIdempotentContract key o.entityType o.entityId actor = some c
  declared : env.buildDeclaration o.declaration = .ok c.declaration

variable {env : ContractEnv δ} {key : String} {o : OpenRequest} {s : ServiceState δ}

theorem opened_of_ok (hkey : o.idempotencyKey = some key) {t : ServiceState δ}
    {r : ContractOpenResult δ} (h : openResolutionContract env o s = .ok (t, r)) :
    Opened env o key t r.contract := by
  unfold openResolutionContract at h
  obtain ⟨actor, hactor, h⟩ := bind_eq_ok.mp h
  obtain ⟨subject, -, h⟩ := bind_eq_ok.mp h
  obtain ⟨declaration, hdeclaration, h⟩ := bind_eq_ok.mp h
  rw [hkey] at h
  simp only [Option.bind_some] at h
  split at h
  case h_1 original hfound =>
    obtain ⟨⟨⟩, hsame, h⟩ := bind_eq_ok.mp h
    rw [refuseIf_eq_ok, not_not] at hsame
    cases h
    exact ⟨⟨actor, hactor, hfound⟩, hsame ▸ hdeclaration⟩
  case h_2 hfound =>
    obtain ⟨⟨⟩, -, h⟩ := bind_eq_ok.mp h
    obtain ⟨digest, -, h⟩ := bind_eq_ok.mp h
    obtain ⟨contracts, hsave, h⟩ := bind_eq_ok.mp h
    cases h
    obtain ⟨⟨⟩, -, hsave⟩ := bind_eq_ok.mp hsave
    obtain ⟨⟨⟩, -, hsave⟩ := bind_eq_ok.mp hsave
    cases hsave
    refine ⟨⟨actor, hactor, ?_⟩, hdeclaration⟩
    unfold ContractStore.findIdempotentContract at hfound ⊢
    rw [List.find?_append, hfound]
    simp

/-- A repeated request succeeds as a replay exactly if its subject exists and its declaration
is built as it was stored. -/
theorem Opened.replays_iff {live : ContractEnv δ} {c : ResolutionContract δ}
    (h : Opened env o key s c) (hkey : o.idempotencyKey = some key) :
    openResolutionContract live o s =
        .ok (s, { contract := c, idempotentReplay := true, receiptId := c.receiptId }) ↔
      (s.graph.getEntity o.entityType o.entityId).isSome ∧
        live.buildDeclaration o.declaration = .ok c.declaration := by
  obtain ⟨actor, hactor, hfound⟩ := h.found
  unfold openResolutionContract requireSubject
  rw [hactor, hkey]
  cases hsubject : s.graph.getEntity o.entityType o.entityId with
  | none => simp [bind, Except.bind]
  | some subject =>
    cases hbuild : live.buildDeclaration o.declaration with
    | error e => simp [bind, Except.bind]
    | ok declaration =>
      by_cases hsame : c.declaration = declaration
      · simp [bind, Except.bind, hfound, hsame, refuseIf]
      · simp [bind, Except.bind, hfound, hsame, refuseIf, Ne.symm hsame]

/-- An instance: its configuration, and its graph and contract tables. -/
structure Instance (δ : Type) where
  env : ContractEnv δ
  config : MeasurementConfig
  state : ServiceState δ

def Instance.live (rt : MeasurementRuntime) (i : Instance δ) : ContractEnv δ :=
  { i.env with buildDeclaration := buildDeclaration rt i.config }

/-- What happens to an instance: another configuration, or an operation. -/
inductive Change (δ : Type) where
  | configure (env : ContractEnv δ) (config : MeasurementConfig)
  | operation (o : Operation δ)

variable [DecidableEq δ]

def Instance.after (rt : MeasurementRuntime) (i : Instance δ) : Change δ → Instance δ
  | .configure env config => { i with env := env, config := config }
  | .operation o => { i with state := perform (i.live rt) i.state o }

def Instance.later (rt : MeasurementRuntime) (i : Instance δ) (changes : List (Change δ)) :
    Instance δ :=
  changes.foldl (Instance.after rt) i

section Kept

variable {s t : ServiceState δ} {key entityType entityId : String} {actor : GovernedActorContext}
  {c : ResolutionContract δ}

omit [DecidableEq δ] in
theorem records_contracts {s t : ContractStore δ} {intents : List (ContractActivationIntent δ)}
    {mint : Nat → String} {receiptId : Option String} {now : Timestamp}
    (h : recordContractActivations s intents mint receiptId now = .ok t) :
    t.contracts = s.contracts := by
  unfold recordContractActivations at h
  apply foldlM_invariant (fun u : ContractStore δ => u.contracts = s.contracts) _ _ h
  · rfl
  · intro p _ a b ha hstep
    obtain ⟨rfl, -⟩ := saveActivation_ok hstep
    exact ha

theorem found_commitState {env : ContractEnv δ} {p : Plan} (h : commitState env p s = .ok t)
    (hfound : s.contracts.findIdempotentContract key entityType entityId actor = some c) :
    t.contracts.findIdempotentContract key entityType entityId actor = some c := by
  unfold ContractStore.findIdempotentContract at hfound ⊢
  cases p with
  | write d loaded =>
    obtain ⟨a⟩ := accepted_of_commit h
    rw [records_contracts a.records]
    exact hfound
  | openContract o =>
    obtain ⟨rows, rfl, -⟩ := serviceOpenResolutionContract_ok h
    rw [List.find?_append, hfound, Option.some_or]
  | resolveOutcome r =>
    rw [(serviceResolveOutcome_ok h).2.1]
    exact hfound
  | disposeResolution q =>
    rw [(serviceDisposeResolution_ok h).2.1]
    exact hfound
  | other g =>
    obtain ⟨g', -, h⟩ := bind_eq_ok.mp h
    cases h
    exact hfound

theorem found_later (rt : MeasurementRuntime) {i : Instance δ} (changes : List (Change δ))
    (hfound : i.state.contracts.findIdempotentContract key entityType entityId actor = some c) :
    (i.later rt changes).state.contracts.findIdempotentContract key entityType entityId actor =
      some c := by
  induction changes generalizing i with
  | nil => exact hfound
  | cons change changes ih =>
    refine @ih (i.after rt change) ?_
    cases change with
    | configure env config => exact hfound
    | operation o =>
      change (perform (i.live rt) i.state o).contracts.findIdempotentContract key entityType
        entityId actor = some c
      unfold perform
      split
      case h_1 t h =>
        cases o with
        | transaction p => exact found_commitState h hfound
        | activate intents mint receiptId now =>
          obtain ⟨contracts, hrecord, h⟩ := bind_eq_ok.mp h
          cases h
          unfold ContractStore.findIdempotentContract at hfound ⊢
          rw [records_contracts hrecord]
          exact hfound
      case h_2 => exact hfound

end Kept

/-- In every later state of an instance, an accepted request made again under its key returns
the contract of the first one and changes nothing if and only if the subject still exists and
the configuration pins the measurement as it did. -/
theorem open_replays_iff (rt : MeasurementRuntime) {i : Instance δ} {o : OpenRequest}
    {key : String} (hkey : o.idempotencyKey = some key) {t : ServiceState δ}
    {r : ContractOpenResult δ} (h : openResolutionContract (i.live rt) o i.state = .ok (t, r))
    (changes : List (Change δ)) (contractId : String) (receiptId : Option String)
    (now : Timestamp) :
    let later := { i with state := t }.later rt changes
    openResolutionContract (later.live rt)
        { o with contractId := contractId, receiptId := receiptId, now := now } later.state =
      .ok (later.state, { contract := r.contract, idempotentReplay := true,
                          receiptId := r.contract.receiptId }) ↔
      (later.state.graph.getEntity o.entityType o.entityId).isSome ∧
        PinsAlike rt i.config later.config o.declaration := by
  intro later
  have hopened := opened_of_ok hkey h
  obtain ⟨actor, hactor, hfound⟩ := hopened.found
  have hlater : Opened (i.live rt)
      { o with contractId := contractId, receiptId := receiptId, now := now } key later.state
      r.contract :=
    ⟨⟨actor, hactor, found_later rt changes hfound⟩, hopened.declared⟩
  rw [hlater.replays_iff hkey]
  exact and_congr_right' (buildDeclaration_eq_iff hopened.declared)

/-! A contract that is measured by a query over the decisions. -/

def decisionsQuery (limit : Option Nat) : NamedQuery where
  schema := { mode := .collection, returns := "Decision", resultShape := .entity,
              dedupe := .entity, limit := limit }
  definition := .object ([("mode", .str "collection"), ("traversal", .array []),
    ("returns", .str "Decision"), ("result_shape", .str "entity"), ("dedupe", .str "entity"),
    ("relationship_state", .str "live"), ("allow_relationship_state_override", .bool false),
    ("order_by", .array []), ("include", .object [])] ++
    (limit.map fun n => ("limit", Value.int n)).toList)

def decisionsConfig (limit : Option Nat) : MeasurementConfig where
  env := { text := decisionEnv.repr }
  namedQueries := Dict.ofList [("decisions", decisionsQuery limit)]

def countMeasurement : QueryMeasurement where
  queryName := "decisions"
  expect := .object [("min_count", .int 1), ("condition_scope", .str "all")]

/-- The digests of the query without a limit, and with the limit 10. -/
def countRuntime : MeasurementRuntime where
  modelValidate := fun _ => .ok (.query countMeasurement)
  sha256 := fun v =>
    if v = (decisionsQuery none).definition then
      "sha256:5cf8b168af9464992817fb76a8a3d62766f7ac88d8e4b91693accd0c6ac35200"
    else "sha256:4391eba676914adc5022783933b863b3bddc0901c3f6615951feacaeba7b4705"
  repr := decisionEnv.repr

/-- The decision is proposed. -/
def proposedInstance : Instance Value where
  env := decisionEnv
  config := decisionsConfig none
  state := run decisionEnv { graph := {} } [writeDecision "proposed"]

def countRequest (contractId : String) : OpenRequest where
  entityType := "Decision"
  entityId := "d"
  declaration :=
    { description := "a decision", checkAt := 5, expiresAt := 9
      measurement := .object [("kind", .str "query"), ("query_name", .str "decisions"),
        ("expect", .object [("min_count", .int 1)])] }
  actorContext := some opener
  idempotencyKey := some "open-d"
  contractId := contractId

theorem countRequest_opens : ∃ t r, openResolutionContract (proposedInstance.live countRuntime)
    (countRequest "RSC-1") proposedInstance.state = .ok (t, r) := by
  have hok : (openResolutionContract (proposedInstance.live countRuntime)
      (countRequest "RSC-1") proposedInstance.state).toOption.isSome = true := by
    decide +kernel
  cases hopen : openResolutionContract (proposedInstance.live countRuntime)
      (countRequest "RSC-1") proposedInstance.state with
  | error e => simp [hopen, Except.toOption] at hok
  | ok p => exact ⟨p.1, p.2, rfl⟩

/-- The guard may be dropped. -/
theorem open_replays_iff_unguarded :
    ∃ t r, openResolutionContract (proposedInstance.live countRuntime) (countRequest "RSC-1")
        proposedInstance.state = .ok (t, r) ∧
      let later := { proposedInstance with state := t }.later countRuntime
        [.configure { decisionEnv with mutationGuards := [] } (decisionsConfig none)]
      openResolutionContract (later.live countRuntime) (countRequest "RSC-2") later.state =
        .ok (later.state, { contract := r.contract, idempotentReplay := true,
                            receiptId := r.contract.receiptId }) := by
  obtain ⟨t, r, h⟩ := countRequest_opens
  refine ⟨t, r, h, ?_⟩
  refine (open_replays_iff countRuntime rfl h _ "RSC-2" none 0).mpr ⟨?_, ?_⟩
  · have hgraph : t.graph = proposedInstance.state.graph := by
      have hopen : serviceOpenResolutionContract (proposedInstance.live countRuntime)
          (countRequest "RSC-1") proposedInstance.state = .ok t := by
        rw [← openResolutionContract_state, h]
        rfl
      obtain ⟨rows, hrows, -⟩ := serviceOpenResolutionContract_ok hopen
      rw [hrows]
    change (t.graph.getEntity "Decision" "d").isSome = true
    rw [hgraph]
    decide +kernel
  · intro m _
    rfl

/-- With a limit on its query, the request is refused that was accepted before. -/
theorem redefined_query_is_not_replayed :
    ∃ t r, openResolutionContract (proposedInstance.live countRuntime) (countRequest "RSC-1")
        proposedInstance.state = .ok (t, r) ∧
      let later := { proposedInstance with state := t }.later countRuntime
        [.configure decisionEnv (decisionsConfig (some 10))]
      openResolutionContract (later.live countRuntime) (countRequest "RSC-2") later.state ≠
        .ok (later.state, { contract := r.contract, idempotentReplay := true,
                            receiptId := r.contract.receiptId }) := by
  obtain ⟨t, r, h⟩ := countRequest_opens
  have hopened := opened_of_ok (rfl : (countRequest "RSC-1").idempotencyKey = some "open-d") h
  have hagain : Opened (proposedInstance.live countRuntime) (countRequest "RSC-2") "open-d" t
      r.contract := ⟨hopened.found, hopened.declared⟩
  refine ⟨t, r, h, ?_⟩
  intro later hreplay
  have hbuilt := ((hagain.replays_iff rfl).mp hreplay).2
  have halike : PinsAlike countRuntime (decisionsConfig none) (decisionsConfig (some 10))
      (countRequest "RSC-1").declaration :=
    (@buildDeclaration_eq_iff countRuntime (decisionsConfig none) _ _ _ hopened.declared).mp hbuilt
  have hdigests := congrArg (fun p => p.toOption.map QueryMeasurement.queryDefinitionDigest)
    (halike countMeasurement rfl)
  revert hdigests
  change (pinned countRuntime (decisionsConfig (some 10)) countMeasurement).toOption.map
      QueryMeasurement.queryDefinitionDigest ≠
    (pinned countRuntime (decisionsConfig none) countMeasurement).toOption.map
      QueryMeasurement.queryDefinitionDigest
  decide +kernel

end Cruxible.ResolutionContracts
