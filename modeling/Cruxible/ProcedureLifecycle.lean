import Cruxible.Fallible
import Cruxible.Graph
import Cruxible.KeyedTable
import Cruxible.Permissions
import Mathlib.Data.List.Sort

/-!
# The life of a procedure

`procedures` of `procedure/store.py` under the proposals, acceptances, rejections,
withdrawals and retirements of `service/procedures.py`. Each of them is one
transaction, so that an interleaving of requests is a sequence of them.
-/
namespace Cruxible.ProcedureLifecycle
open PythonDict KeyedTable AssertionState Fallible Permissions
open Cruxible.Graph (strip)

variable {δ : Type}

inductive ProcedureStatus where
  | pending
  | live
  | rejected
  | retired
  | withdrawn
  deriving DecidableEq, Repr

def ProcedureStatus.text : ProcedureStatus → String
  | .pending => "pending"
  | .live => "live"
  | .rejected => "rejected"
  | .retired => "retired"
  | .withdrawn => "withdrawn"

/-- `body` stands for the fields that the lifecycle does not read. -/
structure ProcedureDefinition (δ : Type) where
  name : String
  body : δ

/-- A row of `procedures`. `evidence` is the stored list of evidence references. -/
structure ProcedureRecord (δ : Type) where
  procedureId : String
  name : String
  definition : ProcedureDefinition δ
  definitionDigest : String
  status : ProcedureStatus := .pending
  version : Nat := 1
  supersedesProcedureId : Option String := none
  evidence : List String := []
  proposedActorContext : Option GovernedActorContext
  proposedAt : Timestamp
  resolvedActorContext : Option GovernedActorContext := none
  resolvedAt : Option Timestamp := none
  retiredActorContext : Option GovernedActorContext := none
  retiredAt : Option Timestamp := none
  reason : Option String := none
  acceptanceConfigDigest : Option String := none
  acceptanceLockDigest : Option String := none

abbrev Procedures (δ : Type) := Table (fun p : ProcedureRecord δ => p.procedureId)

/-- The errors that are no `CoreError` leave the service as a `MutationError`. -/
inductive LifecycleError where
  | config (message : String)
  | notFound (procedureId : String)
  | withdrawalRefused (procedureId message : String)
  | value (message : String)
  | integrity (procedureId : String)
  | unreadable (procedureId : String)
  deriving DecidableEq

abbrev Outcome (α : Type) := Except LifecycleError α

/-- `_refuse`. -/
def refuse {α : Type} (reason : String) : Outcome α := .error (.config reason)

/-- The digest of a definition, and the body that its stored text reads back as. -/
structure Definitions (δ : Type) where
  digest : ProcedureDefinition δ → String
  readBack : δ → Option δ

/-- `_row_to_procedure`. -/
def rowToProcedure (d : Definitions δ) (row : ProcedureRecord δ) : Outcome (ProcedureRecord δ) :=
  match d.readBack row.definition.body with
  | none => .error (.unreadable row.procedureId)
  | some body => .ok { row with definition := { row.definition with body := body } }

def saveProcedure (d : Definitions δ) (t : Procedures δ) (p : ProcedureRecord δ) :
    Outcome (Procedures δ) := do
  refuseIf (p.definitionDigest ≠ d.digest p.definition) (.value
    s!"procedure definition digest mismatch: stored={p.definitionDigest}, computed={d.digest p.definition}")
  refuseIf ((t.get? p.procedureId).isSome) (.integrity p.procedureId)
  refuseIf (p.supersedesProcedureId.any fun s => s != p.procedureId && (t.get? s).isNone)
    (.integrity p.procedureId)
  pure (t.put p)

/-- `_get_procedure`. -/
def getProcedure (d : Definitions δ) (t : Procedures δ) (procedureId : String) :
    Outcome (ProcedureRecord δ) :=
  match t.get? procedureId with
  | none => .error (.notFound procedureId)
  | some row => rowToProcedure d row

/-- `ORDER BY proposed_at DESC, procedure_id DESC`. -/
def newestFirst (p q : ProcedureRecord δ) : Bool :=
  decide (q.proposedAt < p.proposedAt) ||
    (decide (q.proposedAt = p.proposedAt) && decide (q.procedureId ≤ p.procedureId))

/-- `list_procedures` by a name and a status, with the limit of 100 rows. -/
def listProcedures (d : Definitions δ) (t : Procedures δ) (name : String)
    (status : ProcedureStatus) : Outcome (List (ProcedureRecord δ)) :=
  (((t.rows.filter fun p => p.name = name ∧ p.status = status).mergeSort newestFirst).take 100).mapM
    (rowToProcedure d)

/-- The arguments of `transition_procedure`. -/
structure Transition where
  fromStatus : ProcedureStatus
  toStatus : ProcedureStatus
  expectedVersion : Nat
  resolvedActorContext : Option GovernedActorContext := none
  resolvedAt : Option Timestamp := none
  retiredActorContext : Option GovernedActorContext := none
  retiredAt : Option Timestamp := none
  reason : Option String := none
  acceptanceConfigDigest : Option String := none
  acceptanceLockDigest : Option String := none

def allowedTransitions : List (ProcedureStatus × ProcedureStatus) :=
  [(.pending, .live), (.pending, .rejected), (.pending, .withdrawn), (.live, .retired)]

def Transition.check (x : Transition) : Outcome Unit := do
  refuseIf ((x.fromStatus, x.toStatus) ∉ allowedTransitions) (.value
    s!"invalid procedure transition '{x.fromStatus.text}' -> '{x.toStatus.text}'")
  refuseIf ((x.toStatus = .rejected ∨ x.toStatus = .retired) ∧ x.reason.all (strip · = "")) (.value
    s!"procedure transition to '{x.toStatus.text}' requires a reason")
  refuseIf (x.toStatus = .live ∧ (x.resolvedActorContext = none ∨ x.acceptanceConfigDigest = none ∨
      x.acceptanceLockDigest = none)) (.value
    "procedure acceptance requires reviewer attribution plus config and lock digests")
  refuseIf (x.toStatus = .rejected ∧ x.resolvedActorContext = none) (.value
    "procedure rejection requires reviewer attribution")
  refuseIf (x.toStatus = .withdrawn ∧ x.resolvedActorContext = none) (.value
    "procedure withdrawal requires author or reviewer attribution")
  refuseIf (x.toStatus = .retired ∧ x.retiredActorContext = none) (.value
    "procedure retirement requires reviewer attribution")

/-- The `SET` clause, which leaves a column alone when its argument is `None`. -/
def Transition.assign (x : Transition) (p : ProcedureRecord δ) : ProcedureRecord δ :=
  { p with
    status := x.toStatus
    version := p.version + 1
    resolvedActorContext := x.resolvedActorContext.or p.resolvedActorContext
    resolvedAt := x.resolvedAt.or p.resolvedAt
    retiredActorContext := x.retiredActorContext.or p.retiredActorContext
    retiredAt := x.retiredAt.or p.retiredAt
    reason := x.reason.or p.reason
    acceptanceConfigDigest := x.acceptanceConfigDigest.or p.acceptanceConfigDigest
    acceptanceLockDigest := x.acceptanceLockDigest.or p.acceptanceLockDigest }

/-- The table, and whether the update met a row. -/
def transitionProcedure (t : Procedures δ) (procedureId : String) (x : Transition) :
    Outcome (Procedures δ × Bool) := do
  x.check
  match t.get? procedureId with
  | some p =>
      if p.status = x.fromStatus ∧ p.version = x.expectedVersion then pure (t.put (x.assign p), true)
      else pure (t, false)
  | none => pure (t, false)

/-- `WITHDRAW_NON_AUTHOR_PERMISSION`. -/
def withdrawNonAuthorPermission : PermissionMode := .graphWrite

structure Plan where
  configDigest : String
  lockDigest : String

/-- A request's caller, its clock, and the compiler on the configuration and the lock
that are in force in its transaction. -/
structure Caller (δ : Type) where
  actorContext : Option GovernedActorContext
  currentMode : PermissionMode
  now : Timestamp
  compile : ProcedureDefinition δ → Outcome Plan

def requireActor (actorContext : Option GovernedActorContext) (role rationale : String) :
    Outcome GovernedActorContext :=
  match actorContext with
  | none => refuse
      s!"procedure {role} actor context is required; missing/null attribution {rationale}"
  | some actor => .ok actor

def independence : String := "cannot prove reviewer independence"

/-- The pair on which two actors are compared. -/
def identity (actor : GovernedActorContext) : String × String := (actor.orgId, actor.actorId)

inductive WithdrawnBy where
  | author
  | reviewer

def authorizeWithdrawal (p : ProcedureRecord δ) (actor : GovernedActorContext)
    (currentMode : PermissionMode) : Outcome WithdrawnBy :=
  if p.proposedActorContext.any (identity · = identity actor) then .ok .author
  else if withdrawNonAuthorPermission.level ≤ currentMode.level then .ok .reviewer
  else
    let authorLabel := match p.proposedActorContext with
      | some proposer => s!"actor '{proposer.actorId}' in org '{proposer.orgId}'"
      | none => "an unattributed author"
    .error (.withdrawalRefused p.procedureId
      (s!"procedure '{p.procedureId}' may be withdrawn only by its proposing author " ++
        s!"({authorLabel}) at their own tier, or by a reviewer holding " ++
        s!"{withdrawNonAuthorPermission.name}; actor '{actor.actorId}' in org " ++
        s!"'{actor.orgId}' is neither (current mode {currentMode.name})"))

def validateReviewerIndependence (p : ProcedureRecord δ) (reviewer : GovernedActorContext) :
    Outcome Unit :=
  match p.proposedActorContext with
  | none => refuse ("procedure proposer actor context is missing/null; reviewer independence " ++
      "cannot be proven")
  | some proposer => refuseIf (identity proposer = identity reviewer) (.config
      ("procedure reviewer must be independent from the proposer; " ++
        s!"both identify actor '{reviewer.actorId}' in org '{reviewer.orgId}'"))

def validateStatusAndVersion (p : ProcedureRecord δ) (expectedStatus : ProcedureStatus)
    (expectedVersion : Option Int) : Outcome Unit :=
  match expectedVersion with
  | none => refuse "procedure transition requires expected_version"
  | some version => do
      refuseIf (p.status ≠ expectedStatus) (.config
        s!"procedure '{p.procedureId}' must be {expectedStatus.text}; found '{p.status.text}'")
      refuseIf ((p.version : Int) ≠ version) (.config
        s!"procedure changed during review; expected version {version}, found {p.version}")

def requireReason (reason : Option String) (action : String) : Outcome String :=
  let normalized := (reason.map strip).getD ""
  if normalized = "" then refuse s!"procedure {action} requires a non-empty reason"
  else .ok normalized

structure Proposal (δ : Type) where
  definition : ProcedureDefinition δ
  supersedesProcedureId : Option String := none
  evidence : List String := []
  mintedProcedureId : String
  caller : Caller δ

/-- What the target of a proposal must be. -/
def Proposal.checkSuperseded (d : Definitions δ) (t : Procedures δ) (r : Proposal δ) :
    Outcome Unit :=
  match r.supersedesProcedureId with
  | none => .ok ()
  | some s => do
      let superseded ← getProcedure d t s
      refuseIf (superseded.status ≠ .live) (.config
        (s!"superseded procedure '{s}' must be live; found '{superseded.status.text}'" ++
          if superseded.status = .pending then
            "; the author may withdraw the pending proposal and re-propose" else ""))
      refuseIf (superseded.definition.name ≠ r.definition.name) (.config
        "a procedure may only supersede a live definition with the same name")

/-- The pending record of a proposal. -/
def Proposal.record (d : Definitions δ) (r : Proposal δ) (proposer : GovernedActorContext) :
    ProcedureRecord δ where
  procedureId := r.mintedProcedureId
  name := r.definition.name
  definition := r.definition
  definitionDigest := d.digest r.definition
  supersedesProcedureId := r.supersedesProcedureId
  evidence := r.evidence
  proposedActorContext := some proposer
  proposedAt := r.caller.now

/-- `service_propose_procedure`. -/
def Proposal.perform (d : Definitions δ) (t : Procedures δ) (r : Proposal δ) :
    Outcome (Procedures δ) := do
  let proposer ← requireActor r.caller.actorContext "proposer" independence
  r.checkSuperseded d t
  let _ ← r.caller.compile r.definition
  saveProcedure d t (r.record d proposer)

inductive PendingAction where
  | accept
  | reject
  | withdraw
  deriving DecidableEq

/-- `_PENDING_TERMINAL_STATUS`. -/
def PendingAction.status : PendingAction → ProcedureStatus
  | .accept => .live
  | .reject => .rejected
  | .withdraw => .withdrawn

structure Resolution (δ : Type) where
  action : PendingAction
  procedureId : String
  expectedVersion : Option Int
  reason : Option String := none
  caller : Caller δ

def Resolution.requireActor (r : Resolution δ) : Outcome GovernedActorContext :=
  match r.action with
  | .withdraw => ProcedureLifecycle.requireActor r.caller.actorContext "withdrawing author"
      "cannot prove the withdrawal is the proposal's own author"
  | _ => ProcedureLifecycle.requireActor r.caller.actorContext "reviewer" independence

/-- Who may resolve, by the action. -/
def Resolution.authorize (r : Resolution δ) (p : ProcedureRecord δ)
    (actor : GovernedActorContext) : Outcome Unit :=
  match r.action with
  | .accept => validateReviewerIndependence p actor
  | .reject => .ok ()
  | .withdraw => (authorizeWithdrawal p actor r.caller.currentMode).map fun _ => ()

/-- The reason that is stored, by the action. -/
def Resolution.normalizedReason (r : Resolution δ) : Outcome (Option String) :=
  match r.action with
  | .accept => .ok none
  | .reject => (requireReason r.reason "reject").map some
  | .withdraw =>
      let stripped := strip (r.reason.getD "")
      .ok (if stripped = "" then none else some stripped)

def checkDigest (d : Definitions δ) (p : ProcedureRecord δ) : Outcome Unit :=
  refuseIf (d.digest p.definition ≠ p.definitionDigest) (.config
    ("procedure definition digest changed since proposal: " ++
      s!"stored={p.definitionDigest}, computed={d.digest p.definition}"))

/-- Another live procedure with the name refuses the acceptance. -/
def checkConflicts (d : Definitions δ) (t : Procedures δ) (p : ProcedureRecord δ) :
    Outcome Unit := do
  let rows ← listProcedures d t p.definition.name .live
  let conflicting := ((rows.map ProcedureRecord.procedureId).filter fun id =>
    id ≠ p.procedureId ∧ some id ≠ p.supersedesProcedureId).mergeSort
  let listed := String.intercalate ", " conflicting
  refuseIf (conflicting ≠ []) (.config
    (s!"another live procedure already holds name '{p.definition.name}': {listed}; " ++
      "one live version per name"))

/-- The digests of the plan that an acceptance compiles. -/
def Resolution.pins (d : Definitions δ) (t : Procedures δ) (r : Resolution δ)
    (p : ProcedureRecord δ) : Outcome (Option Plan) :=
  match r.action with
  | .accept => do
      let plan ← r.caller.compile p.definition
      checkConflicts d t p
      pure (some plan)
  | _ => .ok none

def retirement (version : Nat) (actor : GovernedActorContext) (now : Timestamp)
    (reason : String) : Transition where
  fromStatus := .live
  toStatus := .retired
  expectedVersion := version
  retiredActorContext := some actor
  retiredAt := some now
  reason := some reason

/-- `_retire_superseded_procedure`. -/
def retireSupersededProcedure (d : Definitions δ) (t : Procedures δ) (supersededId : String)
    (replacementId : String) (actor : GovernedActorContext) (now : Timestamp) :
    Outcome (Procedures δ) := do
  let superseded ← getProcedure d t supersededId
  if superseded.status = .retired then pure t
  else
    refuseIf (superseded.status ≠ .live) (.config
      (s!"superseded procedure '{supersededId}' is no longer live; " ++
        s!"found '{superseded.status.text}'"))
    let (t, updated) ← transitionProcedure t supersededId
      (retirement superseded.version actor now s!"superseded by procedure '{replacementId}'")
    refuseIf (updated = false) (.config
      s!"superseded procedure '{supersededId}' changed during acceptance")
    pure t

/-- The target of an accepted replacement is retired with it. -/
def Resolution.retireSuperseded (d : Definitions δ) (t : Procedures δ) (r : Resolution δ)
    (p : ProcedureRecord δ) (actor : GovernedActorContext) : Outcome (Procedures δ) :=
  match r.action, p.supersedesProcedureId with
  | .accept, some s => retireSupersededProcedure d t s r.procedureId actor r.caller.now
  | _, _ => .ok t

def Resolution.transition (r : Resolution δ) (version : Nat) (actor : GovernedActorContext)
    (reason : Option String) (plan : Option Plan) : Transition where
  fromStatus := .pending
  toStatus := r.action.status
  expectedVersion := version
  resolvedActorContext := some actor
  resolvedAt := some r.caller.now
  reason := reason
  acceptanceConfigDigest := plan.map Plan.configDigest
  acceptanceLockDigest := plan.map Plan.lockDigest

/-- `_transition_pending_procedure`. -/
def Resolution.perform (d : Definitions δ) (t : Procedures δ) (r : Resolution δ) :
    Outcome (Procedures δ) := do
  let actor ← r.requireActor
  let p ← getProcedure d t r.procedureId
  validateStatusAndVersion p .pending r.expectedVersion
  r.authorize p actor
  let reason ← r.normalizedReason
  checkDigest d p
  let plan ← r.pins d t p
  let (t, updated) ← transitionProcedure t r.procedureId (r.transition p.version actor reason plan)
  refuseIf (updated = false) (.config
    (if r.action = .withdraw then "procedure changed during withdrawal"
      else "procedure changed during review"))
  let t ← r.retireSuperseded d t p actor
  let _ ← getProcedure d t r.procedureId
  pure t

structure Retirement (δ : Type) where
  procedureId : String
  expectedVersion : Option Int
  reason : Option String
  caller : Caller δ

/-- `service_retire_procedure`. -/
def Retirement.perform (d : Definitions δ) (t : Procedures δ) (r : Retirement δ) :
    Outcome (Procedures δ) := do
  let actor ← requireActor r.caller.actorContext "retiring reviewer" independence
  let reason ← requireReason r.reason "retire"
  let p ← getProcedure d t r.procedureId
  validateStatusAndVersion p .live r.expectedVersion
  let (t, updated) ← transitionProcedure t r.procedureId
    (retirement p.version actor r.caller.now reason)
  refuseIf (updated = false) (.config "procedure changed during retirement")
  let _ ← getProcedure d t r.procedureId
  pure t

inductive Request (δ : Type) where
  | propose (r : Proposal δ)
  | resolve (r : Resolution δ)
  | retire (r : Retirement δ)

def Request.perform (d : Definitions δ) (t : Procedures δ) : Request δ → Outcome (Procedures δ)
  | .propose r => r.perform d t
  | .resolve r => r.perform d t
  | .retire r => r.perform d t

/-- A request that raises rolls its transaction back. -/
def handle (d : Definitions δ) (t : Procedures δ) (r : Request δ) : Procedures δ :=
  match r.perform d t with
  | .ok t' => t'
  | .error _ => t

/-- The table after a sequence of requests. -/
def run (d : Definitions δ) (t : Procedures δ) (requests : List (Request δ)) : Procedures δ :=
  requests.foldl (handle d) t

end Cruxible.ProcedureLifecycle
