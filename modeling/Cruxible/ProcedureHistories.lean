import Cruxible.ProcedureLifecycle

/-!
# What a history of procedures keeps

A successful request inserts one pending row, or moves one row along an allowed
transition and with an acceptance possibly the superseded one. From what one request
does follows what every sequence of requests keeps: a name has one live procedure, a
row keeps what was proposed, and whatever was live was accepted by someone else.
-/
namespace Cruxible.ProcedureHistories
open PythonDict KeyedTable AssertionState Fallible ProcedureLifecycle

variable {δ : Type} {d : Definitions δ} {t t' : Procedures δ}

variable {p row q : ProcedureRecord δ} {x : Transition} {r : Resolution δ}

theorem rowToProcedure_ok (h : rowToProcedure d row = .ok p) :
    ∃ body, p = { row with definition := { row.definition with body := body } } := by
  unfold rowToProcedure at h
  cases hread : d.readBack row.definition.body with
  | none =>
    rw [hread] at h
    cases h
  | some body =>
    rw [hread] at h
    exact ⟨body, (Except.ok.inj h).symm⟩

theorem getProcedure_ok {id : String} (h : getProcedure d t id = .ok p) :
    ∃ row body, t.get? id = some row ∧
      p = { row with definition := { row.definition with body := body } } := by
  unfold getProcedure at h
  cases hget : t.get? id with
  | none =>
    rw [hget] at h
    cases h
  | some row =>
    rw [hget] at h
    have ⟨body, hbody⟩ := rowToProcedure_ok h
    exact ⟨row, body, rfl, hbody⟩

theorem check_live (h : x.check = .ok ()) (hlive : x.toStatus = .live) :
    ∃ actor config lock, x.resolvedActorContext = some actor ∧
      x.acceptanceConfigDigest = some config ∧ x.acceptanceLockDigest = some lock := by
  unfold Transition.check at h
  rw [refuseIf_bind_eq_ok, refuseIf_bind_eq_ok, refuseIf_bind_eq_ok] at h
  have hpins := h.2.2.1
  rw [not_and, not_or, not_or] at hpins
  have ⟨hactor, hconfig, hlock⟩ := hpins hlive
  have ⟨actor, ha⟩ := Option.ne_none_iff_exists'.mp hactor
  have ⟨config, hc⟩ := Option.ne_none_iff_exists'.mp hconfig
  have ⟨lock, hl⟩ := Option.ne_none_iff_exists'.mp hlock
  exact ⟨actor, config, lock, ha, hc, hl⟩

theorem transitionProcedure_ok {id : String} (h : transitionProcedure t id x = .ok (t', true)) :
    x.check = .ok () ∧ ∃ row, t.get? id = some row ∧ row.status = x.fromStatus ∧
      row.version = x.expectedVersion ∧ t' = t.put (x.assign row) := by
  unfold transitionProcedure at h
  have ⟨_, hcheck, hupdate⟩ := bind_eq_ok.mp h
  constructor
  · exact hcheck
  · cases hget : t.get? id with
    | none =>
      rw [hget] at hupdate
      cases hupdate
    | some row =>
      rw [hget] at hupdate
      dsimp only at hupdate
      split_ifs at hupdate with hmatch
      · have hsame := Prod.mk.inj (Except.ok.inj hupdate)
        exact ⟨row, rfl, hmatch.1, hmatch.2, hsame.1.symm⟩
      · cases hupdate

variable {status : ProcedureStatus}

theorem validateStatusAndVersion_ok {expected : Option Int}
    (h : validateStatusAndVersion p status expected = .ok ()) :
    p.status = status ∧ expected = some (p.version : Int) := by
  unfold validateStatusAndVersion at h
  cases expected with
  | none => cases h
  | some version =>
    dsimp only at h
    rw [refuseIf_bind_eq_ok, refuseIf_eq_ok] at h
    have hversion : (p.version : Int) = version := not_not.mp h.2
    exact ⟨not_not.mp h.1, by rw [hversion]⟩

theorem independent_of_ok {reviewer : GovernedActorContext}
    (h : validateReviewerIndependence p reviewer = .ok ()) :
    ∃ proposer, p.proposedActorContext = some proposer ∧ identity proposer ≠ identity reviewer := by
  unfold validateReviewerIndependence at h
  cases hproposer : p.proposedActorContext with
  | none =>
    rw [hproposer] at h
    cases h
  | some proposer =>
    rw [hproposer] at h
    dsimp only at h
    rw [refuseIf_eq_ok] at h
    exact ⟨proposer, rfl, h⟩

theorem requireActor_ok {context : Option GovernedActorContext} {role rationale : String}
    {actor : GovernedActorContext} (h : requireActor context role rationale = .ok actor) :
    context = some actor := by
  unfold requireActor at h
  cases context with
  | none => cases h
  | some a => rw [Except.ok.inj h]

theorem resolution_actor {actor : GovernedActorContext} (h : r.requireActor = .ok actor) :
    r.caller.actorContext = some actor := by
  unfold Resolution.requireActor at h
  split at h
  · exact requireActor_ok h
  · exact requireActor_ok h

theorem length_le_one_of_eq {α : Type} {xs : List α} (hnodup : xs.Nodup)
    (heq : ∀ x ∈ xs, ∀ y ∈ xs, x = y) : xs.length ≤ 1 := by
  cases xs with
  | nil => exact Nat.zero_le 1
  | cons x rest =>
    cases rest with
    | nil => exact le_rfl
    | cons y rest =>
      have hxy : x = y := heq x List.mem_cons_self y (by simp)
      have hne : x ≠ y := (List.pairwise_cons.mp hnodup).1 y List.mem_cons_self
      exact absurd hxy hne

theorem mem_listProcedures {name : String} {ps : List (ProcedureRecord δ)}
    (h : listProcedures d t name status = .ok ps)
    (hone : ∀ p ∈ t.rows, ∀ q ∈ t.rows, p.name = name → q.name = name → p.status = status →
      q.status = status → p = q) (hrow : row ∈ t.rows) (hname : row.name = name)
    (hstatus : row.status = status) : row.procedureId ∈ ps.map ProcedureRecord.procedureId := by
  have hfilter : row ∈ t.rows.filter fun p => p.name = name ∧ p.status = status :=
    List.mem_filter.mpr ⟨hrow, decide_eq_true ⟨hname, hstatus⟩⟩
  have hnodup : (t.rows.filter fun p => decide (p.name = name ∧ p.status = status)).Nodup :=
    (List.Nodup.of_map _ t.nodup_keys).filter _
  have hlength : (t.rows.filter fun p => decide (p.name = name ∧ p.status = status)).length ≤ 1 := by
    apply length_le_one_of_eq hnodup
    intro p hp q hq
    have ⟨hpmem, hptest⟩ := List.mem_filter.mp hp
    have ⟨hqmem, hqtest⟩ := List.mem_filter.mp hq
    have hp' := of_decide_eq_true hptest
    have hq' := of_decide_eq_true hqtest
    exact hone p hpmem q hqmem hp'.1 hq'.1 hp'.2 hq'.2
  unfold listProcedures at h
  rw [List.take_of_length_le (by rw [List.length_mergeSort]; omega)] at h
  have ⟨p, hp, hread⟩ := mapM_ok_each h row (List.mem_mergeSort.mpr hfilter)
  have ⟨body, hbody⟩ := rowToProcedure_ok hread
  exact List.mem_map.mpr ⟨p, hp, by rw [hbody]⟩

/-- The columns that no update names. -/
structure SameProposal (p q : ProcedureRecord δ) : Prop where
  procedureId : q.procedureId = p.procedureId
  name : q.name = p.name
  definition : q.definition = p.definition
  definitionDigest : q.definitionDigest = p.definitionDigest
  supersedes : q.supersedesProcedureId = p.supersedesProcedureId
  evidence : q.evidence = p.evidence
  proposer : q.proposedActorContext = p.proposedActorContext
  proposedAt : q.proposedAt = p.proposedAt

theorem SameProposal.refl (p : ProcedureRecord δ) : SameProposal p p :=
  ⟨rfl, rfl, rfl, rfl, rfl, rfl, rfl, rfl⟩

theorem SameProposal.trans {r : ProcedureRecord δ} (h : SameProposal p q) (h' : SameProposal q r) :
    SameProposal p r where
  procedureId := h'.procedureId.trans h.procedureId
  name := h'.name.trans h.name
  definition := h'.definition.trans h.definition
  definitionDigest := h'.definitionDigest.trans h.definitionDigest
  supersedes := h'.supersedes.trans h.supersedes
  evidence := h'.evidence.trans h.evidence
  proposer := h'.proposer.trans h.proposer
  proposedAt := h'.proposedAt.trans h.proposedAt

theorem SameProposal.assign (x : Transition) (p : ProcedureRecord δ) :
    SameProposal p (x.assign p) :=
  ⟨rfl, rfl, rfl, rfl, rfl, rfl, rfl, rfl⟩

/-- An update leaves the row in its place. -/
theorem get?_put_assign (t : Procedures δ) (x : Transition) (p : ProcedureRecord δ) (j : String) :
    (t.put (x.assign p)).get? j = if p.procedureId = j then some (x.assign p) else t.get? j :=
  Table.get?_put t (x.assign p) j

theorem proposal_ok {r : Proposal δ} (h : r.perform d t = .ok t') :
    ∃ proposer, r.caller.actorContext = some proposer ∧ t.get? r.mintedProcedureId = none ∧
      t' = t.put (r.record d proposer) ∧ ∀ s ∈ r.supersedesProcedureId, ∃ q, t.get? s = some q ∧
        q.status = .live ∧ q.definition.name = r.definition.name := by
  unfold Proposal.perform at h
  have ⟨proposer, hactor, h⟩ := bind_eq_ok.mp h
  have ⟨_, hsuperseded, h⟩ := bind_eq_ok.mp h
  have ⟨_, _, h⟩ := bind_eq_ok.mp h
  unfold saveProcedure at h
  rw [refuseIf_bind_eq_ok, refuseIf_bind_eq_ok, refuseIf_bind_eq_ok, pure_eq_ok] at h
  have hfresh : t.get? r.mintedProcedureId = none := by
    have hnone := h.2.1
    rwa [Option.not_isSome_iff_eq_none] at hnone
  refine ⟨proposer, requireActor_ok hactor, hfresh, h.2.2.2.symm, ?_⟩
  intro s hs
  unfold Proposal.checkSuperseded at hsuperseded
  rw [Option.mem_def.mp hs] at hsuperseded
  dsimp only at hsuperseded
  have ⟨p, hp, hchecks⟩ := bind_eq_ok.mp hsuperseded
  rw [refuseIf_bind_eq_ok, refuseIf_eq_ok] at hchecks
  have ⟨row, body, hget, hbody⟩ := getProcedure_ok hp
  rw [hbody] at hchecks
  exact ⟨row, hget, not_not.mp hchecks.1, not_not.mp hchecks.2⟩

theorem moves_ok {id : String} {b : Bool} (h : transitionProcedure t id x = .ok (t', b))
    (hb : ¬b = false) (hget : t.get? id = some row) :
    x.check = .ok () ∧ t' = t.put (x.assign row) := by
  rw [Bool.not_eq_false] at hb
  rw [hb] at h
  have ⟨hcheck, row', hget', _, _, hput⟩ := transitionProcedure_ok h
  have hrow : row' = row := Option.some.inj (hget'.symm.trans hget)
  exact ⟨hcheck, by rw [hput, hrow]⟩

theorem retirement_ok {r : Retirement δ} (h : r.perform d t = .ok t') :
    ∃ (row : ProcedureRecord δ) (actor : GovernedActorContext) (reason : String),
      t.get? r.procedureId = some row ∧ r.expectedVersion = some (row.version : Int) ∧
      row.status = .live ∧
      t' = t.put ((retirement row.version actor r.caller.now reason).assign row) := by
  unfold Retirement.perform at h
  have ⟨actor, _, h⟩ := bind_eq_ok.mp h
  have ⟨reason, _, h⟩ := bind_eq_ok.mp h
  have ⟨p, hp, h⟩ := bind_eq_ok.mp h
  have ⟨_, hversion, h⟩ := bind_eq_ok.mp h
  have ⟨⟨t₁, updated⟩, htransition, h⟩ := bind_eq_ok.mp h
  dsimp only at h
  rw [refuseIf_bind_eq_ok] at h
  have hupdated := h.1
  have ⟨_, _, hdone⟩ := bind_eq_ok.mp h.2
  have ⟨row, body, hget, hbody⟩ := getProcedure_ok hp
  have ⟨hstatus, hnamed⟩ := validateStatusAndVersion_ok hversion
  have ⟨_, hput⟩ := moves_ok htransition hupdated hget
  subst hbody
  rw [pure_eq_ok] at hdone
  exact ⟨row, actor, reason, hget, hnamed, hstatus, by rw [← hdone, hput]⟩

/-- A resolution moves the pending row of the version that its caller named, by the
transition `x` of its actor. -/
structure Resolves (d : Definitions δ) (t t' : Procedures δ) (r : Resolution δ)
    (row : ProcedureRecord δ) (x : Transition) (actor : GovernedActorContext) : Prop where
  stored : t.get? r.procedureId = some row
  pending : row.status = .pending
  named : r.expectedVersion = some (row.version : Int)
  resolver : r.caller.actorContext = some actor
  resolved : x.resolvedActorContext = some actor
  status : x.toStatus = r.action.status
  check : x.check = .ok ()
  independent : r.action = .accept → ∃ proposer, row.proposedActorContext = some proposer ∧
    identity proposer ≠ identity actor
  unopposed : r.action = .accept → checkConflicts d t row = .ok ()
  superseded : r.retireSuperseded d (t.put (x.assign row)) row actor = .ok t'

theorem resolution_ok (h : r.perform d t = .ok t') :
    ∃ row x actor, Resolves d t t' r row x actor := by
  unfold Resolution.perform at h
  have ⟨actor, hactor, h⟩ := bind_eq_ok.mp h
  have ⟨p, hp, h⟩ := bind_eq_ok.mp h
  have ⟨_, hversion, h⟩ := bind_eq_ok.mp h
  have ⟨_, hauthorize, h⟩ := bind_eq_ok.mp h
  have ⟨reason, _, h⟩ := bind_eq_ok.mp h
  have ⟨_, _, h⟩ := bind_eq_ok.mp h
  have ⟨plan, hplan, h⟩ := bind_eq_ok.mp h
  have ⟨⟨t₁, updated⟩, htransition, h⟩ := bind_eq_ok.mp h
  dsimp only at h
  rw [refuseIf_bind_eq_ok] at h
  have hupdated := h.1
  have ⟨t₂, hsuperseded, h⟩ := bind_eq_ok.mp h.2
  have ⟨_, _, hdone⟩ := bind_eq_ok.mp h
  have ⟨row, body, hget, hbody⟩ := getProcedure_ok hp
  have ⟨hstatus, hnamed⟩ := validateStatusAndVersion_ok hversion
  have ⟨hcheck, hput⟩ := moves_ok htransition hupdated hget
  subst hbody
  rw [pure_eq_ok] at hdone
  subst hdone hput
  refine ⟨row, r.transition row.version actor reason plan, actor, ?_⟩
  constructor
  case stored => exact hget
  case pending => exact hstatus
  case named => exact hnamed
  case resolver => exact resolution_actor hactor
  case resolved => rfl
  case status => rfl
  case check => exact hcheck
  case independent =>
    intro haccept
    unfold Resolution.authorize at hauthorize
    rw [haccept] at hauthorize
    exact independent_of_ok hauthorize
  case unopposed =>
    intro haccept
    unfold Resolution.pins at hplan
    rw [haccept] at hplan
    have ⟨_, _, hplan⟩ := bind_eq_ok.mp hplan
    have ⟨_, hconflicts, _⟩ := bind_eq_ok.mp hplan
    exact hconflicts
  case superseded => exact hsuperseded

/-- With the move of the resolved row, an acceptance retires the live target of a
replacement. Nothing else moves. -/
theorem retireSuperseded_ok {actor : GovernedActorContext}
    (h : r.retireSuperseded d t p actor = .ok t') :
    (t' = t ∧ (r.action = .accept → ∀ s ∈ p.supersedesProcedureId, ∃ q, t.get? s = some q ∧
        q.status = .retired)) ∨
      (r.action = .accept ∧ ∃ (s : String) (q : ProcedureRecord δ) (reason : String),
        p.supersedesProcedureId = some s ∧ t.get? s = some q ∧ q.status = .live ∧
        t' = t.put ((retirement q.version actor r.caller.now reason).assign q)) := by
  unfold Resolution.retireSuperseded at h
  split at h
  · rename_i s haction hs
    unfold retireSupersededProcedure at h
    have ⟨q, hq, h⟩ := bind_eq_ok.mp h
    have ⟨row, body, hget, hbody⟩ := getProcedure_ok hq
    subst hbody
    dsimp only at h
    split_ifs at h with hretired
    · left
      constructor
      · exact (pure_eq_ok.mp h).symm
      · intro _ s' hs'
        have hsame : s' = s := Option.some.inj (hs'.symm.trans hs)
        exact ⟨row, hsame ▸ hget, hretired⟩
    · right
      rw [refuseIf_bind_eq_ok] at h
      have hlive := not_not.mp h.1
      have ⟨⟨t₁, updated⟩, htransition, h⟩ := bind_eq_ok.mp h.2
      dsimp only at h
      rw [refuseIf_bind_eq_ok, pure_eq_ok] at h
      have ⟨_, hput⟩ := moves_ok htransition h.1 hget
      exact ⟨haction, s, row, _, hs, hget, hlive, by rw [← h.2, hput]⟩
  · rename_i hnone
    left
    constructor
    · exact (Except.ok.inj h).symm
    · intro haccept s hs
      exact absurd (Option.mem_def.mp hs) (hnone s haccept)

def terminal : ProcedureStatus → Bool
  | .rejected | .withdrawn | .retired => true
  | .pending | .live => false

def wasLive : ProcedureStatus → Bool
  | .live | .retired => true
  | .pending | .rejected | .withdrawn => false

/-- A change of status keeps the proposal and raises the version by one. -/
structure Moves (p q : ProcedureRecord δ) : Prop where
  same : SameProposal p q
  allowed : (p.status, q.status) ∈ allowedTransitions
  version : q.version = p.version + 1

theorem moves_assign (h : (p.status, x.toStatus) ∈ allowedTransitions) : Moves p (x.assign p) :=
  ⟨SameProposal.assign x p, h, rfl⟩

theorem retirement_moves (h : p.status = .live) (version : Nat) (actor : GovernedActorContext)
    (now : Timestamp) (reason : String) :
    Moves p ((retirement version actor now reason).assign p) := by
  apply moves_assign
  rw [h]
  change (ProcedureStatus.live, ProcedureStatus.retired) ∈ allowedTransitions
  decide

theorem Resolves.moves {actor : GovernedActorContext} (h : Resolves d t t' r row x actor) :
    Moves row (x.assign row) := by
  apply moves_assign
  rw [h.pending, h.status]
  cases r.action with
  | accept => decide
  | reject => decide
  | withdraw => decide

variable {a b : ProcedureStatus}

theorem not_terminal_of_allowed (h : (a, b) ∈ allowedTransitions) : terminal a = false := by
  revert h
  cases a with
  | pending | live => exact fun _ => rfl
  | rejected | retired | withdrawn => cases b <;> decide

theorem wasLive_of_allowed (h : (a, b) ∈ allowedTransitions) (ha : wasLive a = true) :
    wasLive b = true := by
  revert h ha
  cases a <;> cases b <;> decide

/-- Accepted by an actor other than the proposer, with both digests. -/
def Reviewed (p : ProcedureRecord δ) : Prop :=
  ∃ proposer reviewer config lock, p.proposedActorContext = some proposer ∧
    p.resolvedActorContext = some reviewer ∧ identity proposer ≠ identity reviewer ∧
    p.acceptanceConfigDigest = some config ∧ p.acceptanceLockDigest = some lock

theorem reviewed_retirement (h : Reviewed p) (version : Nat) (actor : GovernedActorContext)
    (now : Timestamp) (reason : String) :
    Reviewed ((retirement version actor now reason).assign p) := h

theorem Resolves.reviewed {actor : GovernedActorContext} (h : Resolves d t t' r row x actor)
    (hlive : x.toStatus = .live) : Reviewed (x.assign row) := by
  have haccept : r.action = .accept := by
    have hstatus := h.status.symm.trans hlive
    cases haction : r.action with
    | accept => rfl
    | reject | withdraw =>
      rw [haction] at hstatus
      cases hstatus
  have ⟨proposer, hproposer, hne⟩ := h.independent haccept
  have ⟨_, config, lock, _, hconfig, hlock⟩ := check_live h.check hlive
  refine ⟨proposer, actor, config, lock, hproposer, ?_, hne, ?_, ?_⟩
  · simp [Transition.assign, h.resolved]
  · simp [Transition.assign, hconfig]
  · simp [Transition.assign, hlock]

/-- The columns of the rows agree with each other. -/
structure Recorded (d : Definitions δ) (t : Procedures δ) : Prop where
  named : ∀ id p, t.get? id = some p → p.name = p.definition.name
  digest : ∀ id p, t.get? id = some p → p.definitionDigest = d.digest p.definition
  reviewed : ∀ id p, t.get? id = some p → wasLive p.status = true → Reviewed p
  superseded : ∀ id p, t.get? id = some p → ∀ s ∈ p.supersedesProcedureId, ∃ q,
    t.get? s = some q ∧ q.name = p.name ∧ wasLive q.status = true

def OneLive (t : Procedures δ) : Prop :=
  ∀ i j p q, t.get? i = some p → t.get? j = some q → p.status = .live → q.status = .live →
    p.name = q.name → i = j

structure Lawful (d : Definitions δ) (t : Procedures δ) : Prop extends Recorded d t where
  oneLive : OneLive t

theorem Recorded.move {id : String} (h : Recorded d t) (hget : t.get? id = some p)
    (hmoves : Moves p q) (hreviewed : wasLive q.status = true → Reviewed q) :
    Recorded d (t.put q) := by
  have hkey : q.procedureId = id := hmoves.same.procedureId.trans (Table.key_of_get? hget)
  constructor
  case named =>
    intro i r hr
    rw [Table.get?_put] at hr
    split_ifs at hr
    · rw [← Option.some.inj hr, hmoves.same.name, hmoves.same.definition]
      exact h.named id p hget
    · exact h.named i r hr
  case digest =>
    intro i r hr
    rw [Table.get?_put] at hr
    split_ifs at hr
    · rw [← Option.some.inj hr, hmoves.same.definitionDigest, hmoves.same.definition]
      exact h.digest id p hget
    · exact h.digest i r hr
  case reviewed =>
    intro i r hr hlive
    rw [Table.get?_put] at hr
    split_ifs at hr
    · rw [← Option.some.inj hr] at hlive ⊢
      exact hreviewed hlive
    · exact h.reviewed i r hr hlive
  case superseded =>
    have hkept : ∀ s r, t.get? s = some r → wasLive r.status = true → ∃ r',
        (t.put q).get? s = some r' ∧ r'.name = r.name ∧ wasLive r'.status = true := by
      intro s r hr hlive
      rw [Table.get?_put]
      split_ifs with hs
      · have hrp : r = p := Option.some.inj (hr.symm.trans ((hkey.symm.trans hs) ▸ hget))
        rw [hrp] at hlive ⊢
        exact ⟨q, rfl, hmoves.same.name, wasLive_of_allowed hmoves.allowed hlive⟩
      · exact ⟨r, hr, rfl, hlive⟩
    intro i r hr s hs
    rw [Table.get?_put] at hr
    split_ifs at hr
    · rw [← Option.some.inj hr, hmoves.same.supersedes] at hs
      have ⟨target, htarget, hname, hlive⟩ := h.superseded id p hget s hs
      have ⟨target', htarget', hname', hlive'⟩ := hkept s target htarget hlive
      rw [← Option.some.inj hr, hmoves.same.name]
      exact ⟨target', htarget', hname'.trans hname, hlive'⟩
    · have ⟨target, htarget, hname, hlive⟩ := h.superseded i r hr s hs
      have ⟨target', htarget', hname', hlive'⟩ := hkept s target htarget hlive
      exact ⟨target', htarget', hname'.trans hname, hlive'⟩

theorem OneLive.of_live (h : OneLive t) (hlive : ∀ j q, t'.get? j = some q →
    q.status = .live → t.get? j = some q) : OneLive t' := by
  intro i j p q hp hq hpl hql hname
  exact h i j p q (hlive i p hp hpl) (hlive j q hq hql) hpl hql hname

theorem get?_of_live_put {j : String} (hp : p.status ≠ .live) (hget : (t.put p).get? j = some q)
    (hq : q.status = .live) : t.get? j = some q := by
  rw [Table.get?_put] at hget
  split_ifs at hget with hj
  · rw [← Option.some.inj hget] at hq
    exact absurd hq hp
  · exact hget

theorem lawful_empty : Lawful d ∅ where
  named := by intro id p hp; cases hp
  digest := by intro id p hp; cases hp
  reviewed := by intro id p hp; cases hp
  superseded := by intro id p hp; cases hp
  oneLive := by intro i j p q hp; cases hp

theorem recorded_proposal {r : Proposal δ} (ht : Recorded d t) (h : r.perform d t = .ok t') :
    Recorded d t' := by
  have ⟨proposer, _, hfresh, hput, hsuperseded⟩ := proposal_ok h
  subst hput
  have hkept : ∀ s q, t.get? s = some q → (t.put (r.record d proposer)).get? s = some q := by
    intro s q hq
    rw [Table.get?_put_of_ne]
    · exact hq
    · intro hs
      have hs' : r.mintedProcedureId = s := hs
      rw [← hs', hfresh] at hq
      cases hq
  constructor
  case named =>
    intro i p hp
    rw [Table.get?_put] at hp
    split_ifs at hp
    · rw [← Option.some.inj hp]
      rfl
    · exact ht.named i p hp
  case digest =>
    intro i p hp
    rw [Table.get?_put] at hp
    split_ifs at hp
    · rw [← Option.some.inj hp]
      rfl
    · exact ht.digest i p hp
  case reviewed =>
    intro i p hp hlive
    rw [Table.get?_put] at hp
    split_ifs at hp
    · rw [← Option.some.inj hp] at hlive
      cases hlive
    · exact ht.reviewed i p hp hlive
  case superseded =>
    intro i p hp s hs
    rw [Table.get?_put] at hp
    split_ifs at hp
    · rw [← Option.some.inj hp] at hs ⊢
      have ⟨q, hq, hlive, hname⟩ := hsuperseded s hs
      refine ⟨q, hkept s q hq, (ht.named s q hq).trans hname, ?_⟩
      rw [hlive]
      rfl
    · have ⟨q, hq, hname, hlive⟩ := ht.superseded i p hp s hs
      exact ⟨q, hkept s q hq, hname, hlive⟩

theorem lawful_proposal {r : Proposal δ} (ht : Lawful d t) (h : r.perform d t = .ok t') :
    Lawful d t' where
  toRecorded := recorded_proposal ht.toRecorded h
  oneLive := by
    have ⟨proposer, _, _, hput, _⟩ := proposal_ok h
    subst hput
    apply ht.oneLive.of_live
    intro j q hq hlive
    exact get?_of_live_put (show ProcedureStatus.pending ≠ .live by decide) hq hlive

theorem lawful_retirement {id : String} (ht : Lawful d t) (hget : t.get? id = some row)
    (hlive : row.status = .live) (version : Nat) (actor : GovernedActorContext) (now : Timestamp)
    (reason : String) : Lawful d (t.put ((retirement version actor now reason).assign row)) where
  toRecorded := by
    apply ht.toRecorded.move hget (retirement_moves hlive version actor now reason)
    intro _
    apply reviewed_retirement
    apply ht.reviewed id row hget
    rw [hlive]
    rfl
  oneLive := by
    apply ht.oneLive.of_live
    intro j q hq hql
    exact get?_of_live_put (show ProcedureStatus.retired ≠ .live by decide) hq hql

theorem live_of_unopposed (ht : Lawful d t) (h : checkConflicts d t p = .ok ())
    (hnamed : p.name = p.definition.name) {j : String} (hq : t.get? j = some q)
    (hlive : q.status = .live) (hname : q.name = p.name) :
    j = p.procedureId ∨ p.supersedesProcedureId = some j := by
  unfold checkConflicts at h
  have ⟨rows, hrows, hnone⟩ := bind_eq_ok.mp h
  rw [refuseIf_eq_ok, not_not] at hnone
  have hone : ∀ a ∈ t.rows, ∀ b ∈ t.rows, a.name = p.definition.name → b.name = p.definition.name →
      a.status = .live → b.status = .live → a = b := by
    intro a ha b hb hna hnb hla hlb
    apply Table.eq_of_key ha hb
    exact ht.oneLive _ _ a b (Table.get?_of_mem_rows ha) (Table.get?_of_mem_rows hb) hla hlb
      (hna.trans hnb.symm)
  have hseen := mem_listProcedures hrows hone (Table.mem_rows_of_get? hq) (hname.trans hnamed) hlive
  have hkey : q.procedureId = j := Table.key_of_get? hq
  rw [hkey] at hseen
  by_contra hother
  rw [not_or] at hother
  have hconflict : j ∈ ((rows.map ProcedureRecord.procedureId).filter fun id =>
      id ≠ p.procedureId ∧ some id ≠ p.supersedesProcedureId).mergeSort := by
    rw [List.mem_mergeSort]
    exact List.mem_filter.mpr ⟨hseen, decide_eq_true ⟨hother.1, Ne.symm hother.2⟩⟩
  rw [hnone] at hconflict
  cases hconflict

/-- The target of a row is another row, which was live before. -/
theorem target_ne {id s : String} (ht : Recorded d t) (hp : t.get? id = some p)
    (hpending : p.status = .pending) (hs : p.supersedesProcedureId = some s) : id ≠ s := by
  intro hsame
  have ⟨target, htarget, _, hlive⟩ := ht.superseded id p hp s hs
  rw [← hsame, hp] at htarget
  rw [← Option.some.inj htarget, hpending] at hlive
  cases hlive

theorem oneLive_accepted {actor : GovernedActorContext} (ht : Lawful d t)
    (h : Resolves d t t' r row x actor) (haccept : r.action = .accept)
    (hlive : ∀ j q, t'.get? j = some q → q.status = .live →
      (q = x.assign row ∧ j = row.procedureId) ∨
        (t.get? j = some q ∧ row.supersedesProcedureId ≠ some j)) : OneLive t' := by
  have hold : ∀ j q, t.get? j = some q → row.supersedesProcedureId ≠ some j → q.status = .live →
      q.name = row.name → j = row.procedureId := by
    intro j q hq hother hql hname
    have hcases := live_of_unopposed ht (h.unopposed haccept)
      (ht.named r.procedureId row h.stored) hq hql hname
    rcases hcases with hself | htarget
    · exact hself
    · exact absurd htarget hother
  intro i j p q hp hq hpl hql hname
  rcases hlive i p hp hpl with ⟨hpx, hi⟩ | ⟨hp', hi⟩
  · rcases hlive j q hq hql with ⟨_, hj⟩ | ⟨hq', hj⟩
    · exact hi.trans hj.symm
    · rw [hpx] at hname
      exact hi.trans (hold j q hq' hj hql hname.symm).symm
  · rcases hlive j q hq hql with ⟨hqx, hj⟩ | ⟨hq', hj⟩
    · rw [hqx] at hname
      exact (hold i p hp' hi hpl hname).trans hj.symm
    · exact ht.oneLive i j p q hp' hq' hpl hql hname

theorem lawful_resolution {actor : GovernedActorContext} (ht : Lawful d t)
    (h : Resolves d t t' r row x actor) : Lawful d t' := by
  have hrecorded : Recorded d (t.put (x.assign row)) := by
    apply ht.toRecorded.move h.stored h.moves
    intro hlive
    apply h.reviewed
    have hstatus : wasLive x.toStatus = true := hlive
    rw [h.status] at hstatus ⊢
    cases haction : r.action with
    | accept => rfl
    | reject | withdraw =>
      rw [haction] at hstatus
      cases hstatus
  rcases retireSuperseded_ok h.superseded with ⟨hsame, hretired⟩ | ⟨haccept, s, q, reason, hs, hq,
    hqlive, hput⟩
  · subst hsame
    constructor
    case toRecorded => exact hrecorded
    case oneLive =>
      by_cases haccept : r.action = .accept
      · apply oneLive_accepted ht h haccept
        intro j q hq hlive
        by_cases hj : row.procedureId = j
        · rw [get?_put_assign, if_pos hj] at hq
          exact .inl ⟨(Option.some.inj hq).symm, hj.symm⟩
        · right
          constructor
          · rwa [get?_put_assign, if_neg hj] at hq
          · intro hs
            have ⟨target, htarget, hstatus⟩ := hretired haccept j hs
            have htq : target = q := Option.some.inj (htarget.symm.trans hq)
            rw [htq, hlive] at hstatus
            cases hstatus
      · apply ht.oneLive.of_live
        intro j q hq hlive
        refine get?_of_live_put ?_ hq hlive
        change x.toStatus ≠ .live
        rw [h.status]
        cases haction : r.action with
        | accept => exact absurd haction haccept
        | reject => decide
        | withdraw => decide
  · subst hput
    have htoRetired : wasLive q.status = true := by
      rw [hqlive]
      rfl
    constructor
    case toRecorded =>
      apply hrecorded.move hq (retirement_moves hqlive _ _ _ _)
      intro _
      exact reviewed_retirement (hrecorded.reviewed s q hq htoRetired) _ _ _ _
    case oneLive =>
      apply oneLive_accepted ht h haccept
      intro j p hp hlive
      have hne : j ≠ s := by
        intro hjs
        have hqs : q.procedureId = s := Table.key_of_get? hq
        rw [get?_put_assign, if_pos (hqs.trans hjs.symm)] at hp
        rw [← Option.some.inj hp] at hlive
        cases hlive
      have hp' := get?_of_live_put (show ProcedureStatus.retired ≠ .live by decide) hp hlive
      by_cases hj : row.procedureId = j
      · rw [get?_put_assign, if_pos hj] at hp'
        exact .inl ⟨(Option.some.inj hp').symm, hj.symm⟩
      · rw [get?_put_assign, if_neg hj] at hp'
        refine .inr ⟨hp', ?_⟩
        rw [hs]
        intro hsj
        exact hne (Option.some.inj hsj).symm

theorem lawful_handle (ht : Lawful d t) (r : Request δ) : Lawful d (handle d t r) := by
  unfold handle
  cases hperform : r.perform d t with
  | error e => exact ht
  | ok t' =>
    cases r with
    | propose r => exact lawful_proposal ht hperform
    | resolve r =>
      have ⟨row, x, actor, hresolves⟩ := resolution_ok hperform
      exact lawful_resolution ht hresolves
    | retire r =>
      have ⟨row, actor, reason, hget, _, hlive, hput⟩ := retirement_ok hperform
      rw [hput]
      exact lawful_retirement ht hget hlive _ _ _ _

theorem lawful_run (ht : Lawful d t) (requests : List (Request δ)) :
    Lawful d (run d t requests) := by
  induction requests generalizing t with
  | nil => exact ht
  | cons r rest ih => exact ih (lawful_handle ht r)

/-- The request is about the row, at the version that the row has. -/
def names : Request δ → ProcedureRecord δ → Prop
  | .propose _, _ => False
  | .resolve r, p => r.procedureId = p.procedureId ∧ r.expectedVersion = some (p.version : Int)
  | .retire r, p => r.procedureId = p.procedureId ∧ r.expectedVersion = some (p.version : Int)

/-- The request accepts a replacement of the row. -/
def replaces (t : Procedures δ) : Request δ → ProcedureRecord δ → Prop
  | .resolve r, p => r.action = .accept ∧ ∃ row, t.get? r.procedureId = some row ∧
      row.supersedesProcedureId = some p.procedureId
  | _, _ => False

/-- The request is the acceptance that the new row records. -/
def accepts : Request δ → ProcedureRecord δ → Prop
  | .resolve r, q => r.action = .accept ∧ r.procedureId = q.procedureId ∧
      ∃ actor, r.caller.actorContext = some actor ∧ q.resolvedActorContext = some actor
  | _, _ => False

structure Changed (r : Request δ) (t : Procedures δ) (p q : ProcedureRecord δ) : Prop
    extends Moves p q where
  named : names r p ∨ (p.status = .live ∧ q.status = .retired ∧ replaces t r p)
  accepted : q.status = .live → accepts r q

/-- Every row is left as it is or changed as the request says. -/
def Changes (r : Request δ) (t t' : Procedures δ) : Prop :=
  ∀ id p, t.get? id = some p → ∃ q, t'.get? id = some q ∧ (q = p ∨ Changed r t p q)

theorem Changes.refl (r : Request δ) (t : Procedures δ) : Changes r t t :=
  fun _ p hp => ⟨p, hp, .inl rfl⟩

theorem Changes.put {r : Request δ} {u : Procedures δ} {id : String} (h : Changes r t u)
    (hp : t.get? id = some p) (hq : Changed r t p q) : Changes r t (u.put q) := by
  have hkey : q.procedureId = id := hq.same.procedureId.trans (Table.key_of_get? hp)
  intro j a ha
  rw [Table.get?_put]
  split_ifs with hj
  · have hap : a = p := Option.some.inj (ha.symm.trans ((hkey.symm.trans hj) ▸ hp))
    exact ⟨q, rfl, .inr (hap ▸ hq)⟩
  · exact h j a ha

theorem changes_resolution {actor : GovernedActorContext} (ht : Lawful d t)
    (h : Resolves d t t' r row x actor) : Changes (.resolve r) t t' := by
  have hkey : row.procedureId = r.procedureId := Table.key_of_get? h.stored
  have hrow : Changed (.resolve r) t row (x.assign row) := by
    constructor
    case toMoves => exact h.moves
    case named => exact .inl ⟨hkey.symm, h.named⟩
    case accepted =>
      intro hlive
      have hstatus : r.action.status = .live := h.status.symm.trans hlive
      refine ⟨?_, hkey.symm, actor, h.resolver, ?_⟩
      · cases haction : r.action with
        | accept => rfl
        | reject | withdraw =>
          rw [haction] at hstatus
          cases hstatus
      · simp [Transition.assign, h.resolved]
  have hfirst := (Changes.refl (.resolve r) t).put h.stored hrow
  rcases retireSuperseded_ok h.superseded with ⟨hsame, _⟩ | ⟨haccept, s, q, reason, hs, hq, hqlive,
    hput⟩
  · rw [hsame]
    exact hfirst
  · rw [hput]
    have hne := target_ne ht.toRecorded h.stored h.pending hs
    have hq' : t.get? s = some q := by
      rwa [get?_put_assign, if_neg (hkey.trans_ne hne)] at hq
    apply hfirst.put hq'
    constructor
    case toMoves => exact retirement_moves hqlive _ _ _ _
    case named =>
      refine .inr ⟨hqlive, rfl, haccept, row, h.stored, ?_⟩
      rw [hs, Table.key_of_get? hq']
    case accepted =>
      intro hlive
      cases hlive

theorem changes_handle (ht : Lawful d t) (r : Request δ) : Changes r t (handle d t r) := by
  unfold handle
  cases hperform : r.perform d t with
  | error e => exact Changes.refl r t
  | ok t' =>
    cases r with
    | propose r =>
      have ⟨proposer, _, hfresh, hput, _⟩ := proposal_ok hperform
      intro id p hp
      have hne : r.mintedProcedureId ≠ id := by
        intro hsame
        rw [← hsame, hfresh] at hp
        cases hp
      rw [hput]
      exact ⟨p, (Table.get?_put_of_ne t hne).trans hp, .inl rfl⟩
    | resolve r =>
      have ⟨row, x, actor, hresolves⟩ := resolution_ok hperform
      exact changes_resolution ht hresolves
    | retire r =>
      have ⟨row, actor, reason, hget, hversion, hlive, hput⟩ := retirement_ok hperform
      rw [hput]
      apply (Changes.refl (.retire r) t).put hget
      constructor
      case toMoves => exact retirement_moves hlive _ _ _ _
      case named => exact .inl ⟨(Table.key_of_get? hget).symm, hversion⟩
      case accepted =>
        intro hlive'
        cases hlive'

/-- An acceptance leaves its row live and the target of its row retired. -/
def Retires (d : Definitions δ) (t : Procedures δ) : Request δ → Prop
  | .resolve r => r.action = .accept → ∀ t', r.perform d t = .ok t' →
      ∃ p q, t.get? r.procedureId = some p ∧ t'.get? r.procedureId = some q ∧ q.status = .live ∧
        ∀ s ∈ p.supersedesProcedureId, ∃ target, t'.get? s = some target ∧ target.status = .retired
  | _ => True

theorem retires_of_lawful (ht : Lawful d t) (r : Request δ) : Retires d t r := by
  cases r with
  | propose r => trivial
  | retire r => trivial
  | resolve r =>
    intro haccept t' hperform
    have ⟨row, x, actor, h⟩ := resolution_ok hperform
    have hkey : row.procedureId = r.procedureId := Table.key_of_get? h.stored
    have hlive : (x.assign row).status = .live := by
      change x.toStatus = .live
      rw [h.status, haccept]
      rfl
    have hmoved : (t.put (x.assign row)).get? r.procedureId = some (x.assign row) := by
      rw [get?_put_assign, if_pos hkey]
    refine ⟨row, x.assign row, h.stored, ?_⟩
    rcases retireSuperseded_ok h.superseded with ⟨hsame, hretired⟩ | ⟨_, s, q, reason, hs, hq,
      _, hput⟩
    · rw [hsame]
      exact ⟨hmoved, hlive, hretired haccept⟩
    · have hqs : q.procedureId = s := Table.key_of_get? hq
      have hne := target_ne ht.toRecorded h.stored h.pending hs
      rw [hput]
      refine ⟨?_, hlive, ?_⟩
      · rw [get?_put_assign, if_neg (hqs.trans_ne hne.symm)]
        exact hmoved
      · intro s' hs'
        have hsame : s = s' := Option.some.inj (hs.symm.trans hs')
        rw [get?_put_assign, if_pos (hqs.trans hsame)]
        exact ⟨_, rfl, rfl⟩

/-- A row later on: the same proposal, no smaller version, and a final status for good. -/
structure Evolved (p q : ProcedureRecord δ) : Prop where
  same : SameProposal p q
  version : p.version ≤ q.version
  final : terminal p.status = true → q = p
  wasLive : wasLive p.status = true → wasLive q.status = true

theorem Evolved.refl (p : ProcedureRecord δ) : Evolved p p :=
  ⟨SameProposal.refl p, le_rfl, fun _ => rfl, fun h => h⟩

theorem Evolved.trans {r : ProcedureRecord δ} (h : Evolved p q) (h' : Evolved q r) :
    Evolved p r where
  same := h.same.trans h'.same
  version := h.version.trans h'.version
  final := by
    intro hfinal
    have hqp := h.final hfinal
    rw [h'.final (hqp ▸ hfinal), hqp]
  wasLive := fun hlive => h'.wasLive (h.wasLive hlive)

theorem Moves.evolved (h : Moves p q) : Evolved p q where
  same := h.same
  version := by
    rw [h.version]
    omega
  final := by
    intro hfinal
    rw [not_terminal_of_allowed h.allowed] at hfinal
    cases hfinal
  wasLive := wasLive_of_allowed h.allowed

def Evolves (t t' : Procedures δ) : Prop :=
  ∀ id p, t.get? id = some p → ∃ q, t'.get? id = some q ∧ Evolved p q

theorem Changes.evolves {r : Request δ} (h : Changes r t t') : Evolves t t' := by
  intro id p hp
  have ⟨q, hq, hcases⟩ := h id p hp
  rcases hcases with hsame | hchanged
  · exact ⟨q, hq, hsame ▸ Evolved.refl q⟩
  · exact ⟨q, hq, hchanged.toMoves.evolved⟩

theorem evolves_run (ht : Lawful d t) (requests : List (Request δ)) :
    Evolves t (run d t requests) := by
  induction requests generalizing t with
  | nil => exact fun _ p hp => ⟨p, hp, Evolved.refl p⟩
  | cons r rest ih =>
    intro id p hp
    have ⟨q, hq, hfirst⟩ := (changes_handle ht r).evolves id p hp
    have ⟨q', hq', hrest⟩ := ih (lawful_handle ht r) id q hq
    exact ⟨q', hq', hfirst.trans hrest⟩

/-- What was live at some time is recorded as accepted by someone else ever after. -/
def ReviewedEverAfter (t t' : Procedures δ) : Prop :=
  ∀ id p, t.get? id = some p → p.status = .live → ∃ q, t'.get? id = some q ∧ Reviewed q

/-- After any sequence of requests the table is lawful, the next request changes the
rows that it names and an acceptance the superseded one, and every row evolves. -/
theorem procedure_lifecycle (d : Definitions δ) (earlier later : List (Request δ)) (r : Request δ) :
    Lawful d (run d ∅ earlier) ∧
      Changes r (run d ∅ earlier) (run d ∅ (earlier ++ [r])) ∧
      Retires d (run d ∅ earlier) r ∧
      Evolves (run d ∅ earlier) (run d ∅ (earlier ++ later)) ∧
      ReviewedEverAfter (run d ∅ earlier) (run d ∅ (earlier ++ later)) := by
  have hlawful : Lawful d (run d ∅ earlier) := lawful_run lawful_empty earlier
  have hlater : run d ∅ (earlier ++ later) = run d (run d ∅ earlier) later :=
    List.foldl_append
  have hnext : run d ∅ (earlier ++ [r]) = handle d (run d ∅ earlier) r := List.foldl_append
  have hevolves := evolves_run hlawful later
  rw [hnext, hlater]
  refine ⟨hlawful, changes_handle hlawful r, retires_of_lawful hlawful r, hevolves, ?_⟩
  intro id p hp hlive
  have ⟨q, hq, hevolved⟩ := hevolves id p hp
  have hwas : wasLive q.status = true := by
    apply hevolved.wasLive
    rw [hlive]
    rfl
  exact ⟨q, hq, (lawful_run hlawful later).reviewed id q hq hwas⟩

def actor (id : String) : GovernedActorContext where
  actorType := .humanUser
  actorId := id
  orgId := "org"
  operationId := "op"
  timestamp := 0

def caller (id : String) : Caller Unit where
  actorContext := some (actor id)
  currentMode := .graphWrite
  now := 0
  compile := fun _ => .ok { configDigest := "config", lockDigest := "lock" }

def proposal (id : String) (supersedes : Option String) : Request Unit := .propose {
  definition := { name := "check", body := () }
  supersedesProcedureId := supersedes
  mintedProcedureId := id
  caller := caller "author" }

def acceptance (id by_ : String) : Request Unit := .resolve {
  action := .accept
  procedureId := id
  expectedVersion := some 1
  caller := caller by_ }

/-- The author cannot accept the revision; another actor can, which retires the
procedure that it replaces. A second revision of that procedure is then refused. -/
def revision : List (Request Unit) :=
  [proposal "PRC-1" none, acceptance "PRC-1" "reviewer", proposal "PRC-2" (some "PRC-1"),
   proposal "PRC-3" (some "PRC-1"), acceptance "PRC-2" "author", acceptance "PRC-2" "reviewer",
   acceptance "PRC-3" "reviewer"]

example : ((run ⟨fun _ => "digest", some⟩ ∅ revision).rows.map fun p =>
    (p.procedureId, p.status, p.version)) =
    [("PRC-1", .retired, 3), ("PRC-2", .live, 2), ("PRC-3", .pending, 1)] := by decide +kernel

end Cruxible.ProcedureHistories
