import Cruxible.ContractConsumption
import Cruxible.NumberedLogs

/-!
# Histories of resolution contracts

A contract is answered by resolutions and a resolution is judged by dispositions,
both in append-only tables that number their rows. The status of a contract is
derived twice: from its latest resolution and the latest disposition of that one,
when contracts are listed, and by a query over all its resolutions, when the
outcome queues are. A resolution stands unless its latest disposition overturns it.

Every resolution but the latest of its contract is overturned, and stays so: its
disposition has been answered and is not revised. The two derivations agree on
such tables.
-/
namespace Cruxible.ContractHistories
open JsonValue PythonDict AssertionState Fallible Cruxible.Graph PropertyValidation
open ResolutionContracts ContractConsumption NumberedLogs

variable {δ : Type}

inductive ContractStatus where
  | prepared
  | opened
  | resolved
  deriving DecidableEq, Repr

inductive ClockQueue where
  | due
  | overdue
  deriving DecidableEq, Repr

/-- The latest disposition does not overturn the resolution. -/
def standing (s : ContractStore δ) (r : ContractResolution) : Bool :=
  ((s.listDispositions r.resolutionId).getLast?).all fun d => d.verdict ≠ .overturned

/-- The row of `get_latest_resolutions`. -/
def latestResolution (s : ContractStore δ) (contractId : String) : Option ContractResolution :=
  (s.listResolutions contractId).getLast?

/-- The status that `_build_list_items` derives. -/
def contractStatus (s : ContractStore δ) (contractId : String) : ContractStatus :=
  if s.activated contractId = false then .prepared
  else if (latestResolution s contractId).any (standing s) then .resolved
  else .opened

def ClockQueue.clock (q : ClockQueue) (c : ResolutionContract δ) : Timestamp :=
  match q with
  | .due => c.declaration.checkAt
  | .overdue => c.declaration.expiresAt

/-- The test of `list_activated_unresolved`. -/
def activatedUnresolved (s : ContractStore δ) (q : ClockQueue) (before : Timestamp)
    (c : ResolutionContract δ) : Bool :=
  s.activated c.contractId && q.clock c ≤ before &&
    !(s.resolutions.any fun r => r.contractId = c.contractId && standing s r)

def checkedBefore (c d : ResolutionContract δ) : Prop :=
  c.declaration.checkAt < d.declaration.checkAt ∨
    (c.declaration.checkAt = d.declaration.checkAt ∧ c.contractId ≤ d.contractId)

instance : DecidableRel (checkedBefore (δ := δ)) := fun _ _ => inferInstanceAs (Decidable (_ ∨ _))

def listActivatedUnresolved (s : ContractStore δ) (q : ClockQueue) (before : Timestamp) :
    List (ResolutionContract δ) :=
  (s.contracts.filter (activatedUnresolved s q before)).insertionSort checkedBefore

/-- `list_undisposed_contradictions`, newest first. -/
def listUndisposedContradictions (s : ContractStore δ) :
    List (ResolutionContract δ × ContractResolution) :=
  ((s.resolutions.filter fun r => r.verdict = .contradicted &&
      (s.dispositions.all fun d => d.resolutionId ≠ r.resolutionId)).insertionSort
    fun a b => b.recordedAt ≤ a.recordedAt).flatMap fun r =>
      (s.contracts.filter fun c => c.contractId = r.contractId).map fun c => (c, r)

structure ContractQueueEntry where
  contractId : String
  entityType : String
  entityId : String
  description : String
  checkAt : Timestamp
  expiresAt : Timestamp
  overdue : Bool := false
  latestResolution : Option ContractResolution := none

/-- `_subject_is_live`. -/
def subjectIsLive (g : EntityGraph) (now : Timestamp) (c : ResolutionContract δ) : Bool :=
  (g.getEntity c.entityType c.entityId).any fun e => e.metadata.isLive now

def queueEntry (c : ResolutionContract δ) : ContractQueueEntry where
  contractId := c.contractId
  entityType := c.entityType
  entityId := c.entityId
  description := c.declaration.description
  checkAt := c.declaration.checkAt
  expiresAt := c.declaration.expiresAt

/-- `_clock_entries`. -/
def clockEntries (s : ServiceState δ) (q : ClockQueue) (now : Timestamp) :
    List ContractQueueEntry :=
  ((listActivatedUnresolved s.contracts q now).filter (subjectIsLive s.graph now)).map fun c =>
    { queueEntry c with overdue := c.declaration.expiresAt ≤ now }

/-- `_contradicted_entries`. -/
def contradictedEntries (s : ServiceState δ) (now : Timestamp) : List ContractQueueEntry :=
  (((listUndisposedContradictions s.contracts).filter fun p =>
      subjectIsLive s.graph now p.1).insertionSort fun a b =>
    b.2.recordedAt < a.2.recordedAt ∨
      (b.2.recordedAt = a.2.recordedAt ∧ a.1.contractId ≤ b.1.contractId)).map fun p =>
    { queueEntry p.1 with latestResolution := some p.2 }

/-- What every accepted operation keeps of the tables. -/
structure History (s : ContractStore δ) : Prop where
  resolutions : Numbered ContractResolution.contractId ContractResolution.sequence s.resolutions
  dispositions :
    Numbered ResolutionDisposition.resolutionId ResolutionDisposition.sequence s.dispositions
  resolutionIds : (s.resolutions.map ContractResolution.resolutionId).Nodup
  disposed : ∀ d ∈ s.dispositions, ∃ r ∈ s.resolutions, r.resolutionId = d.resolutionId
  activated : ∀ r ∈ s.resolutions, s.activated r.contractId = true
  answered : ∀ r ∈ s.resolutions, ∀ q ∈ s.resolutions, q.contractId = r.contractId →
    r.sequence < q.sequence → standing s r = false

section History
variable {s t : ContractStore δ}

theorem listResolutions_eq (h : History s) (contractId : String) :
    s.listResolutions contractId = entriesOf ContractResolution.contractId s.resolutions contractId :=
  h.resolutions.sort_eq contractId

theorem listDispositions_eq (h : History s) (resolutionId : String) :
    s.listDispositions resolutionId =
      entriesOf ResolutionDisposition.resolutionId s.dispositions resolutionId :=
  h.dispositions.sort_eq resolutionId

theorem History.empty : History ({} : ContractStore δ) where
  resolutions := Numbered.nil _ _
  dispositions := Numbered.nil _ _
  resolutionIds := List.nodup_nil
  disposed := fun _ hd => by cases hd
  activated := fun _ hr => by cases hr
  answered := fun _ hr => by cases hr

/-- New contracts and activations leave every answer as it is. -/
theorem History.extend (h : History s) (hr : t.resolutions = s.resolutions)
    (hd : t.dispositions = s.dispositions)
    (ha : ∀ id, s.activated id = true → t.activated id = true) : History t where
  resolutions := hr ▸ h.resolutions
  dispositions := hd ▸ h.dispositions
  resolutionIds := hr ▸ h.resolutionIds
  disposed := by
    rw [hr, hd]
    exact h.disposed
  activated := by
    rw [hr]
    exact fun r hr => ha _ (h.activated r hr)
  answered := by
    rw [hr]
    intro r hr' q hq hc hlt
    have hs := h.answered r hr' q hq hc hlt
    unfold standing ContractStore.listDispositions at hs ⊢
    rw [hd]
    exact hs

variable {r : ContractResolution}

theorem History.latest_of_standing (h : History s) (hr : r ∈ s.resolutions)
    (hs : standing s r = true) : latestResolution s r.contractId = some r := by
  unfold latestResolution
  rw [listResolutions_eq h, h.resolutions.getLast?_iff hr]
  intro q hq hc
  by_contra hlt
  rw [h.answered r hr q hq hc (by omega)] at hs
  cases hs

theorem mem_of_latest (h : History s) {contractId : String}
    (hr : latestResolution s contractId = some r) :
    r ∈ s.resolutions ∧ r.contractId = contractId := by
  unfold latestResolution at hr
  rw [listResolutions_eq h] at hr
  exact mem_entriesOf.mp (List.mem_of_getLast? hr)

theorem standing_iff_latest (h : History s) (contractId : String) :
    (∃ r ∈ s.resolutions, r.contractId = contractId ∧ standing s r = true) ↔
      (latestResolution s contractId).any (standing s) = true := by
  constructor
  case mp =>
    rintro ⟨r, hr, rfl, hs⟩
    rw [h.latest_of_standing hr hs]
    exact hs
  case mpr =>
    intro hany
    cases hlatest : latestResolution s contractId with
    | none =>
      rw [hlatest] at hany
      cases hany
    | some r =>
      rw [hlatest] at hany
      have ⟨hr, hc⟩ := mem_of_latest h hlatest
      exact ⟨r, hr, hc, hany⟩

end History

section Operations
variable {s t : ServiceState δ}

theorem records_keep {s t : ContractStore δ} {intents : List (ContractActivationIntent δ)}
    {mint : Nat → String} {receiptId : Option String} {now : Timestamp}
    (h : recordContractActivations s intents mint receiptId now = .ok t) :
    t.resolutions = s.resolutions ∧ t.dispositions = s.dispositions := by
  unfold recordContractActivations at h
  apply foldlM_invariant (fun u : ContractStore δ =>
    u.resolutions = s.resolutions ∧ u.dispositions = s.dispositions) ⟨rfl, rfl⟩ _ h
  intro p _ a b ha hstep
  rw [(saveActivation_ok hstep).1]
  exact ha

variable {env : ContractEnv δ} {r : ResolveRequest} {q : DisposeRequest}

theorem nextResolutionSequence_ok {s : ContractStore δ} (h : History s) {contractId : String}
    {n : Nat} (hok : nextResolutionSequence s contractId = .ok n) :
    n = (entriesOf ContractResolution.contractId s.resolutions contractId).length + 1 ∧
      ∀ r ∈ s.resolutions, r.contractId = contractId → standing s r = false := by
  have hnext := h.resolutions.next_eq contractId
  unfold nextResolutionSequence at hok
  rw [listResolutions_eq h] at hok
  cases hlast : (entriesOf ContractResolution.contractId s.resolutions contractId).getLast? with
  | none =>
    rw [hlast] at hok hnext
    cases hok
    refine ⟨hnext, ?_⟩
    intro r hr hc
    rw [List.getLast?_eq_none_iff] at hlast
    have hmem := mem_entriesOf.mpr ⟨hr, hc⟩
    rw [hlast] at hmem
    cases hmem
  | some latest =>
    rw [hlast] at hok hnext
    simp only at hok
    split at hok
    · rename_i d hd
      split_ifs at hok with hv
      cases hok
      refine ⟨hnext, ?_⟩
      intro r hr hc
      obtain ⟨hmem, hlatest⟩ := mem_entriesOf.mp (List.mem_of_getLast? hlast)
      have hoverturned : standing s latest = false := by simp [standing, hd, hv]
      by_cases heq : r = latest
      · rw [heq]
        exact hoverturned
      · have hle := h.resolutions.number_le hr
        rw [hc, ← h.resolutions.number_getLast? hlast] at hle
        have hne : r.sequence ≠ latest.sequence := fun hn =>
          heq (h.resolutions.eq_of_number hr hmem (hc.trans hlatest.symm) hn)
        exact h.answered r hr latest hmem (hlatest.trans hc.symm) (by omega)
    · cases hok

theorem history_resolve (h : serviceResolveOutcome env r s = .ok t) (hs : History s.contracts) :
    History t.contracts := by
  have ⟨_, row, ht, hactivated, hsequence, hfresh⟩ := resolve_adds h
  have ⟨hnumber, hnone⟩ := nextResolutionSequence_ok hs hsequence
  rw [ht]
  constructor
  case resolutions => exact hs.resolutions.append hnumber
  case dispositions => exact hs.dispositions
  case resolutionIds => exact nodup_append_key hs.resolutionIds (by simpa using hfresh)
  case disposed =>
    intro d hd
    have ⟨q, hq, hid⟩ := hs.disposed d hd
    exact ⟨q, List.mem_append_left _ hq, hid⟩
  case activated =>
    intro q hq
    rcases List.mem_append.mp hq with hq | hq
    · exact hs.activated q hq
    · rw [List.mem_singleton.mp hq]
      exact hactivated
  case answered =>
    intro q hq q' hq' hc hlt
    rcases List.mem_append.mp hq with hq | hq
    · rcases List.mem_append.mp hq' with hq' | hq'
      · exact hs.answered q hq q' hq' hc hlt
      · rw [List.mem_singleton.mp hq'] at hc
        exact hnone q hq hc.symm
    · rw [List.mem_singleton.mp hq] at hc hlt
      rcases List.mem_append.mp hq' with hq' | hq'
      · have hle := hs.resolutions.number_le hq'
        rw [hc] at hle
        omega
      · rw [List.mem_singleton.mp hq'] at hlt
        omega

theorem history_dispose (h : serviceDisposeResolution q s = .ok t) (hs : History s.contracts) :
    History t.contracts := by
  have ⟨_, row, r, ht, hr, hid, hsequence, hlive⟩ := dispose_adds h
  rw [listDispositions_eq hs, hs.dispositions.next_eq] at hsequence
  have hdispositions := hs.dispositions.append hsequence
  rw [ht]
  constructor
  case resolutions => exact hs.resolutions
  case dispositions => exact hdispositions
  case resolutionIds => exact hs.resolutionIds
  case disposed =>
    intro d hd
    rcases List.mem_append.mp hd with hd | hd
    · exact hs.disposed d hd
    · rw [List.mem_singleton.mp hd]
      exact ⟨r, hr, hid⟩
  case activated => exact hs.activated
  case answered =>
    intro x hx y hy hc hlt
    have hbefore := hs.answered x hx y hy hc hlt
    by_cases hrow : row.resolutionId = x.resolutionId
    · have hxr : x = r :=
        List.inj_on_of_nodup_map hs.resolutionIds hx hr (hrow.symm.trans hid.symm)
      rw [hrow] at hlive
      unfold standing at hbefore
      cases hlast : (s.contracts.listDispositions x.resolutionId).getLast? with
      | none =>
        rw [hlast] at hbefore
        cases hbefore
      | some d =>
        rw [hlast] at hbefore hlive
        have hlater : ((s.contracts.listResolutions r.contractId).any
            fun later => r.sequence < later.sequence) = true := by
          rw [listResolutions_eq hs]
          exact List.any_eq_true.mpr
            ⟨y, mem_entriesOf.mpr ⟨hy, hxr ▸ hc⟩, by simpa [← hxr] using hlt⟩
        have hverdict : d.verdict = .overturned := by simpa using hbefore
        simp [resolutionAnsweredAfter, hverdict, hlater] at hlive
    · unfold standing at hbefore ⊢
      have hsame : ContractStore.listDispositions { s.contracts with
          dispositions := s.contracts.dispositions ++ [row] } x.resolutionId =
            s.contracts.listDispositions x.resolutionId := by
        unfold ContractStore.listDispositions
        simp [hrow]
      rw [hsame]
      exact hbefore

theorem history_commitState [DecidableEq δ] {p : Plan} (h : commitState env p s = .ok t)
    (hs : History s.contracts) : History t.contracts := by
  have hextends := (commitState_keeps h).1
  cases p with
  | write d loaded =>
    have ⟨a⟩ := accepted_of_commit h
    have ⟨hr, hd⟩ := records_keep a.records
    exact hs.extend hr hd hextends.activated
  | openContract o =>
    obtain ⟨rows, rfl, _⟩ := serviceOpenResolutionContract_ok h
    exact hs.extend rfl rfl hextends.activated
  | resolveOutcome r => exact history_resolve h hs
  | disposeResolution q => exact history_dispose h hs
  | other x =>
    have ⟨g, _, h⟩ := bind_eq_ok.mp h
    cases h
    exact hs

end Operations

/-- What the tables, the listed status and the queues say of one history. -/
structure Coherent (s : ServiceState δ) : Prop where
  oneStanding : ∀ r ∈ s.contracts.resolutions, ∀ q ∈ s.contracts.resolutions,
    q.contractId = r.contractId → standing s.contracts r = true → standing s.contracts q = true →
    q = r
  standingIsLatest : ∀ r ∈ s.contracts.resolutions, standing s.contracts r = true →
    ∀ q ∈ s.contracts.resolutions, q.contractId = r.contractId → q.sequence ≤ r.sequence
  numbered : ∀ contractId, (s.contracts.listResolutions contractId).map (·.sequence) =
    List.range' 1 (s.contracts.listResolutions contractId).length
  activated : ∀ r ∈ s.contracts.resolutions, s.contracts.activated r.contractId = true
  queue : ∀ q now c, c ∈ listActivatedUnresolved s.contracts q now ↔ c ∈ s.contracts.contracts ∧
    contractStatus s.contracts c.contractId = .opened ∧ q.clock c ≤ now
  clockEntries : ∀ q now e, e ∈ clockEntries s q now ↔ ∃ c ∈ s.contracts.contracts,
    (contractStatus s.contracts c.contractId = .opened ∧ q.clock c ≤ now ∧
      subjectIsLive s.graph now c = true) ∧
    e = { queueEntry c with overdue := c.declaration.expiresAt ≤ now }
  contradictions : ∀ c r, (c, r) ∈ listUndisposedContradictions s.contracts →
    r.verdict = .contradicted ∧ standing s.contracts r = true ∧
      latestResolution s.contracts c.contractId = some r
  contradictedEntries : ∀ now, ∀ e ∈ contradictedEntries s now, ∃ r,
    e.latestResolution = some r ∧ standing s.contracts r = true ∧
      latestResolution s.contracts e.contractId = some r

section Views
variable {s : ServiceState δ}

theorem mem_listActivatedUnresolved {s : ContractStore δ} (h : History s) (q : ClockQueue)
    (now : Timestamp) (c : ResolutionContract δ) :
    c ∈ listActivatedUnresolved s q now ↔
      c ∈ s.contracts ∧ contractStatus s c.contractId = .opened ∧ q.clock c ≤ now := by
  have hstanding : (s.resolutions.any fun r => r.contractId = c.contractId && standing s r) =
      (latestResolution s c.contractId).any (standing s) := by
    rw [Bool.eq_iff_iff, ← standing_iff_latest h, List.any_eq_true]
    simp only [Bool.and_eq_true, decide_eq_true_eq]
  unfold listActivatedUnresolved
  rw [List.mem_insertionSort, List.mem_filter, activatedUnresolved, hstanding]
  unfold contractStatus
  constructor
  case mp =>
    rintro ⟨hc, htest⟩
    simp only [Bool.and_eq_true, decide_eq_true_eq, Bool.not_eq_true'] at htest
    exact ⟨hc, by simp [htest.1.1, htest.2], htest.1.2⟩
  case mpr =>
    rintro ⟨hc, hstatus, hclock⟩
    refine ⟨hc, ?_⟩
    split_ifs at hstatus with hactivated hresolved
    rw [Bool.not_eq_false] at hactivated
    rw [Bool.not_eq_true] at hresolved
    simp [hactivated, hresolved, hclock]

theorem mem_listUndisposedContradictions {s : ContractStore δ} (h : History s)
    {c : ResolutionContract δ} {r : ContractResolution}
    (hmem : (c, r) ∈ listUndisposedContradictions s) :
    r.verdict = .contradicted ∧ standing s r = true ∧
      latestResolution s c.contractId = some r := by
  unfold listUndisposedContradictions at hmem
  have ⟨q, hq, hpair⟩ := List.mem_flatMap.mp hmem
  have ⟨d, hd, heq⟩ := List.mem_map.mp hpair
  cases heq
  rw [List.mem_insertionSort, List.mem_filter] at hq
  have ⟨hr, htest⟩ := hq
  simp only [Bool.and_eq_true, decide_eq_true_eq] at htest
  have hc : c.contractId = r.contractId := by simpa using (List.mem_filter.mp hd).2
  have hnone : s.listDispositions r.resolutionId = [] := by
    unfold ContractStore.listDispositions
    have hempty : (s.dispositions.filter fun d => d.resolutionId = r.resolutionId) = [] := by
      rw [List.filter_eq_nil_iff]
      intro d hd
      have hne := List.all_eq_true.mp htest.2 d hd
      simpa using hne
    rw [hempty]
    rfl
  have hstands : standing s r = true := by
    unfold standing
    rw [hnone]
    rfl
  refine ⟨htest.1, hstands, ?_⟩
  rw [hc]
  exact h.latest_of_standing hr hstands

theorem coherent_of_history (h : History s.contracts) : Coherent s := by
  constructor
  case oneStanding =>
    intro r hr q hq hc hsr hsq
    have hlatest := h.latest_of_standing hr hsr
    rw [← hc, h.latest_of_standing hq hsq] at hlatest
    exact Option.some.inj hlatest
  case standingIsLatest =>
    intro r hr hsr q hq hc
    by_contra hlt
    rw [h.answered r hr q hq hc (by omega)] at hsr
    cases hsr
  case numbered =>
    intro contractId
    rw [listResolutions_eq h]
    exact h.resolutions contractId
  case activated => exact h.activated
  case queue => exact fun q now c => mem_listActivatedUnresolved h q now c
  case clockEntries =>
    intro q now e
    unfold clockEntries
    rw [List.mem_map]
    constructor
    case mp =>
      rintro ⟨c, hc, rfl⟩
      have ⟨hlisted, hlive⟩ := List.mem_filter.mp hc
      have ⟨hstored, hstatus, hclock⟩ := (mem_listActivatedUnresolved h q now c).mp hlisted
      exact ⟨c, hstored, ⟨hstatus, hclock, hlive⟩, rfl⟩
    case mpr =>
      rintro ⟨c, hstored, ⟨hstatus, hclock, hlive⟩, rfl⟩
      have hlisted := (mem_listActivatedUnresolved h q now c).mpr ⟨hstored, hstatus, hclock⟩
      exact ⟨c, List.mem_filter.mpr ⟨hlisted, hlive⟩, rfl⟩
  case contradictions => exact fun c r hmem => mem_listUndisposedContradictions h hmem
  case contradictedEntries =>
    intro now e he
    unfold contradictedEntries at he
    have ⟨p, hp, hpe⟩ := List.mem_map.mp he
    rw [List.mem_insertionSort] at hp
    have ⟨_, hstands, hlatest⟩ := mem_listUndisposedContradictions h (List.mem_filter.mp hp).1
    subst hpe
    exact ⟨p.2, rfl, hstands, hlatest⟩

end Views

/-- A transaction of the contract service, over whatever rows it has loaded, or the
activations that another accepted write records. -/
inductive Operation (δ : Type) where
  | transaction (p : Plan)
  | activate (intents : List (ContractActivationIntent δ)) (mint : Nat → String)
      (receiptId : Option String) (now : Timestamp)

variable [DecidableEq δ]

def Operation.apply (env : ContractEnv δ) (s : ServiceState δ) :
    Operation δ → Except CoreError (ServiceState δ)
  | .transaction p => commitState env p s
  | .activate intents mint receiptId now => do
      let contracts ← recordContractActivations s.contracts intents mint receiptId now
      return { s with contracts := contracts }

/-- A refused operation is rolled back. -/
def perform (env : ContractEnv δ) (s : ServiceState δ) (o : Operation δ) : ServiceState δ :=
  match o.apply env s with
  | .ok t => t
  | .error _ => s

def run (env : ContractEnv δ) (s : ServiceState δ) (operations : List (Operation δ)) :
    ServiceState δ :=
  operations.foldl (perform env) s

variable {s : ServiceState δ}

theorem history_perform (env : ContractEnv δ) (o : Operation δ) (hs : History s.contracts) :
    History (perform env s o).contracts := by
  unfold perform
  split
  · rename_i t h
    cases o with
    | transaction p => exact history_commitState h hs
    | activate intents mint receiptId now =>
      have ⟨contracts, hrecord, h⟩ := bind_eq_ok.mp h
      cases h
      have ⟨hr, hd⟩ := records_keep hrecord
      exact hs.extend hr hd (recordContractActivations_ok hrecord).1.activated
  · exact hs

theorem history_run (env : ContractEnv δ) (operations : List (Operation δ))
    (hs : History s.contracts) : History (run env s operations).contracts := by
  induction operations generalizing s with
  | nil => exact hs
  | cons o operations ih => exact ih (history_perform env o hs)

/-- Whatever sequence of operations an instance has seen, its histories of answers
are linear and every view of them agrees. -/
theorem contract_views_agree (env : ContractEnv δ) (g : EntityGraph)
    (operations : List (Operation δ)) : Coherent (run env { graph := g } operations) :=
  coherent_of_history (history_run env operations History.empty)

/-- The decision is written with a status. -/
def writeDecision (status : String) : Operation Value :=
  .transaction
    (.write
      { request := .addEntities [decision [("status", .str status)]],
        mint := fun k => "RSA-" ++ toString k }
      none)

/-- A decision is proposed, promised against and accepted. -/
def acceptance : List (Operation Value) :=
  [writeDecision "proposed",
   .transaction (.openContract
      { entityType := "Decision", entityId := "d",
        declaration :=
          { description := "fewer pages", checkAt := 5, expiresAt := 9, measurement := .null },
        actorContext := some opener, contractId := "RSC-1" }),
   writeDecision "accepted"]

/-- Before its check time the contract is open, and no queue lists it. -/
theorem undue_contract_is_not_queued :
    ∃ c ∈ (run decisionEnv { graph := {} } acceptance).contracts.contracts,
      contractStatus (run decisionEnv { graph := {} } acceptance).contracts c.contractId = .opened ∧
      ∀ q, c ∉ listActivatedUnresolved (run decisionEnv { graph := {} } acceptance).contracts q 4 := by
  have hrun : ∃ c ∈ (run decisionEnv { graph := {} } acceptance).contracts.contracts,
      contractStatus (run decisionEnv { graph := {} } acceptance).contracts c.contractId = .opened ∧
      c ∉ listActivatedUnresolved (run decisionEnv { graph := {} } acceptance).contracts .due 4 ∧
      c ∉ listActivatedUnresolved (run decisionEnv { graph := {} } acceptance).contracts
        .overdue 4 := by
    decide +kernel
  have ⟨c, hc, hstatus, hdue, hoverdue⟩ := hrun
  refine ⟨c, hc, hstatus, ?_⟩
  intro q
  cases q with
  | due => exact hdue
  | overdue => exact hoverdue

end Cruxible.ContractHistories
