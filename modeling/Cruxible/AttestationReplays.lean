import Cruxible.Attestations
import Cruxible.FreeWrites

/-!
# Replays of attestations

A keyed request that was accepted has exactly one record, and the table keeps it
whatever else happens. Repeating the request hands this record back as long as its
target still names the recorded claim, or no claim at all, in the graph of the day,
and every other observation under the key is refused. The key of an edge is counted
anew at each load, so a request that gives one may come to name another edge.
-/
namespace Cruxible.AttestationReplays
open JsonValue PythonDict AssertionState Fallible Cruxible.Graph PropertyValidation
open GraphOperations DirectWrites Feedback Storage KeyedTable Attestations
open GovernedWrites hiding serviceAttest

/-- The claim that a request resolved is not known to be another than the recorded. -/
def SameClaim (r : AttestationRecord) (resolved : Option RelationshipInstance) : Prop :=
  ∀ c d, r.claimId = some c → resolved.bind RelationshipInstance.claimId = some d → c = d

/-- The request is the observation of the record, field by field. -/
structure Agrees (r : AttestationRecord) (q : AttestRequest)
    (resolved : Option RelationshipInstance) : Prop where
  stance : r.stance = q.stance
  evidence : Value.pyEqItems r.evidenceRefs q.evidenceRefs = true
  observedAt : r.observedAt = q.observedAt
  note : r.note = q.note
  claim : SameClaim r resolved
  edgeKey : q.target.edgeKey = none ∨ r.edgeKey = q.target.edgeKey

theorem claimDivergence_eq_nil {recorded resolved : Option String} :
    claimDivergence recorded resolved = [] ↔
      ∀ c d, recorded = some c → resolved = some d → c = d := by
  unfold claimDivergence
  cases recorded with
  | none => simp
  | some c =>
    cases resolved with
    | none => simp
    | some d => by_cases h : c = d <;> simp [h]

variable {r : AttestationRecord} {resolved : Option RelationshipInstance}
  {t x : RelationshipInstance} {q : AttestRequest} {s : Instance}

theorem replayDivergences_eq_nil : replayDivergences r q resolved = [] ↔ Agrees r q resolved := by
  have hif : ∀ (p : Prop) [Decidable p] (label : String),
      (if p then [label] else []) = ([] : List String) ↔ ¬p := by
    intro p _ label
    by_cases h : p <;> simp [h]
  unfold replayDivergences
  simp only [List.append_eq_nil_iff, hif, claimDivergence_eq_nil]
  constructor
  · rintro ⟨⟨⟨⟨⟨hstance, hevidence⟩, hobserved⟩, hnote⟩, hclaim⟩, hkey⟩
    constructor
    case stance => exact not_not.mp hstance
    case evidence => simpa using hevidence
    case observedAt => exact not_not.mp hobserved
    case note => exact not_not.mp hnote
    case claim => exact hclaim
    case edgeKey =>
      by_cases hnone : q.target.edgeKey = none
      · exact .inl hnone
      · exact .inr (not_not.mp fun hne => hkey ⟨hnone, hne⟩)
  · intro h
    refine ⟨⟨⟨⟨⟨not_not.mpr h.stance, by simp [h.evidence]⟩, not_not.mpr h.observedAt⟩,
      not_not.mpr h.note⟩, h.claim⟩, ?_⟩
    rintro ⟨hsome, hne⟩
    exact h.edgeKey.elim hsome hne

/-- The answer that hands a record back. -/
def replayOf (r : AttestationRecord) : AttestationRecordResult :=
  { attestation := r, idempotentReplay := true, receiptId := r.receiptId }

theorem replay_eq_ok {result : AttestationRecordResult} :
    replay r q resolved = .ok result ↔ Agrees r q resolved ∧ result = replayOf r := by
  unfold replay
  dsimp only
  split_ifs with h
  · rw [ne_eq, replayDivergences_eq_nil] at h
    simp [h]
  · rw [not_not, replayDivergences_eq_nil] at h
    simp [h, replayOf, eq_comm]

/-- The claim id of a target; a blank one is an absent one. -/
def namedClaim (t : RelationshipInstance) : Option String :=
  (t.claimId.map strip).filter (· ≠ "")

variable {g : EntityGraph}

theorem getRelationship_named {key : Option Nat}
    (h : g.getRelationship t.fromType t.fromId t.toType t.toId t.relationshipType key = some x) :
    x.identityTuple = t.identityTuple := by
  have ⟨e, _, he⟩ := Option.map_eq_some_iff.mp h
  rw [← he]
  rfl

theorem resolved_named (h : resolveClaimTarget g t = .ok (some x)) :
    x.identityTuple = t.identityTuple := by
  unfold resolveClaimTarget at h
  dsimp only at h
  split at h
  · exact getRelationship_named (Except.ok.inj h)
  · split at h
    · cases h
    · cases h
    · rename_i byId _ _
      split_ifs at h with hname hkey
      rw [← Option.some.inj (Except.ok.inj h)]
      exact not_not.mp hname

/-- What a target still names, once `recorded` is the id of the claim that it named
when it was recorded: with a claim id, an edge of this tuple and this key, or no
edge at all; without one, the first edge under the tuple and key, if there is one. -/
def StillNames (g : EntityGraph) (t : RelationshipInstance) (recorded : Option String) : Prop :=
  let tupleMatch := g.getRelationship t.fromType t.fromId t.toType t.toId t.relationshipType
    t.edgeKey
  match namedClaim t with
  | none => ∀ x, tupleMatch = some x → ∀ c, recorded = some c → x.claimId = some c
  | some claimId =>
      match g.findRelationshipByClaimId claimId with
      | none => tupleMatch = none
      | some byId => byId.identityTuple = t.identityTuple ∧
          (t.edgeKey = none ∨ byId.edgeKey = t.edgeKey)

theorem stillNames_iff (hnamed : namedClaim t = none ∨ namedClaim t = r.claimId) :
    (∃ resolved, resolveClaimTarget g t = .ok resolved ∧ SameClaim r resolved) ↔
      StillNames g t r.claimId := by
  unfold resolveClaimTarget StillNames namedClaim
  unfold namedClaim at hnamed
  dsimp only
  cases hclaim : (t.claimId.map strip).filter (· ≠ "") with
  | none =>
    constructor
    · rintro ⟨resolved, hresolved, hsame⟩ x hx c hc
      rw [← Except.ok.inj hresolved, hx] at hsame
      have ⟨e, _, he⟩ := Option.map_eq_some_iff.mp hx
      rw [← he] at hsame ⊢
      exact congrArg some (hsame c _ hc rfl).symm
    · intro h
      refine ⟨_, rfl, ?_⟩
      intro c d hc hd
      have ⟨x, hx, hxd⟩ := Option.bind_eq_some_iff.mp hd
      exact Option.some.inj ((h x hx c hc).symm.trans hxd)
  | some claimId =>
    have hrecorded : r.claimId = some claimId := by
      rw [hclaim] at hnamed
      exact (hnamed.resolve_left nofun).symm
    dsimp only
    cases hby : g.findRelationshipByClaimId claimId with
    | none =>
      cases hmatch : g.getRelationship t.fromType t.fromId t.toType t.toId t.relationshipType
        t.edgeKey with
      | none =>
        simp only [iff_true]
        exact ⟨none, rfl, by intro c d _ hd; cases hd⟩
      | some live => simp
    | some byId =>
      have hid : byId.claimId = some claimId := by
        unfold EntityGraph.findRelationshipByClaimId at hby
        split_ifs at hby
        have ⟨e, _, he⟩ := Option.map_eq_some_iff.mp hby
        rw [← he]
      have hsame : SameClaim r (some byId) := by
        intro c d hc hd
        have hd : byId.claimId = some d := hd
        rw [hrecorded] at hc
        rw [hid] at hd
        exact (Option.some.inj hc).symm.trans (Option.some.inj hd)
      dsimp only
      split_ifs with hname hkey
      · simp [hname]
      · have hne : ¬(t.edgeKey = none ∨ byId.edgeKey = t.edgeKey) := by
          rintro (h | h)
          · rw [h] at hkey
            cases hkey.1
          · exact hkey.2 h
        simp [hne]
      · have hkeys : t.edgeKey = none ∨ byId.edgeKey = t.edgeKey := by
          cases hk : t.edgeKey with
          | none => exact .inl rfl
          | some k =>
            right
            by_contra hne
            exact hkey ⟨by simp [hk], hk ▸ hne⟩
        simp only [hkeys, and_true, not_not.mp hname, iff_true]
        exact ⟨some byId, rfl, hsame⟩

section Calls
variable {call : AttestCall} {s t : Instance} {q : AttestRequest}
  {actor : GovernedActorContext} {out : Instance × AttestationRecordResult}

/-- What a request has to satisfy whatever its key stands for. -/
structure Admissible (s : Instance) (now : Timestamp) (q : AttestRequest) : Prop where
  evidenced : ¬(q.stance ≠ .unsure ∧ q.evidenceRefs = [])
  observed : q.observedAt ≤ now
  dereferenceable : ∀ artifactId ∈ q.evidenceRefs.filterMap citedArtifact,
    artifactId ∉ s.oversized

theorem refuseOversized_eq_ok {oversized : List String} {refs : List Value} {u : Unit} :
    refuseOversizedProcedureEvidence oversized refs = .ok u ↔
      ∀ artifactId ∈ refs.filterMap citedArtifact, artifactId ∉ oversized := by
  unfold refuseOversizedProcedureEvidence
  cases hfind : (refs.filterMap citedArtifact).find? (· ∈ oversized) with
  | none =>
    have hall := List.find?_eq_none.mp hfind
    simp only [true_iff]
    intro artifactId hmem
    simpa using hall artifactId hmem
  | some artifactId =>
    have hmem := List.mem_of_find?_eq_some hfind
    have hover : artifactId ∈ oversized := by simpa using List.find?_some hfind
    simp only [reduceCtorEq, false_iff]
    intro hall
    exact hall artifactId hmem hover

variable {resolved : Option RelationshipInstance}

theorem resolveRequest_eq_ok {now : Timestamp} :
    resolveRequest s now q = .ok (actor, resolved) ↔ q.actorContext = some actor ∧
      Admissible s now q ∧ resolveClaimTarget s.graph q.target = .ok resolved := by
  have hactor : ∀ a, requireActor q.actorContext "observer" = .ok a ↔ q.actorContext = some a := by
    intro a
    unfold requireActor
    cases q.actorContext with
    | none => simp
    | some b => simp
  unfold resolveRequest
  simp only [bind_eq_ok, hactor, refuseIf_eq_ok, refuseOversized_eq_ok, pure_eq_ok]
  constructor
  · rintro ⟨a, ha, -, hevidenced, -, hobserved, -, hsize, x, hx, heq⟩
    rw [Prod.mk.injEq] at heq
    exact ⟨heq.1 ▸ ha, ⟨hevidenced, Nat.not_lt.mp hobserved, hsize⟩, heq.2 ▸ hx⟩
  · rintro ⟨ha, ⟨hevidenced, hobserved, hsize⟩, hx⟩
    exact ⟨actor, ha, (), hevidenced, (), Nat.not_lt.mpr hobserved, (), hsize, resolved, hx, rfl⟩

theorem serviceAttest_stored {key : ObservationKey} (hr : r ∈ s.attestations.rows)
    (hkey : r.observationKey = some key) (hactor : q.actorContext = some actor)
    (hq : q.observationKey actor = some key) :
    serviceAttest call s q = .ok out ↔ out = (s, replayOf r) ∧ Admissible s call.now q ∧
      ∃ resolved, resolveClaimTarget s.graph q.target = .ok resolved ∧ Agrees r q resolved := by
  have hfind := AttestationStore.find_of_mem hr hkey
  unfold serviceAttest
  simp only [bind_eq_ok, Prod.exists, resolveRequest_eq_ok]
  constructor
  · rintro ⟨a, resolved, ⟨ha, hadmissible, hresolved⟩, h⟩
    have heq : actor = a := Option.some.inj (hactor.symm.trans ha)
    rw [← heq, hq, Option.bind_some, hfind] at h
    have ⟨result, hreplay, hout⟩ := bind_eq_ok.mp h
    have ⟨hagrees, hresult⟩ := replay_eq_ok.mp hreplay
    rw [pure_eq_ok, hresult] at hout
    exact ⟨hout.symm, hadmissible, resolved, hresolved, hagrees⟩
  · rintro ⟨hout, hadmissible, resolved, hresolved, hagrees⟩
    refine ⟨actor, resolved, ⟨hactor, hadmissible, hresolved⟩, ?_⟩
    rw [hq, Option.bind_some, hfind]
    exact bind_eq_ok.mpr ⟨_, replay_eq_ok.mpr ⟨hagrees, rfl⟩, pure_eq_ok.mpr hout.symm⟩

/-- The record that a new observation leaves. -/
structure Minted (q : AttestRequest) (actor : GovernedActorContext) (r : AttestationRecord) :
    Prop where
  stance : r.stance = q.stance
  evidence : r.evidenceRefs = q.evidenceRefs
  observedAt : r.observedAt = q.observedAt
  note : r.note = q.note
  edgeKey : q.target.edgeKey = none ∨ r.edgeKey = q.target.edgeKey
  observationKey : r.observationKey = q.observationKey actor

theorem observed_named {o : ObservedClaim}
    (hresolved : resolveClaimTarget s.graph q.target = .ok resolved)
    (h : observeClaim call s q actor resolved = .ok o) :
    o.relationship.identityTuple = q.target.identityTuple := by
  unfold observeClaim at h
  cases resolved with
  | some x =>
    rw [← Except.ok.inj h]
    exact resolved_named hresolved
  | none =>
    dsimp only at h
    split_ifs at h
    unfold createObservedClaim at h
    dsimp only at h
    split at h
    · split at h
      · cases h
      · rename_i hraced
        rw [← Except.ok.inj h]
        exact getRelationship_named hraced
    · cases h
    · split at h
      · cases h
      · rename_i hfound
        split_ifs at h
        · have ⟨graph, _, h⟩ := bind_eq_ok.mp h
          rw [← Except.ok.inj h]
          exact getRelationship_named hfound
        · rw [← Except.ok.inj h]
          exact getRelationship_named hfound

theorem attestationRecord_ok (hx : x.identityTuple = q.target.identityTuple)
    (h : attestationRecord call q actor x = .ok r) : Minted q actor r := by
  unfold attestationRecord at h
  have ⟨digest, _, h⟩ := bind_eq_ok.mp h
  have ⟨_, _, h⟩ := bind_eq_ok.mp h
  have ⟨_, _, h⟩ := bind_eq_ok.mp h
  rw [← Except.ok.inj h]
  constructor
  case stance => rfl
  case evidence => rfl
  case observedAt => rfl
  case note => rfl
  case edgeKey =>
    cases q.target.edgeKey with
    | none => exact .inl rfl
    | some k => exact .inr rfl
  case observationKey =>
    have hclaim : (x.fromType, x.fromId, x.toType, x.toId, x.relationshipType) =
        q.target.identityTuple := hx
    unfold AttestationRecord.observationKey AttestRequest.observationKey
      AttestationRecord.claimKey
    rw [hclaim]

/-- What an accepted request leaves in the table: the record that answers it. -/
structure Answered (t : Instance) (q : AttestRequest) (actor : GovernedActorContext)
    (r : AttestationRecord) : Prop where
  stored : r ∈ t.attestations.rows
  observationKey : r.observationKey = q.observationKey actor
  stance : r.stance = q.stance
  evidence : r.evidenceRefs = q.evidenceRefs ∨
    Value.pyEqItems r.evidenceRefs q.evidenceRefs = true
  observedAt : r.observedAt = q.observedAt
  note : r.note = q.note
  edgeKey : q.target.edgeKey = none ∨ r.edgeKey = q.target.edgeKey

theorem serviceAttest_ok {result : AttestationRecordResult}
    (h : serviceAttest call s q = .ok (t, result)) :
    (∀ p ∈ s.attestations.rows, p ∈ t.attestations.rows) ∧ Admissible s call.now q ∧
      ∃ actor, q.actorContext = some actor ∧ Answered t q actor result.attestation := by
  unfold serviceAttest at h
  have ⟨⟨actor, resolved⟩, hrequest, h⟩ := bind_eq_ok.mp h
  have ⟨hactor, hadmissible, hresolved⟩ := resolveRequest_eq_ok.mp hrequest
  dsimp only at h
  split at h
  · rename_i r hfind
    have ⟨key, hkey, hfind⟩ := Option.bind_eq_some_iff.mp hfind
    have ⟨hmem, hr⟩ := AttestationStore.mem_of_find hfind
    have ⟨replayed, hreplay, hout⟩ := bind_eq_ok.mp h
    have ⟨hagrees, hreplayed⟩ := replay_eq_ok.mp hreplay
    rw [pure_eq_ok, Prod.mk.injEq, hreplayed] at hout
    rw [← hout.1, ← hout.2]
    exact ⟨fun p hp => hp, hadmissible, actor, hactor, hmem, hr.trans hkey.symm,
      hagrees.stance, .inr hagrees.evidence, hagrees.observedAt, hagrees.note, hagrees.edgeKey⟩
  · unfold recordObservation at h
    have ⟨o, hobserve, h⟩ := bind_eq_ok.mp h
    have ⟨r, hrecord, h⟩ := bind_eq_ok.mp h
    have ⟨store, hsave, h⟩ := bind_eq_ok.mp h
    have hminted := attestationRecord_ok (observed_named hresolved hobserve) hrecord
    have ⟨hnew, hold⟩ := AttestationStore.saveAttestation_ok hsave
    rw [pure_eq_ok, Prod.mk.injEq] at h
    rw [← h.1, ← h.2]
    exact ⟨hold, hadmissible, actor, hactor, hnew, hminted.observationKey, hminted.stance,
      .inl hminted.evidence, hminted.observedAt, hminted.note, hminted.edgeKey⟩

end Calls

/-- Attesting is the only operation that touches the table. Every other one, be it a
review, a change of lifecycle, a pull or a procedure run, may leave any graph and any
evidence. -/
inductive Operation where
  | attest (call : AttestCall) (request : AttestRequest)
  | elsewhere (graph : EntityGraph) (oversized : List String)

/-- A refused request changes nothing. -/
def step (s : Instance) : Operation → Instance
  | .attest call q =>
      match serviceAttest call s q with
      | .ok (t, _) => t
      | .error _ => s
  | .elsewhere graph oversized => { s with graph := graph, oversized := oversized }

def run (s : Instance) (operations : List Operation) : Instance := operations.foldl step s

theorem mem_rows_step (o : Operation) (hr : r ∈ s.attestations.rows) :
    r ∈ (step s o).attestations.rows := by
  cases o with
  | elsewhere graph oversized => exact hr
  | attest call q =>
    unfold step
    dsimp only
    cases hattest : serviceAttest call s q with
    | error e => exact hr
    | ok out => exact (serviceAttest_ok hattest).1 r hr

theorem mem_rows_run (operations : List Operation) (hr : r ∈ s.attestations.rows) :
    r ∈ (run s operations).attestations.rows := by
  induction operations generalizing s with
  | nil => exact hr
  | cons o rest ih => exact ih (mem_rows_step o hr)

/-- A request hands the record back and stores nothing. -/
def Replays (call : AttestCall) (t : Instance) (q : AttestRequest) (r : AttestationRecord) : Prop :=
  ∃ result, serviceAttest call t q = .ok (t, result) ∧ result.attestation = r ∧
    result.idempotentReplay = true

/-- When the state of the day lets a request through to its record. -/
structure Repeatable (t : Instance) (now : Timestamp) (q : AttestRequest) (r : AttestationRecord) :
    Prop where
  observed : q.observedAt ≤ now
  dereferenceable : ∀ artifactId ∈ q.evidenceRefs.filterMap citedArtifact,
    artifactId ∉ t.oversized
  evidence : Value.pyEqItems r.evidenceRefs q.evidenceRefs = true
  names : StillNames t.graph q.target r.claimId

/-- Another request under the same observation key. -/
structure SharesKey (q q' : AttestRequest) : Prop where
  key : q'.idempotencyKey = q.idempotencyKey
  claim : q'.target.identityTuple = q.target.identityTuple
  observer : q'.actorContext.map (fun a => (a.orgId, a.actorId)) =
    q.actorContext.map fun a => (a.orgId, a.actorId)

/-- A request that is another observation than the recorded one. -/
def Differs (t : Instance) (q : AttestRequest) (r : AttestationRecord) : Prop :=
  q.stance ≠ r.stance ∨ Value.pyEqItems r.evidenceRefs q.evidenceRefs = false ∨
    q.observedAt ≠ r.observedAt ∨ q.note ≠ r.note ∨
    ∃ x c d, resolveClaimTarget t.graph q.target = .ok (some x) ∧ r.claimId = some c ∧
      x.claimId = some d ∧ c ≠ d

section Replay
variable {call : AttestCall} {t : Instance} {q q' : AttestRequest} {actor : GovernedActorContext}
  {r : AttestationRecord}

theorem SharesKey.observationKey (h : SharesKey q q') (hactor : q.actorContext = some actor) :
    ∃ actor', q'.actorContext = some actor' ∧
      q'.observationKey actor' = q.observationKey actor := by
  have hobserver := h.observer
  rw [hactor, Option.map_some] at hobserver
  have ⟨actor', hactor', hids⟩ := Option.map_eq_some_iff.mp hobserver
  rw [Prod.mk.injEq] at hids
  refine ⟨actor', hactor', ?_⟩
  unfold AttestRequest.observationKey
  rw [h.key, h.claim, hids.1, hids.2]

variable {key : ObservationKey}

theorem replays_iff (ha : Answered t q actor r) (hactor : q.actorContext = some actor)
    (hkey : q.observationKey actor = some key)
    (hevidenced : ¬(q.stance ≠ .unsure ∧ q.evidenceRefs = []))
    (hnamed : namedClaim q.target = none ∨ namedClaim q.target = r.claimId) :
    Replays call t q r ↔ Repeatable t call.now q r := by
  unfold Replays
  simp only [serviceAttest_stored ha.stored (ha.observationKey.trans hkey) hactor hkey]
  constructor
  · rintro ⟨result, ⟨-, hadmissible, resolved, hresolved, hagrees⟩, -⟩
    constructor
    case observed => exact hadmissible.observed
    case dereferenceable => exact hadmissible.dereferenceable
    case evidence => exact hagrees.evidence
    case names => exact (stillNames_iff hnamed).mp ⟨resolved, hresolved, hagrees.claim⟩
  · intro h
    have ⟨resolved, hresolved, hsame⟩ := (stillNames_iff hnamed).mpr h.names
    exact ⟨replayOf r, ⟨rfl, ⟨hevidenced, h.observed, h.dereferenceable⟩, resolved, hresolved,
      ha.stance, h.evidence, ha.observedAt, ha.note, hsame, ha.edgeKey⟩, rfl, rfl⟩

theorem differs_refused (hr : r ∈ t.attestations.rows) (hkey : r.observationKey = some key)
    (hactor : q.actorContext = some actor) (hq : q.observationKey actor = some key)
    (hdiffers : Differs t q r) : ∃ e, serviceAttest call t q = .error e := by
  cases hattest : serviceAttest call t q with
  | error e => exact ⟨e, rfl⟩
  | ok out =>
    have ⟨_, _, resolved, hresolved, hagrees⟩ :=
      (serviceAttest_stored hr hkey hactor hq).mp hattest
    rcases hdiffers with hstance | hevidence | hobserved | hnote | ⟨x, c, d, hx, hc, hd, hne⟩
    · exact absurd hagrees.stance.symm hstance
    · rw [hagrees.evidence] at hevidence
      cases hevidence
    · exact absurd hagrees.observedAt.symm hobserved
    · exact absurd hagrees.note.symm hnote
    · rw [hresolved] at hx
      have hx : resolved = some x := Except.ok.inj hx
      exact absurd (hagrees.claim c d hc (by rw [hx]; exact hd)) hne

end Replay

/-- One dependency of the services `a` and `b`, as a load may number it. -/
def dependencyGraph (key : Nat) : EntityGraph where
  nodes := Dict.ofList [FreeWrites.service "a" none, FreeWrites.service "b" none]
  edges := [{ fromNode := makeNodeId "Service" "a", toNode := makeNodeId "Service" "b", key := key,
              relationshipType := "depends_on", claimId := "CLM-1", properties := ∅,
              metadata := {} }]
  edgeCounter := key + 1
  claimIds := ["CLM-1"]

/-- A support of that dependency, named by its claim id. -/
def supportDependency (edgeKey : Option Nat) : AttestRequest where
  target := { relationshipType := "depends_on", fromType := "Service", fromId := "a",
              toType := "Service", toId := "b", claimId := some "CLM-1", edgeKey := edgeKey }
  stance := .support
  evidenceRefs := [.object [("source", .str "ticket"), ("source_record_id", .str "T-1")]]
  observedAt := 3
  actorContext := some { actorType := .humanUser, actorId := "ann", orgId := "org",
                         operationId := "op", timestamp := 3 }
  idempotencyKey := some "retry-1"

def attestAt (now : Timestamp) : AttestCall where
  w := { rt := FreeWrites.plainRuntime, config := {} }
  now := now
  receiptId := "RCP-1"
  attestationId := "ATT-1"
  mintedClaimId := "CLM-2"
  hash := fun _ => "0"

def dependencyInstance : Instance where
  graph := dependencyGraph 0
  attestations := .empty

/-- The record of an accepted keyed request stays in the table. The same request
replays it exactly when its target still names the claim and its evidence is still
acceptable and equal to itself; a different observation under the key is refused,
and no other record has the key. -/
theorem attestation_replays {call : AttestCall} {s s' : Instance} {q : AttestRequest}
    {result : AttestationRecordResult} (hkey : q.idempotencyKey ≠ none)
    (hok : serviceAttest call s q = .ok (s', result))
    (hnamed : namedClaim q.target = none ∨ namedClaim q.target = result.attestation.claimId)
    (later : List Operation) :
    (∀ call', Replays call' (run s' later) q result.attestation ↔
      Repeatable (run s' later) call'.now q result.attestation) ∧
    (∀ call' q', SharesKey q q' → Differs (run s' later) q' result.attestation →
      ∃ e, serviceAttest call' (run s' later) q' = .error e) ∧
    (result.attestation.stance = q.stance ∧ result.attestation.observedAt = q.observedAt ∧
      result.attestation.note = q.note ∧
      (result.attestation.evidenceRefs = q.evidenceRefs ∨
        Value.pyEqItems result.attestation.evidenceRefs q.evidenceRefs = true)) ∧
    result.attestation ∈ (run s' later).attestations.rows ∧
    ∀ p ∈ (run s' later).attestations.rows,
      p.observationKey = result.attestation.observationKey → p = result.attestation := by
  have ⟨_, hadmissible, actor, hactor, ha⟩ := serviceAttest_ok hok
  have hstored := mem_rows_run later ha.stored
  have hlater : Answered (run s' later) q actor result.attestation :=
    { ha with stored := hstored }
  have ⟨k, hk⟩ : ∃ k, q.observationKey actor = some k := by
    have ⟨text, htext⟩ := Option.ne_none_iff_exists'.mp hkey
    exact ⟨_, by unfold AttestRequest.observationKey; rw [htext]; rfl⟩
  have hrk : result.attestation.observationKey = some k := ha.observationKey.trans hk
  refine ⟨?_, ?_, ⟨ha.stance, ha.observedAt, ha.note, ha.evidence⟩, hstored, ?_⟩
  · intro call'
    exact replays_iff hlater hactor hk hadmissible.evidenced hnamed
  · intro call' q' hshares hdiffers
    have ⟨actor', hactor', hq'⟩ := hshares.observationKey hactor
    exact differs_refused hstored hrk hactor' (hq'.trans hk) hdiffers
  · intro p hp hpk
    have hsome : p.observationKey ≠ none := by simp [hpk, hrk]
    exact (run s' later).attestations.indexed p hp _ hstored hpk hsome

theorem repeated_support_replays : ∃ s' result,
    serviceAttest (attestAt 4) dependencyInstance (supportDependency none) = .ok (s', result) ∧
      Replays (attestAt 5) (run s' [.elsewhere (dependencyGraph 7) []]) (supportDependency none)
        result.attestation := by
  have haccepted : (serviceAttest (attestAt 4) dependencyInstance
      (supportDependency none)).toOption.map (fun p => (p.2.attestation.claimId,
        p.2.attestation.evidenceRefs)) =
      some (some "CLM-1", (supportDependency none).evidenceRefs) := by decide +kernel
  cases hok : serviceAttest (attestAt 4) dependencyInstance (supportDependency none) with
  | error e =>
      rw [hok] at haccepted
      cases haccepted
  | ok out =>
      rw [hok] at haccepted
      have ⟨hclaim, hevidence⟩ := Prod.mk.inj (Option.some.inj haccepted)
      refine ⟨out.1, out.2, rfl, ?_⟩
      have hnamed : namedClaim (supportDependency none).target = out.2.attestation.claimId := by
        rw [hclaim]
        decide +kernel
      apply ((attestation_replays (by decide) hok (.inr hnamed)
        [.elsewhere (dependencyGraph 7) []]).1 (attestAt 5)).mpr
      constructor
      case observed => decide
      case dereferenceable =>
        intro artifactId _ hover
        cases hover
      case evidence =>
        rw [hevidence]
        decide +kernel
      case names =>
        have hbyId : ((dependencyGraph 7).findRelationshipByClaimId "CLM-1").map
            (fun x => x.identityTuple) = some (supportDependency none).target.identityTuple := by
          decide +kernel
        have ⟨byId, hfound, hname⟩ := Option.map_eq_some_iff.mp hbyId
        have hnames : namedClaim (supportDependency none).target = some "CLM-1" := by
          decide +kernel
        change StillNames (dependencyGraph 7) _ _
        unfold StillNames
        rw [hnames]
        dsimp only
        rw [hfound]
        exact ⟨hname, .inl rfl⟩

/-- A request that gives the key of its edge beside the claim id is refused once a
load has numbered the edge anew, though the claim is still there. -/
theorem rekeyed_support_is_refused : ∃ s' result e,
    serviceAttest (attestAt 4) dependencyInstance (supportDependency (some 0)) = .ok (s', result) ∧
      (∃ c ∈ (dependencyGraph 7).edges, some c.claimId = result.attestation.claimId) ∧
      serviceAttest (attestAt 5) (run s' [.elsewhere (dependencyGraph 7) []])
        (supportDependency (some 0)) = .error e := by
  have haccepted : (serviceAttest (attestAt 4) dependencyInstance
      (supportDependency (some 0))).toOption.map (fun p => (p.2.attestation.claimId,
        (serviceAttest (attestAt 5) (run p.1 [.elsewhere (dependencyGraph 7) []])
          (supportDependency (some 0))).toOption.isNone)) = some (some "CLM-1", true) := by
    decide +kernel
  cases hok : serviceAttest (attestAt 4) dependencyInstance (supportDependency (some 0)) with
  | error e =>
      rw [hok] at haccepted
      cases haccepted
  | ok out =>
      rw [hok] at haccepted
      have ⟨hclaim, hrefused⟩ := Prod.mk.inj (Option.some.inj haccepted)
      cases hagain : serviceAttest (attestAt 5) (run out.1 [.elsewhere (dependencyGraph 7) []])
          (supportDependency (some 0)) with
      | ok again =>
          rw [hagain] at hrefused
          cases hrefused
      | error e =>
          refine ⟨out.1, out.2, e, rfl, ?_, hagain⟩
          rw [hclaim]
          decide +kernel

end Cruxible.AttestationReplays
