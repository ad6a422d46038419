import Cruxible.AssertionState
import Cruxible.Fallible
import Cruxible.KeyedTable
import Cruxible.NumberedLogs
import Cruxible.Runs

/-!
# Decision records

`DecisionStore` of `decision/store.py`. The service makes each call in a write
transaction of its own, so that a refused call leaves the store as it was.
-/
namespace Cruxible.DecisionRecords
open AssertionState Fallible KeyedTable NumberedLogs Runs

inductive DecisionStatus where
  | opened
  | finalized
  | abandoned
  deriving DecidableEq

def DecisionStatus.text : DecisionStatus → String
  | .opened => "open"
  | .finalized => "finalized"
  | .abandoned => "abandoned"

inductive DecisionClass where
  | recommended
  | rejected
  | deferred
  | escalated

def DecisionClass.text : DecisionClass → String
  | .recommended => "recommended"
  | .rejected => "rejected"
  | .deferred => "deferred"
  | .escalated => "escalated"

inductive DecisionEventStatus where
  | success
  | error

structure DecisionRecord where
  decisionRecordId : String
  question : String
  subjectType : Option String := none
  subjectId : Option String := none
  status : DecisionStatus := .opened
  openedActorContext : Option GovernedActorContext := none
  openedAt : Timestamp
  finalizedAt : Option Timestamp := none
  finalizedActorContext : Option GovernedActorContext := none
  finalDecision : Option String := none
  decisionClass : Option DecisionClass := none
  rationale : String := ""
  abandonedReason : String := ""

structure DecisionEvent where
  decisionEventId : String
  decisionRecordId : String
  sequence : Nat := 0
  command : String
  status : DecisionEventStatus
  inputDigest : String
  inputSummary : String
  actorContext : Option GovernedActorContext := none
  startedAt : Timestamp
  finishedAt : Timestamp

structure DecisionStore where
  records : Table DecisionRecord.decisionRecordId := ∅
  events : List DecisionEvent := []

inductive DecisionError where
  | config (message : String)
  | integrity

abbrev Outcome (α : Type) := Except DecisionError α

abbrev eventsOf (s : DecisionStore) (decisionRecordId : String) : List DecisionEvent :=
  entriesOf DecisionEvent.decisionRecordId s.events decisionRecordId

def saveRecord (s : DecisionStore) (record : DecisionRecord) : Outcome DecisionStore := do
  refuseIf (s.records.get? record.decisionRecordId).isSome
    (.config s!"Decision record '{record.decisionRecordId}' already exists")
  pure { s with records := s.records.put record }

/-- `_require_open`. -/
def requireOpen (s : DecisionStore) (decisionRecordId : String) : Outcome DecisionRecord :=
  match s.records.get? decisionRecordId with
  | none => .error (.config s!"Decision record '{decisionRecordId}' not found")
  | some record =>
    if record.status = .opened then .ok record
    else .error (.config s!"Decision record '{decisionRecordId}' is not open")

/-- `_next_sequence`. -/
def nextSequence (s : DecisionStore) (decisionRecordId : String) : Nat :=
  ((eventsOf s decisionRecordId).map DecisionEvent.sequence).foldl max 0 + 1

def appendEvent (s : DecisionStore) (event : DecisionEvent) : Outcome DecisionStore := do
  let _ ← requireOpen s event.decisionRecordId
  let sequence := nextSequence s event.decisionRecordId
  refuseIf (∃ e ∈ s.events, e.decisionEventId = event.decisionEventId ∨
    e.decisionRecordId = event.decisionRecordId ∧ e.sequence = sequence) .integrity
  pure { s with events := s.events ++ [{ event with sequence := sequence }] }

/-- `LIMIT` and `OFFSET`: a negative limit is none, a negative offset is zero. -/
def page {α : Type} (limit offset : Int) (rows : List α) : List α :=
  let rest := rows.drop offset.toNat
  if limit < 0 then rest else rest.take limit.toNat

def listEvents (s : DecisionStore) (decisionRecordId : String) (limit offset : Int) :
    List DecisionEvent :=
  page limit offset ((eventsOf s decisionRecordId).insertionSort fun a b => a.sequence ≤ b.sequence)

/-- The fields of `_IMMUTABLE_RECORD_FIELDS` that differ. -/
def rewritten (existing record : DecisionRecord) : List String :=
  ([("question", decide (existing.question = record.question)),
    ("subject_type", decide (existing.subjectType = record.subjectType)),
    ("subject_id", decide (existing.subjectId = record.subjectId)),
    ("opened_at", decide (existing.openedAt = record.openedAt)),
    ("opened_actor_context", decide (existing.openedActorContext = record.openedActorContext))
    ].filter fun field => !field.2).map Prod.fst

/-- `_close_record`: after the checks, an `UPDATE` that changes an open row only. -/
def closeRecord (s : DecisionStore) (record : DecisionRecord) : Outcome DecisionStore :=
  match s.records.get? record.decisionRecordId with
  | none => .error (.config s!"Decision record '{record.decisionRecordId}' not found")
  | some existing => do
      refuseIf (existing.status ≠ .opened) (.config
        (s!"Decision record '{record.decisionRecordId}' is {existing.status.text} and " ++
          s!"cannot be changed to '{record.status.text}'; decision records are append-only"))
      refuseIf (rewritten existing record ≠ []) (.config
        (s!"Decision record '{record.decisionRecordId}' cannot rewrite " ++
          ", ".intercalate (rewritten existing record)))
      refuseIf ((s.records.get? record.decisionRecordId).all fun row => row.status ≠ .opened)
        (.config (s!"Decision record '{record.decisionRecordId}' was closed by another " ++
          "writer during this transition; decision records are append-only"))
      pure { s with records := s.records.put record }

inductive Closing where
  | finalize (finalDecision : String) (decisionClass : DecisionClass) (rationale : String)
  | abandon (reason : String)

def Closing.command : Closing → String
  | .finalize _ _ _ => "decision_record:finalize"
  | .abandon _ => "decision_record:abandon"

def Closing.payload : Closing → List (String × String)
  | .finalize finalDecision decisionClass rationale =>
    [("final_decision", finalDecision), ("decision_class", decisionClass.text),
      ("rationale", rationale)]
  | .abandon reason => [("reason", reason)]

/-- The copy of a record that a closing writes. -/
def Closing.updated (closing : Closing) (actorContext : Option GovernedActorContext)
    (now : Timestamp) (record : DecisionRecord) : DecisionRecord :=
  match closing with
  | .finalize finalDecision decisionClass rationale =>
    { record with
      status := .finalized, finalDecision := some finalDecision
      decisionClass := some decisionClass, rationale := rationale
      finalizedAt := some now, finalizedActorContext := actorContext }
  | .abandon reason =>
    { record with
      status := .abandoned, abandonedReason := reason
      finalizedAt := some now, finalizedActorContext := actorContext }

/-- The id of a new event, and the clock when it is logged and when its record is closed. -/
structure Minted where
  decisionEventId : String
  loggedAt : Timestamp
  closedAt : Timestamp

variable (digestPayload : List (String × String) → String × String)

def Closing.event (closing : Closing) (decisionRecordId : String)
    (actorContext : Option GovernedActorContext) (m : Minted) : DecisionEvent where
  decisionEventId := m.decisionEventId
  decisionRecordId := decisionRecordId
  command := closing.command
  status := .success
  inputDigest := (digestPayload closing.payload).1
  inputSummary := (digestPayload closing.payload).2
  actorContext := actorContext
  startedAt := m.loggedAt
  finishedAt := m.loggedAt

/-- `finalize_record` and `abandon_record`: the event is logged while the record is open. -/
def recordClosing (s : DecisionStore) (closing : Closing) (decisionRecordId : String)
    (actorContext : Option GovernedActorContext) (m : Minted) : Outcome DecisionStore := do
  let record ← requireOpen s decisionRecordId
  let logged ← appendEvent s (closing.event digestPayload decisionRecordId actorContext m)
  closeRecord logged (closing.updated actorContext m.closedAt record)

def finalizeRecord (s : DecisionStore) (decisionRecordId finalDecision : String)
    (decisionClass : DecisionClass) (rationale : String)
    (actorContext : Option GovernedActorContext) (m : Minted) : Outcome DecisionStore :=
  recordClosing digestPayload s (.finalize finalDecision decisionClass rationale) decisionRecordId
    actorContext m

def abandonRecord (s : DecisionStore) (decisionRecordId reason : String)
    (actorContext : Option GovernedActorContext) (m : Minted) : Outcome DecisionStore :=
  recordClosing digestPayload s (.abandon reason) decisionRecordId actorContext m

inductive Request where
  | create (decisionRecordId question : String) (subjectType subjectId : Option String)
      (actorContext : Option GovernedActorContext) (now : Timestamp)
  | append (event : DecisionEvent)
  | finalize (decisionRecordId finalDecision : String) (decisionClass : DecisionClass)
      (rationale : String) (actorContext : Option GovernedActorContext) (m : Minted)
  | abandon (decisionRecordId reason : String) (actorContext : Option GovernedActorContext)
      (m : Minted)

def call (s : DecisionStore) : Request → Outcome DecisionStore
  | .create decisionRecordId question subjectType subjectId actorContext now =>
    saveRecord s {
      decisionRecordId := decisionRecordId
      question := question
      subjectType := subjectType
      subjectId := subjectId
      openedActorContext := actorContext
      openedAt := now }
  | .append event => appendEvent s event
  | .finalize decisionRecordId finalDecision decisionClass rationale actorContext m =>
    finalizeRecord digestPayload s decisionRecordId finalDecision decisionClass rationale
      actorContext m
  | .abandon decisionRecordId reason actorContext m =>
    abandonRecord digestPayload s decisionRecordId reason actorContext m

def Request.closes (k : String) : Request → Bool
  | .finalize decisionRecordId _ _ _ _ _ | .abandon decisionRecordId _ _ _ => decisionRecordId = k
  | .create _ _ _ _ _ _ | .append _ => false

/-- The store after a run from an empty one. -/
abbrev reached (requests : List Request) : DecisionStore := after (call digestPayload) {} requests

variable {digestPayload}

/-- The row is a closed record and the event is the one that its closing logged. -/
def ClosedBy (digestPayload : List (String × String) → String × String)
    (row : DecisionRecord) (e : DecisionEvent) : Prop :=
  ∃ (closing : Closing) (actorContext : Option GovernedActorContext) (m : Minted)
    (record : DecisionRecord) (sequence : Nat), record.status = .opened ∧
    row = closing.updated actorContext m.closedAt record ∧
    e = { closing.event digestPayload row.decisionRecordId actorContext m with
      sequence := sequence }

structure Lawful (digestPayload : List (String × String) → String × String)
    (s : DecisionStore) : Prop where
  numbered : Numbered DecisionEvent.decisionRecordId DecisionEvent.sequence s.events
  distinct : (s.events.map DecisionEvent.decisionEventId).Nodup
  recorded : ∀ e ∈ s.events, (s.records.get? e.decisionRecordId).isSome
  closed : ∀ {k r}, s.records.get? k = some r → r.status ≠ .opened →
    ∃ e, (eventsOf s k).getLast? = some e ∧ ClosedBy digestPayload r e

/-- What `t` keeps of the earlier store `s`. -/
structure Keeps (s t : DecisionStore) : Prop where
  events : s.events <+: t.events
  records : ∀ {k r}, s.records.get? k = some r → ∃ q, t.records.get? k = some q ∧
    rewritten r q = [] ∧ (r.status ≠ .opened → q = r ∧ eventsOf t k = eventsOf s k)

variable {s t u : DecisionStore} {r q p row : DecisionRecord} {event : DecisionEvent} {k : String}

theorem rewritten_eq_nil : rewritten r q = [] ↔ r.question = q.question ∧
    r.subjectType = q.subjectType ∧ r.subjectId = q.subjectId ∧ r.openedAt = q.openedAt ∧
    r.openedActorContext = q.openedActorContext := by
  simp [rewritten, List.filter_eq_nil_iff]

theorem rewritten_self (r : DecisionRecord) : rewritten r r = [] := by
  simp [rewritten_eq_nil]

theorem rewritten_trans (hq : rewritten r q = []) (hp : rewritten q p = []) :
    rewritten r p = [] := by
  rw [rewritten_eq_nil] at hq hp ⊢
  simp [hq, hp]

namespace Keeps

theorem refl (s : DecisionStore) : Keeps s s where
  events := List.prefix_rfl
  records := fun {_ r} h => ⟨r, h, rewritten_self r, fun _ => ⟨rfl, rfl⟩⟩

theorem trans (hst : Keeps s t) (htu : Keeps t u) : Keeps s u where
  events := hst.events.trans htu.events
  records := by
    intro k r hr
    obtain ⟨q, hq, hrq, hsame⟩ := hst.records hr
    obtain ⟨p, hp, hqp, hsame'⟩ := htu.records hq
    refine ⟨p, hp, rewritten_trans hrq hqp, ?_⟩
    intro hclosed
    obtain ⟨rfl, hevents⟩ := hsame hclosed
    obtain ⟨rfl, hevents'⟩ := hsame' hclosed
    exact ⟨rfl, hevents'.trans hevents⟩

end Keeps

/-- The event is the next one of its record, which was open and now has the given row. -/
structure Logged (s t : DecisionStore) (row : DecisionRecord) (event : DecisionEvent) : Prop where
  before : ∃ record, s.records.get? event.decisionRecordId = some record ∧
    record.status = .opened ∧ rewritten record row = []
  fresh : ∀ e ∈ s.events, e.decisionEventId ≠ event.decisionEventId
  sequence : event.sequence = nextSequence s event.decisionRecordId
  events : t.events = s.events ++ [event]
  records : ∀ k, t.records.get? k =
    if event.decisionRecordId = k then some row else s.records.get? k

theorem foldl_max_range' (n : Nat) : (List.range' 1 n).foldl max 0 = n := by
  induction n with
  | zero => rfl
  | succ n ih =>
    rw [List.range'_concat, List.foldl_append, ih]
    simp only [List.foldl_cons, List.foldl_nil]
    omega

theorem nextSequence_eq
    (h : Numbered DecisionEvent.decisionRecordId DecisionEvent.sequence s.events) (k : String) :
    nextSequence s k = (eventsOf s k).length + 1 := by
  unfold nextSequence
  rw [h k, foldl_max_range']

namespace Logged

variable (h : Logged s t row event)
include h

theorem keeps : Keeps s t where
  events := by
    rw [h.events]
    exact List.prefix_append _ _
  records := by
    intro k r hr
    by_cases hk : event.decisionRecordId = k
    · obtain ⟨record, hrecord, hopen, hrow⟩ := h.before
      subst hk
      obtain rfl := Option.some.inj (hrecord.symm.trans hr)
      refine ⟨row, ?_, hrow, fun hclosed => absurd hopen hclosed⟩
      rw [h.records, if_pos rfl]
    · refine ⟨r, ?_, rewritten_self r, fun _ => ⟨rfl, ?_⟩⟩
      · rw [h.records, if_neg hk, hr]
      · rw [eventsOf, h.events, entriesOf_append_of_ne hk]

theorem lawful (hs : Lawful digestPayload s)
    (hrow : row.status ≠ .opened → ClosedBy digestPayload row event) : Lawful digestPayload t where
  numbered := by
    rw [h.events]
    exact hs.numbered.append (h.sequence.trans (nextSequence_eq hs.numbered _))
  distinct := by
    rw [h.events, List.map_append, List.nodup_append]
    refine ⟨hs.distinct, List.nodup_singleton _, ?_⟩
    intro id hid id' hid' heq
    obtain ⟨e, he, rfl⟩ := List.mem_map.mp hid
    exact h.fresh e he (heq.trans (List.mem_singleton.mp hid'))
  recorded := by
    intro e he
    rw [h.records]
    split_ifs with hk
    · rfl
    · rw [h.events, List.mem_append, List.mem_singleton] at he
      rcases he with he | he
      · exact hs.recorded e he
      · exact absurd (congrArg DecisionEvent.decisionRecordId he).symm hk
  closed := by
    intro k r hr hclosed
    rw [h.records] at hr
    rw [eventsOf, h.events]
    split_ifs at hr with hk
    · obtain rfl := Option.some.inj hr
      subst hk
      exact ⟨event, by rw [entriesOf_append_self, List.getLast?_concat], hrow hclosed⟩
    · rw [entriesOf_append_of_ne hk]
      exact hs.closed hr hclosed

end Logged

theorem requireOpen_eq_ok :
    requireOpen s k = .ok r ↔ s.records.get? k = some r ∧ r.status = .opened := by
  unfold requireOpen
  cases s.records.get? k with
  | none => simp
  | some record =>
    simp only [Option.some.injEq]
    split_ifs with hopen
    · simp only [Except.ok.injEq]
      exact ⟨fun heq => ⟨heq, heq ▸ hopen⟩, And.left⟩
    · simp only [false_iff, not_and]
      exact fun heq => heq ▸ hopen

theorem appendEvent_eq_ok (h : appendEvent s event = .ok t) :
    (∃ record, s.records.get? event.decisionRecordId = some record ∧ record.status = .opened) ∧
      (∀ e ∈ s.events, e.decisionEventId ≠ event.decisionEventId) ∧
      t = { s with events := s.events ++
        [{ event with sequence := nextSequence s event.decisionRecordId }] } := by
  unfold appendEvent at h
  obtain ⟨record, hrecord, h⟩ := bind_eq_ok.mp h
  obtain ⟨hfresh, h⟩ := refuseIf_bind_eq_ok.mp h
  exact ⟨⟨record, requireOpen_eq_ok.mp hrecord⟩, fun e he heq => hfresh ⟨e, he, .inl heq⟩,
    (pure_eq_ok.mp h).symm⟩

theorem closeRecord_eq_ok (h : closeRecord s row = .ok t) :
    (∃ record, s.records.get? row.decisionRecordId = some record ∧
      rewritten record row = []) ∧ t = { s with records := s.records.put row } := by
  unfold closeRecord at h
  cases hrecord : s.records.get? row.decisionRecordId with
  | none =>
    rw [hrecord] at h
    cases h
  | some record =>
    rw [hrecord] at h
    obtain ⟨_, h⟩ := refuseIf_bind_eq_ok.mp h
    obtain ⟨hsame, h⟩ := refuseIf_bind_eq_ok.mp h
    obtain ⟨_, h⟩ := refuseIf_bind_eq_ok.mp h
    exact ⟨⟨record, rfl, not_not.mp hsame⟩, (pure_eq_ok.mp h).symm⟩

theorem appendEvent_logged (h : appendEvent s event = .ok t) :
    ∃ row event', row.status = .opened ∧ Logged s t row event' := by
  obtain ⟨⟨record, hrecord, hopen⟩, hfresh, rfl⟩ := appendEvent_eq_ok h
  refine ⟨record, { event with sequence := nextSequence s event.decisionRecordId }, hopen,
    ⟨record, hrecord, hopen, rewritten_self record⟩, hfresh, rfl, rfl, ?_⟩
  intro k
  split_ifs with hk
  · exact hk ▸ hrecord
  · rfl

@[simp] theorem updated_decisionRecordId (closing : Closing)
    (actorContext : Option GovernedActorContext) (now : Timestamp) (record : DecisionRecord) :
    (closing.updated actorContext now record).decisionRecordId = record.decisionRecordId := by
  cases closing <;> rfl

theorem updated_status (closing : Closing) (actorContext : Option GovernedActorContext)
    (now : Timestamp) (record : DecisionRecord) :
    (closing.updated actorContext now record).status ≠ .opened := by
  cases closing <;> simp [Closing.updated]

theorem recordClosing_logged {closing : Closing} {actorContext : Option GovernedActorContext}
    {m : Minted} (h : recordClosing digestPayload s closing k actorContext m = .ok t) :
    ∃ row event', row.status ≠ .opened ∧ event'.decisionRecordId = k ∧
      ClosedBy digestPayload row event' ∧ Logged s t row event' := by
  unfold recordClosing at h
  obtain ⟨record, hrecord, h⟩ := bind_eq_ok.mp h
  obtain ⟨logged, hlogged, h⟩ := bind_eq_ok.mp h
  obtain ⟨hrecord, hopen⟩ := requireOpen_eq_ok.mp hrecord
  obtain ⟨_, hfresh, rfl⟩ := appendEvent_eq_ok hlogged
  obtain ⟨⟨existing, hexisting, hsame⟩, rfl⟩ := closeRecord_eq_ok h
  obtain rfl := Table.key_of_get? hrecord
  rw [updated_decisionRecordId] at hexisting
  obtain rfl := Option.some.inj (hrecord.symm.trans hexisting)
  set event := closing.event digestPayload record.decisionRecordId actorContext m
  refine ⟨_, { event with sequence := nextSequence s record.decisionRecordId },
    updated_status closing actorContext m.closedAt record, rfl,
    ⟨closing, actorContext, m, record, nextSequence s record.decisionRecordId, hopen, rfl, ?_⟩,
    ⟨record, hrecord, hopen, hsame⟩, hfresh, rfl, rfl, ?_⟩
  · rw [updated_decisionRecordId]
  · intro k
    rw [Table.get?_put, updated_decisionRecordId]
    rfl

theorem saveRecord_spec (h : saveRecord s row = .ok t) (hopen : row.status = .opened)
    (hs : Lawful digestPayload s) : Lawful digestPayload t ∧ Keeps s t := by
  unfold saveRecord at h
  obtain ⟨habsent, h⟩ := refuseIf_bind_eq_ok.mp h
  obtain rfl := pure_eq_ok.mp h
  refine ⟨⟨hs.numbered, hs.distinct, ?_, ?_⟩, ⟨List.prefix_rfl, ?_⟩⟩
  · intro e he
    rw [Table.get?_put]
    split_ifs
    · rfl
    · exact hs.recorded e he
  · intro k r hr hclosed
    rw [Table.get?_put] at hr
    split_ifs at hr
    · exact absurd (Option.some.inj hr ▸ hopen) hclosed
    · exact hs.closed hr hclosed
  · intro k r hr
    refine ⟨r, ?_, rewritten_self r, fun _ => ⟨rfl, rfl⟩⟩
    rw [Table.get?_put, if_neg, hr]
    rintro rfl
    rw [hr] at habsent
    exact habsent rfl

theorem call_cases {request : Request} (h : call digestPayload s request = .ok t) :
    (∃ row, saveRecord s row = .ok t ∧ row.status = .opened ∧ ∀ k, request.closes k = false) ∨
      ∃ row event, Logged s t row event ∧
        (row.status ≠ .opened → ClosedBy digestPayload row event) ∧ ∀ k, request.closes k =
          (decide (event.decisionRecordId = k) && decide (row.status ≠ .opened)) := by
  cases request with
  | create => exact .inl ⟨_, h, rfl, fun _ => rfl⟩
  | append event =>
    obtain ⟨row, event', hopen, hlogged⟩ := appendEvent_logged h
    exact .inr ⟨row, event', hlogged, fun hclosed => absurd hopen hclosed,
      by simp [Request.closes, hopen]⟩
  | finalize | abandon =>
    obtain ⟨row, event', hclosed, rfl, hby, hlogged⟩ := recordClosing_logged h
    exact .inr ⟨row, event', hlogged, fun _ => hby, by simp [Request.closes, hclosed]⟩

theorem call_spec (hs : Lawful digestPayload s) {request : Request}
    (h : call digestPayload s request = .ok t) : Lawful digestPayload t ∧ Keeps s t := by
  rcases call_cases h with ⟨row, hsave, hopen, _⟩ | ⟨row, event, hlogged, hclosed, _⟩
  · exact saveRecord_spec hsave hopen hs
  · exact ⟨hlogged.lawful hs hclosed, hlogged.keeps⟩

theorem after_spec (hs : Lawful digestPayload s) (requests : List Request) :
    Lawful digestPayload (after (call digestPayload) s requests) ∧
      Keeps s (after (call digestPayload) s requests) := by
  refine after_related (R := fun s t => Lawful digestPayload s → Lawful digestPayload t ∧ Keeps s t)
    (fun s hs => ⟨hs, Keeps.refl s⟩) ?_ (fun _ h hs => call_spec hs h) throughout_true hs
  intro s t u hst htu hs
  obtain ⟨ht, hkeeps⟩ := hst hs
  obtain ⟨hu, hkeeps'⟩ := htu ht
  exact ⟨hu, hkeeps.trans hkeeps'⟩

theorem empty_lawful : Lawful digestPayload {} where
  numbered := Numbered.nil _ _
  distinct := List.nodup_nil
  recorded := by simp
  closed := by
    intro k r hr
    cases hr

/-- Decision records are append-only. In every state that a run reaches, the events of a record
are numbered in the order in which they were appended and the last event of a closed record is
its own closing; and whatever follows, the log only grows, no record loses what it asserted when
it was opened, and neither a closed record nor its events ever change. -/
theorem decision_records_append_only (digestPayload : List (String × String) → String × String)
    (earlier later : List Request) :
    Lawful digestPayload (reached digestPayload earlier) ∧
      Keeps (reached digestPayload earlier)
        (after (call digestPayload) (reached digestPayload earlier) later) := by
  have hlawful : Lawful digestPayload (reached digestPayload earlier) :=
    (after_spec empty_lawful earlier).1
  exact ⟨hlawful, (after_spec hlawful later).2⟩

def isClosed (s : DecisionStore) (k : String) : Bool :=
  (s.records.get? k).any fun r => r.status ≠ .opened

/-- How many closings of a record a run accepts. -/
def acceptedClosings (digestPayload : List (String × String) → String × String) (k : String) :
    DecisionStore → List Request → Nat
  | _, [] => 0
  | s, request :: requests =>
    (request.closes k && (call digestPayload s request).isOk).toNat +
      acceptedClosings digestPayload k (advance (call digestPayload) s request) requests

theorem Logged.isClosed_eq (h : Logged s t row event) (k : String) :
    (isClosed t k).toNat = (isClosed s k).toNat +
      (decide (event.decisionRecordId = k) && decide (row.status ≠ .opened)).toNat := by
  unfold isClosed
  rw [h.records]
  obtain ⟨record, hrecord, hopen, _⟩ := h.before
  by_cases hk : event.decisionRecordId = k
  · subst hk
    simp [hrecord, hopen]
  · simp [hk]

theorem isClosed_advance (s : DecisionStore) (request : Request) (k : String) :
    (isClosed (advance (call digestPayload) s request) k).toNat = (isClosed s k).toNat +
      (request.closes k && (call digestPayload s request).isOk).toNat := by
  unfold advance
  cases hcall : call digestPayload s request with
  | error e => simp [Except.isOk, Except.toBool]
  | ok t =>
    simp only [Except.isOk, Except.toBool, Bool.and_true]
    rcases call_cases hcall with ⟨row, hsave, hopen, hopens⟩ | ⟨row, event, hlogged, _, hcloses⟩
    · obtain ⟨habsent, h⟩ := refuseIf_bind_eq_ok.mp hsave
      obtain rfl := pure_eq_ok.mp h
      rw [Option.not_isSome_iff_eq_none] at habsent
      unfold isClosed
      rw [hopens, Table.get?_put]
      split_ifs with hk
      · simp [← hk, habsent, hopen]
      · rfl
    · rw [hlogged.isClosed_eq, hcloses]

theorem acceptedClosings_add (s : DecisionStore) (k : String) (requests : List Request) :
    (isClosed s k).toNat + acceptedClosings digestPayload k s requests =
      (isClosed (after (call digestPayload) s requests) k).toNat := by
  induction requests generalizing s with
  | nil => rfl
  | cons request requests ih =>
    have hrest := ih (advance (call digestPayload) s request)
    rw [isClosed_advance] at hrest
    rw [acceptedClosings, ← Nat.add_assoc, hrest]
    rfl

/-- However the requests of any number of writers are ordered, a record is closed by exactly one
of them, or by none. -/
theorem one_closing_accepted (digestPayload : List (String × String) → String × String)
    (requests : List Request) (k : String) :
    acceptedClosings digestPayload k {} requests =
      (isClosed (reached digestPayload requests) k).toNat := by
  rw [← acceptedClosings_add {} k requests]
  simp [isClosed]

theorem page_prefix {α : Type} {xs ys : List α} (limit offset : Int) (h : xs <+: ys) :
    page limit offset xs <+: page limit offset ys := by
  obtain ⟨rest, rfl⟩ := h
  unfold page
  simp only [List.drop_append, List.take_append]
  split_ifs
  · exact List.prefix_append _ _
  · exact List.prefix_append _ _

theorem length_page_le {α : Type} {limit : Int} (h : 0 ≤ limit) (offset : Int) (xs : List α) :
    (page limit offset xs).length ≤ limit := by
  rw [page, if_neg (by omega), List.length_take]
  omega

theorem listEvents_eq (h : Lawful digestPayload s) (k : String) (limit offset : Int) :
    listEvents s k limit offset = page limit offset (eventsOf s k) := by
  rw [listEvents, h.numbered.sort_eq]

/-- A page of a record's events stands: whatever follows, it begins with the same events, and
it is the same page if it was full or the record was closed. -/
theorem event_pages_stand (digestPayload : List (String × String) → String × String)
    (earlier later : List Request) (k : String) (limit offset : Int) :
    let s := reached digestPayload earlier
    let t := after (call digestPayload) s later
    listEvents s k limit offset <+: listEvents t k limit offset ∧
      ((listEvents s k limit offset).length = limit ∨ isClosed s k = true →
        listEvents t k limit offset = listEvents s k limit offset) := by
  intro s t
  have hs : Lawful digestPayload s := (after_spec empty_lawful earlier).1
  obtain ⟨ht, hkeeps⟩ := after_spec hs later
  rw [listEvents_eq hs, listEvents_eq ht]
  have hpages : page limit offset (eventsOf s k) <+: page limit offset (eventsOf t k) :=
    page_prefix limit offset (hkeeps.events.filter _)
  refine ⟨hpages, ?_⟩
  rintro (hfull | hclosed)
  · have hle : ((page limit offset (eventsOf t k)).length : Int) ≤ limit :=
      length_page_le (by omega) offset _
    exact (hpages.eq_of_length_le (by omega)).symm
  · rw [isClosed, Option.any_eq_true] at hclosed
    obtain ⟨r, hr, hstatus⟩ := hclosed
    obtain ⟨q, _, _, hsame⟩ := hkeeps.records hr
    rw [(hsame (by simpa using hstatus)).2]

end Cruxible.DecisionRecords
