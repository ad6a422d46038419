import Cruxible.PythonDict
import Mathlib.Algebra.BigOperators.Group.List.Basic
import Mathlib.Algebra.GroupWithZero.Nat

/-!
# Telemetry buffers

Observations are merged in memory and written in batches. A flush swaps the pending batch out
under the lock, writes it without the lock, and folds it back under the lock if the store did
not take it, so that several batches may be on their way while the buffer fills again. What
does not fit under the cap is counted.
-/
namespace Cruxible.TelemetryBuffers
open PythonDict

/-- `MAX_BUFFERED_SURFACES`. -/
def maxBufferedSurfaces : Nat := 512

/-- The observations of one surface between two flushes. -/
structure BoundaryAggregate (δ : Type) where
  firstRecordedAt : String
  callCount : Nat := 0
  errorCount : Nat := 0
  totalResponseBytes : Nat := 0
  totalDurationMs : δ
  maxDurationMs : δ

structure Observation (δ : Type) where
  surfaceName : String
  responseBytes : Int
  durationMs : δ
  error : Bool
  recordedAt : String

/-- What a flush takes out of a buffer. -/
structure Batch (δ : Type) where
  pending : Dict String (BoundaryAggregate δ) := ∅
  droppedObservations : Nat := 0
  droppedEvents : Nat := 0

/-- `BoundaryTelemetryBuffer`: a batch that still grows. -/
abbrev Buffer := Batch

variable {δ : Type}

section Operations

variable [Zero δ] [Add δ] [Max δ]

namespace BoundaryAggregate

def start (recordedAt : String) : BoundaryAggregate δ where
  firstRecordedAt := recordedAt
  totalDurationMs := 0
  maxDurationMs := 0

def observe (a : BoundaryAggregate δ) (o : Observation δ) : BoundaryAggregate δ :=
  { a with
    callCount := a.callCount + 1
    errorCount := a.errorCount + if o.error then 1 else 0
    totalResponseBytes := a.totalResponseBytes + o.responseBytes.toNat
    totalDurationMs := a.totalDurationMs + max 0 o.durationMs
    maxDurationMs := max a.maxDurationMs (max 0 o.durationMs) }

def absorb (a b : BoundaryAggregate δ) : BoundaryAggregate δ where
  firstRecordedAt := if b.firstRecordedAt < a.firstRecordedAt then b.firstRecordedAt
    else a.firstRecordedAt
  callCount := a.callCount + b.callCount
  errorCount := a.errorCount + b.errorCount
  totalResponseBytes := a.totalResponseBytes + b.totalResponseBytes
  totalDurationMs := a.totalDurationMs + b.totalDurationMs
  maxDurationMs := max a.maxDurationMs b.maxDurationMs

end BoundaryAggregate

namespace Batch

def isFull (b : Buffer δ) : Prop := maxBufferedSurfaces ≤ b.pending.entries.length

instance (b : Buffer δ) : Decidable b.isFull := inferInstanceAs (Decidable (_ ≤ _))

def put (b : Buffer δ) (surface : String) (a : BoundaryAggregate δ) : Buffer δ :=
  { b with pending := b.pending.set surface a }

def add (b : Buffer δ) (o : Observation δ) : Buffer δ :=
  match b.pending.get? o.surfaceName with
  | some a => b.put o.surfaceName (a.observe o)
  | none =>
      if b.isFull then { b with droppedObservations := b.droppedObservations + 1 }
      else b.put o.surfaceName ((BoundaryAggregate.start o.recordedAt).observe o)

def addDroppedEvents (b : Buffer δ) (count : Int) : Buffer δ :=
  if count ≤ 0 then b else { b with droppedEvents := b.droppedEvents + count.toNat }

/-- A flush of such a buffer returns at once. -/
def nothing (b : Buffer δ) : Prop :=
  b.pending.entries = [] ∧ b.droppedObservations = 0 ∧ b.droppedEvents = 0

instance (b : Buffer δ) : Decidable b.nothing :=
  decidable_of_iff (b.pending.entries.isEmpty = true ∧ b.droppedObservations = 0 ∧
    b.droppedEvents = 0) (by rw [List.isEmpty_iff]; rfl)

/-- One surface of a batch on its way back. -/
def restoreSurface (b : Buffer δ) (e : String × BoundaryAggregate δ) : Buffer δ :=
  match b.pending.get? e.1 with
  | some current => b.put e.1 (current.absorb e.2)
  | none =>
      if b.isFull then { b with droppedObservations := b.droppedObservations + e.2.callCount }
      else b.put e.1 e.2

/-- `_restore`. -/
def restore (b : Buffer δ) (batch : Batch δ) : Buffer δ :=
  batch.pending.entries.foldl restoreSurface
    { b with droppedObservations := b.droppedObservations + batch.droppedObservations
             droppedEvents := b.droppedEvents + batch.droppedEvents }

end Batch

/-- How the store answers the write of a batch. -/
inductive Outcome where
  | delivered
  | refused
  | raised

/-- A flush after its swap. -/
inductive Flight (δ : Type) where
  | writing (batch : Batch δ)
  | undelivered (batch : Batch δ)

def Flight.batch : Flight δ → Batch δ
  | .writing b | .undelivered b => b

/-- A buffer, the flushes in flight, and the batches that the store took. -/
structure World (δ : Type) where
  buffer : Buffer δ := {}
  inFlight : List (Flight δ) := []
  delivered : List (Batch δ) := []

inductive Step (δ : Type) where
  | add (o : Observation δ)
  | addDroppedEvents (count : Int)
  | swap
  | write (i : Nat) (outcome : Outcome)
  | restore (i : Nat)

namespace World

/-- A step of a flush that is not at this point does nothing. -/
def step (w : World δ) : Step δ → World δ
  | .add o => { w with buffer := w.buffer.add o }
  | .addDroppedEvents count => { w with buffer := w.buffer.addDroppedEvents count }
  | .swap =>
      if w.buffer.nothing then w
      else { w with buffer := {}, inFlight := w.inFlight ++ [.writing w.buffer] }
  | .write i outcome =>
      match w.inFlight[i]?, outcome with
      | some (.writing b), .delivered =>
          { w with inFlight := w.inFlight.eraseIdx i, delivered := w.delivered ++ [b] }
      | some (.writing b), _ => { w with inFlight := w.inFlight.set i (.undelivered b) }
      | _, _ => w
  | .restore i =>
      match w.inFlight[i]? with
      | some (.undelivered b) =>
          { w with buffer := w.buffer.restore b, inFlight := w.inFlight.eraseIdx i }
      | _ => w

def run (steps : List (Step δ)) : World δ := steps.foldl step {}

end World

end Operations

/-- The calls that a table of aggregates stands for. -/
def callCounts (p : Dict String (BoundaryAggregate δ)) : Nat :=
  (p.entries.map fun e => e.2.callCount).sum

/-- The sum of a count over batches. -/
def total (count : Batch δ → Nat) (batches : List (Batch δ)) : Nat := (batches.map count).sum

def calls (b : Batch δ) : Nat := callCounts b.pending

def Step.observations : Step δ → Nat
  | .add _ => 1
  | _ => 0

def Step.events : Step δ → Nat
  | .addDroppedEvents count => count.toNat
  | _ => 0

theorem sum_set {κ α : Type} [DecidableEq κ] (f : α → Nat) (d : Bindings κ α) (q : κ) (v : α) :
    ((Bindings.set d q v).map fun e => f e.2).sum + ((Bindings.get? d q).map f).getD 0 =
      (d.map fun e => f e.2).sum + f v := by
  induction d with
  | nil => simp [Bindings.set, Bindings.get?]
  | cons e d ih =>
    obtain ⟨k, x⟩ := e
    by_cases hk : k = q
    · simp [Bindings.set, Bindings.get?, hk]
      omega
    · simp [Bindings.set, Bindings.get?, hk]
      omega

theorem length_set {κ α : Type} [DecidableEq κ] (d : Bindings κ α) (q : κ) (v : α) :
    (Bindings.set d q v).length = d.length + if (Bindings.get? d q).isSome then 0 else 1 := by
  induction d with
  | nil => rfl
  | cons e d ih =>
    obtain ⟨k, x⟩ := e
    by_cases hk : k = q
    · simp [Bindings.set, Bindings.get?, hk]
    · simp [Bindings.set, Bindings.get?, hk, ih]
      omega

section Counts

variable {b b' : Buffer δ} {surface : String} {a : BoundaryAggregate δ} {n : Nat}

/-- What a buffer does with a number of calls: they are kept or counted, under the cap. -/
structure Grows (n : Nat) (b b' : Buffer δ) : Prop where
  calls : calls b' + b'.droppedObservations = calls b + b.droppedObservations + n
  events : b'.droppedEvents = b.droppedEvents
  capped : b.pending.entries.length ≤ maxBufferedSurfaces →
    b'.pending.entries.length ≤ maxBufferedSurfaces

/-- A surface that is there keeps its place, and a new one needs room. -/
theorem Grows.put (hroom : (b.pending.get? surface).isSome = true ∨ ¬b.isFull)
    (ha : a.callCount =
      ((b.pending.get? surface).map BoundaryAggregate.callCount).getD 0 + n) :
    Grows n b (b.put surface a) := by
  have hsum := sum_set BoundaryAggregate.callCount b.pending.entries surface a
  have hlength : (b.put surface a).pending.entries.length = _ :=
    length_set b.pending.entries surface a
  constructor
  case calls =>
    have hcalls : TelemetryBuffers.calls (b.put surface a) = _ := rfl
    simp only [Dict.get?] at ha
    simp only [TelemetryBuffers.calls, callCounts, Batch.put, Dict.set]
    omega
  case events => rfl
  case capped =>
    intro hb
    rw [hlength]
    rcases hroom with hsome | hfree
    · rw [if_pos (show (Bindings.get? _ surface).isSome = true from hsome)]
      exact hb
    · unfold Batch.isFull at hfree
      split_ifs <;> omega

theorem Grows.drop : Grows n b { b with droppedObservations := b.droppedObservations + n } where
  calls := (Nat.add_assoc _ _ _).symm
  events := rfl
  capped := id

variable [Add δ] [Max δ]

theorem grows_restoreSurface (b : Buffer δ) (e : String × BoundaryAggregate δ) :
    Grows e.2.callCount b (b.restoreSurface e) := by
  unfold Batch.restoreSurface
  cases hget : b.pending.get? e.1 with
  | some current => exact Grows.put (Or.inl (by rw [hget]; rfl)) (by rw [hget]; rfl)
  | none =>
    by_cases hfull : b.isFull
    · simp only [hfull, if_true]
      exact Grows.drop
    · simp only [hfull, if_false]
      exact Grows.put (Or.inr hfull) (by rw [hget]; simp)

theorem grows_foldl (entries : List (String × BoundaryAggregate δ)) (b : Buffer δ) :
    Grows (entries.map fun e => e.2.callCount).sum b (entries.foldl Batch.restoreSurface b) := by
  induction entries generalizing b with
  | nil => exact ⟨rfl, rfl, id⟩
  | cons e entries ih =>
    have hfirst := grows_restoreSurface b e
    have hrest := ih (b.restoreSurface e)
    constructor
    case calls =>
      have h := hfirst.calls
      have h' := hrest.calls
      simp only [List.foldl_cons, List.map_cons, List.sum_cons]
      omega
    case events => exact hrest.events.trans hfirst.events
    case capped => exact fun hb => hrest.capped (hfirst.capped hb)

/-- The observations that a batch stands for, kept or dropped. -/
def observations (b : Batch δ) : Nat := calls b + b.droppedObservations

theorem restore_counts (b : Buffer δ) (batch : Batch δ) :
    observations (b.restore batch) = observations b + observations batch ∧
      (b.restore batch).droppedEvents = b.droppedEvents + batch.droppedEvents ∧
      (b.pending.entries.length ≤ maxBufferedSurfaces →
        (b.restore batch).pending.entries.length ≤ maxBufferedSurfaces) := by
  have h := grows_foldl batch.pending.entries
    { b with droppedObservations := b.droppedObservations + batch.droppedObservations
             droppedEvents := b.droppedEvents + batch.droppedEvents }
  refine ⟨?_, h.events, h.capped⟩
  have hcalls := h.calls
  simp only [observations, calls, callCounts, Batch.restore] at hcalls ⊢
  omega

variable [Zero δ]

theorem grows_add (b : Buffer δ) (o : Observation δ) : Grows 1 b (b.add o) := by
  unfold Batch.add
  cases hget : b.pending.get? o.surfaceName with
  | some a => exact Grows.put (Or.inl (by rw [hget]; rfl)) (by rw [hget]; rfl)
  | none =>
    by_cases hfull : b.isFull
    · simp only [hfull, if_true]
      exact Grows.drop
    · simp only [hfull, if_false]
      exact Grows.put (Or.inr hfull) (by rw [hget]; rfl)

end Counts

/-- A count over a world: what is pending, on its way and delivered. -/
def World.sum (count : Batch δ → Nat) (w : World δ) : Nat :=
  count w.buffer + total count (w.inFlight.map Flight.batch) + total count w.delivered

theorem total_append (count : Batch δ → Nat) (xs ys : List (Batch δ)) :
    total count (xs ++ ys) = total count xs + total count ys := by
  simp [total]

theorem total_add (f g : Batch δ → Nat) (batches : List (Batch δ)) :
    total (fun b => f b + g b) batches = total f batches + total g batches :=
  List.sum_map_add

variable {f : Flight δ} {flights : List (Flight δ)} {count : Batch δ → Nat} {weight : Step δ → Nat}

theorem total_eraseIdx (count : Batch δ → Nat) {i : Nat} (h : flights[i]? = some f) :
    total count ((flights.eraseIdx i).map Flight.batch) + count f.batch =
      total count (flights.map Flight.batch) := by
  induction flights generalizing i with
  | nil => simp at h
  | cons x flights ih =>
    cases i with
    | zero =>
      obtain rfl : x = f := by simpa using h
      simp [total, Nat.add_comm]
    | succ i =>
      have hrest := ih (i := i) (by simpa using h)
      simp only [total, List.eraseIdx_cons_succ, List.map_cons, List.sum_cons] at hrest ⊢
      omega

theorem map_set_batch {i : Nat} {g : Flight δ} (h : flights[i]? = some f) (hfg : g.batch = f.batch) :
    (flights.set i g).map Flight.batch = flights.map Flight.batch := by
  induction flights generalizing i with
  | nil => rfl
  | cons x flights ih =>
    cases i with
    | zero =>
      obtain rfl : x = f := by simpa using h
      simp [hfg]
    | succ i => simp [ih (i := i) (by simpa using h)]

variable [Zero δ] [Add δ] [Max δ]

/-- A count of batches that every operation on a buffer adds up, with what a step adds. -/
structure Additive (count : Batch δ → Nat) (weight : Step δ → Nat) : Prop where
  empty : count {} = 0
  add : ∀ b o, count (b.add o) = count b + weight (.add o)
  addDroppedEvents : ∀ b n, count (b.addDroppedEvents n) = count b + weight (.addDroppedEvents n)
  restore : ∀ b batch, count (b.restore batch) = count b + count batch
  swap : weight .swap = 0
  write : ∀ i outcome, weight (.write i outcome) = 0
  restored : ∀ i, weight (.restore i) = 0

theorem additive_observations : Additive (δ := δ) observations Step.observations where
  empty := rfl
  add b o := by
    have h := (grows_add b o).calls
    simp only [observations, Step.observations]
    omega
  addDroppedEvents b n := by
    unfold Batch.addDroppedEvents
    split_ifs <;> rfl
  restore b batch := (restore_counts b batch).1
  swap := rfl
  write _ _ := rfl
  restored _ := rfl

theorem additive_droppedEvents : Additive (δ := δ) Batch.droppedEvents Step.events where
  empty := rfl
  add b o := (grows_add b o).events
  addDroppedEvents b n := by
    unfold Batch.addDroppedEvents
    split_ifs with hn
    · simp only [Step.events]
      omega
    · rfl
  restore b batch := (restore_counts b batch).2.1
  swap := rfl
  write _ _ := rfl
  restored _ := rfl

/-- Moving a batch keeps the sum, whatever its write comes to. -/
theorem sum_step (h : Additive count weight) (w : World δ) (s : Step δ) :
    (w.step s).sum count = w.sum count + weight s := by
  cases s with
  | add o =>
    simp only [World.step, World.sum, h.add]
    omega
  | addDroppedEvents n =>
    simp only [World.step, World.sum, h.addDroppedEvents]
    omega
  | swap =>
    rw [h.swap]
    unfold World.step
    dsimp only
    split_ifs
    · rfl
    · simp only [World.sum, List.map_append, total_append, h.empty]
      simp only [total, Flight.batch, List.map_cons, List.map_nil, List.sum_cons, List.sum_nil]
      omega
  | write i outcome =>
    rw [h.write]
    cases hi : w.inFlight[i]? with
    | none =>
      simp only [World.step, hi]
      rfl
    | some f =>
      cases f with
      | undelivered b =>
        simp only [World.step, hi]
        rfl
      | writing b =>
        have hkept := map_set_batch hi (g := .undelivered b) rfl
        have hgone := total_eraseIdx count hi
        have hone : total count [b] = count b := Nat.add_zero _
        cases outcome with
        | delivered =>
          simp only [World.step, hi, World.sum, total_append, hone, Flight.batch] at hgone ⊢
          omega
        | refused | raised => simp only [World.step, hi, World.sum, hkept, Nat.add_zero]
  | restore i =>
    rw [h.restored]
    cases hi : w.inFlight[i]? with
    | none =>
      simp only [World.step, hi]
      rfl
    | some f =>
      cases f with
      | writing b =>
        simp only [World.step, hi]
        rfl
      | undelivered b =>
        have hgone := total_eraseIdx count hi
        simp only [World.step, hi, World.sum, h.restore, Flight.batch] at hgone ⊢
        omega

theorem step_capped (w : World δ) (s : Step δ)
    (hw : w.buffer.pending.entries.length ≤ maxBufferedSurfaces) :
    (w.step s).buffer.pending.entries.length ≤ maxBufferedSurfaces := by
  cases s with
  | add o => exact (grows_add w.buffer o).capped hw
  | addDroppedEvents n =>
    unfold World.step Batch.addDroppedEvents
    dsimp only
    split_ifs <;> exact hw
  | swap =>
    unfold World.step
    dsimp only
    split_ifs
    · exact hw
    · exact Nat.zero_le _
  | write i outcome =>
    unfold World.step
    dsimp only
    split <;> exact hw
  | restore i =>
    unfold World.step
    dsimp only
    split
    · exact (restore_counts w.buffer _).2.2 hw
    · exact hw

theorem sum_run (h : Additive count weight) (steps : List (Step δ)) (w : World δ) :
    (steps.foldl World.step w).sum count = w.sum count + (steps.map weight).sum := by
  induction steps generalizing w with
  | nil => rfl
  | cons s steps ih =>
    rw [List.foldl_cons, ih, sum_step h, List.map_cons, List.sum_cons, Nat.add_assoc]

theorem run_capped (steps : List (Step δ)) (w : World δ)
    (hw : w.buffer.pending.entries.length ≤ maxBufferedSurfaces) :
    (steps.foldl World.step w).buffer.pending.entries.length ≤ maxBufferedSurfaces := by
  induction steps generalizing w with
  | nil => exact hw
  | cons s steps ih => exact ih (w.step s) (step_capped w s hw)

/-- In every interleaving, each observation is a call or a drop that is delivered, pending or on
its way, each dropped event is counted once, and the buffer keeps its cap. -/
theorem telemetry_counts_conserved (steps : List (Step δ)) :
    let w := World.run steps
    let inFlight := w.inFlight.map Flight.batch
    (steps.map Step.observations).sum =
        total calls w.delivered + calls w.buffer + total calls inFlight +
          (w.buffer.droppedObservations + total Batch.droppedObservations inFlight +
            total Batch.droppedObservations w.delivered) ∧
      (steps.map Step.events).sum = w.buffer.droppedEvents +
        total Batch.droppedEvents inFlight + total Batch.droppedEvents w.delivered ∧
      w.buffer.pending.entries.length ≤ maxBufferedSurfaces := by
  have hobservations := sum_run additive_observations steps ({} : World δ)
  have hevents := sum_run additive_droppedEvents steps ({} : World δ)
  have hstart : ({} : World δ).sum observations = 0 := rfl
  have hstart' : ({} : World δ).sum Batch.droppedEvents = 0 := rfl
  have hsplit := fun batches => total_add (δ := δ) calls Batch.droppedObservations batches
  refine ⟨?_, ?_, run_capped steps {} (Nat.zero_le _)⟩
  · have hbatches : ∀ batches : List (Batch δ), total observations batches = _ := hsplit
    simp only [World.sum, hbatches, observations] at hobservations hstart
    simp only [World.run]
    omega
  · simp only [World.sum] at hevents hstart'
    simp only [World.run]
    omega

end Cruxible.TelemetryBuffers
