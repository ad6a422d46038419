import Mathlib.Tactic.Common

/-!
# The read revision

A unit of work is one connection with one transaction. The connection's authorizer
is told which tables a statement writes when the statement is prepared, not when a
prepared one is taken from the connection's cache again, and notes whether one of
them is not an audit table. The commit then advances the revision inside the
transaction. A boundary that finds a unit of work open joins it, and a second unit
of work does not get the lock.

Rows, statements and the policy of the statement cache are arbitrary here. The row
of `instance_state` that holds the revision is kept apart: only the commit writes
it.
-/
namespace Cruxible.ReadRevisions

/-- `_AUDIT_ONLY_TABLES`. -/
def auditOnlyTables : List String :=
  ["receipts", "receipt_entities", "execution_traces", "procedure_evidence_artifacts",
    "procedure_run_evidence", "decision_events", "boundary_telemetry",
    "boundary_telemetry_drops", "instance_state", "storage_migrations"]

/-- The test of `_authorize`. -/
def isState (table : String) : Bool :=
  table != "" && !auditOnlyTables.contains table && !table.startsWith "sqlite_"

structure Database (ρ : Type) where
  rows : String → ρ
  revision : Nat

/-- What ordinary reads depend on: every table that is not an audit table. -/
def SameState {ρ : Type} (d d' : Database ρ) : Prop :=
  ∀ t, isState t = true → d.rows t = d'.rows t

/-- A statement with its parameters. Its text says which tables it may write, and
running it leaves the others; it may fail. -/
structure Statement (writes : String → List String) (ρ : Type) where
  sql : String
  effect : (String → ρ) → Option (String → ρ)
  framed : ∀ rows rows', effect rows = some rows' → ∀ t, t ∉ writes sql → rows' t = rows t

/-- What is run inside a unit of work. A failed statement and a nested boundary
that raises may be caught. -/
inductive Body (writes : String → List String) (ρ : Type) where
  | done
  | raises
  | read (next : Database ρ → Body writes ρ)
  | execute (s : Statement writes ρ) (next failed : Body writes ρ)
  | joined (inner next caught : Body writes ρ)
  | second (caught : Body writes ρ)

/-- The connection, and beside it the statements that were issued so far. -/
structure UnitOfWork (writes : String → List String) (ρ : Type) where
  work : Database ρ
  prepared : List String := []
  stateMutated : Bool := false
  issued : List (Statement writes ρ) := []

section Model
variable {writes : String → List String} {ρ : Type}

/-- Whether a statement writes a table that is not an audit table. -/
def Statement.writesState (s : Statement writes ρ) : Bool := (writes s.sql).any isState

namespace UnitOfWork

/-- `_authorize`, for every table of a statement that is prepared. -/
def authorize (u : UnitOfWork writes ρ) (sql : String) : UnitOfWork writes ρ :=
  { u with stateMutated := u.stateMutated || (writes sql).any isState,
           prepared := u.prepared ++ [sql] }

/-- A statement that the cache keeps is not prepared again. -/
def prepare (keeps : List String → String → Bool) (u : UnitOfWork writes ρ) (sql : String) :
    UnitOfWork writes ρ :=
  if u.prepared.contains sql && keeps u.prepared sql then u else u.authorize sql

/-- Whether a statement succeeds, and what it leaves. -/
def execute (keeps : List String → String → Bool) (u : UnitOfWork writes ρ)
    (s : Statement writes ρ) : Bool × UnitOfWork writes ρ :=
  let u := u.prepare keeps s.sql
  match s.effect u.work.rows with
  | some rows =>
      (true, { u with work := { u.work with rows := rows }, issued := u.issued ++ [s] })
  | none => (false, { u with issued := u.issued ++ [s] })

/-- `_advance_read_revision`. -/
def advanceReadRevision (u : UnitOfWork writes ρ) : UnitOfWork writes ρ :=
  { u with work := { u.work with revision := u.work.revision + 1 }, stateMutated := false }

/-- `commit`, up to the commit of the connection. -/
def finish (u : UnitOfWork writes ρ) : UnitOfWork writes ρ :=
  if u.stateMutated then u.advanceReadRevision else u

end UnitOfWork

/-- Whether a body completes, and the unit of work that it leaves. -/
def Body.run (keeps : List String → String → Bool) :
    Body writes ρ → UnitOfWork writes ρ → Bool × UnitOfWork writes ρ
  | .done, u => (true, u)
  | .raises, u => (false, u)
  | .read next, u => (next u.work).run keeps u
  | .execute s next failed, u =>
      match u.execute keeps s with
      | (true, u) => next.run keeps u
      | (false, u) => failed.run keeps u
  | .joined inner next caught, u =>
      match inner.run keeps u with
      | (true, u) => next.run keeps u
      | (false, u) => caught.run keeps u
  | .second caught, u => caught.run keeps u

/-- One unit of work, with whether `BEGIN IMMEDIATE` and the commit succeed. -/
structure Work (writes : String → List String) (ρ : Type) where
  keeps : List String → String → Bool
  body : Body writes ρ
  begins : Bool := true
  commits : Bool := true

namespace Work

/-- The unit of work when its body has ended. -/
def ran (w : Work writes ρ) (d : Database ρ) : Bool × UnitOfWork writes ρ :=
  w.body.run w.keeps { work := d }

/-- Whether the unit of work is committed, and the rows that are then stored. -/
def perform (w : Work writes ρ) (d : Database ρ) : Bool × Database ρ :=
  if w.begins then
    match w.ran d with
    | (true, u) => if w.commits then (true, u.finish.work) else (false, d)
    | (false, _) => (false, d)
  else (false, d)

/-- A statement that writes a table other than an audit table was issued. -/
def wroteState (w : Work writes ρ) (d : Database ρ) : Bool :=
  (w.ran d).2.issued.any (·.writesState)

end Work

/-- The stored rows after a sequence of units of work. -/
def after (ws : List (Work writes ρ)) (d : Database ρ) : Database ρ :=
  ws.foldl (fun d w => (w.perform d).2) d

/-- What holds of a unit of work that started from `d`. -/
structure Tracking (d : Database ρ) (u : UnitOfWork writes ρ) : Prop where
  revision : u.work.revision = d.revision
  noted : u.stateMutated = u.issued.any (·.writesState)
  prepared : ∀ sql ∈ u.prepared, (writes sql).any isState = true → u.stateMutated = true
  kept : u.stateMutated = false → SameState d u.work

variable {d : Database ρ} {u : UnitOfWork writes ρ}

theorem tracking_start (d : Database ρ) : Tracking d ({ work := d } : UnitOfWork writes ρ) := by
  constructor
  case revision => rfl
  case noted => simp
  case prepared => simp
  case kept => exact fun _ _ _ => rfl

/-- After a statement is prepared or taken from the cache, its tables are noted. -/
theorem Tracking.prepare (h : Tracking d u) (keeps : List String → String → Bool) (sql : String) :
    (u.prepare keeps sql).stateMutated = (u.stateMutated || (writes sql).any isState) := by
  unfold UnitOfWork.prepare
  split_ifs with hcached
  · rw [Bool.and_eq_true, List.contains_iff_mem] at hcached
    cases hany : (writes sql).any isState with
    | false => rw [Bool.or_false]
    | true =>
      rw [h.prepared sql hcached.1 hany]
      rfl
  · rfl

theorem prepare_work (keeps : List String → String → Bool) (sql : String) :
    (u.prepare keeps sql).work = u.work ∧ (u.prepare keeps sql).issued = u.issued := by
  unfold UnitOfWork.prepare
  split_ifs <;> exact ⟨rfl, rfl⟩

theorem mem_prepared {keeps : List String → String → Bool} {sql sql' : String}
    (h : sql' ∈ (u.prepare keeps sql).prepared) : sql' ∈ u.prepared ∨ sql' = sql := by
  unfold UnitOfWork.prepare at h
  split_ifs at h
  · exact .inl h
  · simpa [UnitOfWork.authorize] using h

theorem Tracking.execute (h : Tracking d u) (keeps : List String → String → Bool)
    (s : Statement writes ρ) : Tracking d (u.execute keeps s).2 := by
  have hnoted := h.prepare keeps s.sql
  have ⟨hwork, hissued⟩ := prepare_work (u := u) keeps s.sql
  have hmutated : (u.prepare keeps s.sql).stateMutated =
      ((u.prepare keeps s.sql).issued ++ [s]).any (·.writesState) := by
    rw [hnoted, h.noted, hissued, List.any_append]
    simp [Statement.writesState]
  have hprepared : ∀ sql ∈ (u.prepare keeps s.sql).prepared, (writes sql).any isState = true →
      (u.prepare keeps s.sql).stateMutated = true := by
    intro sql hsql hany
    rw [hnoted, Bool.or_eq_true]
    rcases mem_prepared hsql with hold | rfl
    · exact .inl (h.prepared sql hold hany)
    · exact .inr hany
  have hkept : (u.prepare keeps s.sql).stateMutated = false → SameState d u.work ∧
      (writes s.sql).any isState = false := by
    intro hfalse
    rw [hnoted, Bool.or_eq_false_iff] at hfalse
    exact ⟨h.kept hfalse.1, hfalse.2⟩
  unfold UnitOfWork.execute
  dsimp only
  cases heffect : s.effect (u.prepare keeps s.sql).work.rows with
  | none =>
    constructor
    case revision => exact hwork ▸ h.revision
    case noted => exact hmutated
    case prepared => exact hprepared
    case kept =>
      intro hfalse
      have hsame := (hkept hfalse).1
      rw [← hwork] at hsame
      exact hsame
  | some rows =>
    constructor
    case revision =>
      have hrevision : (u.prepare keeps s.sql).work.revision = u.work.revision := by rw [hwork]
      exact hrevision.trans h.revision
    case noted => exact hmutated
    case prepared => exact hprepared
    case kept =>
      intro hfalse t ht
      have ⟨hsame, hany⟩ := hkept hfalse
      have hout : t ∉ writes s.sql := by
        intro hmem
        have hnot := List.any_eq_false.mp hany t hmem
        exact hnot ht
      have hrow := s.framed _ _ heffect t hout
      rw [hwork] at hrow
      exact (hsame t ht).trans hrow.symm

theorem Tracking.run (keeps : List String → String → Bool) (body : Body writes ρ) (h : Tracking d u)
    : Tracking d (body.run keeps u).2 := by
  induction body generalizing u with
  | done => exact h
  | raises => exact h
  | read next ih => exact ih u.work h
  | execute s next failed ihnext ihfailed =>
    have hexecute := h.execute keeps s
    unfold Body.run
    cases hs : u.execute keeps s with
    | mk ok v =>
      rw [hs] at hexecute
      cases ok with
      | true => exact ihnext hexecute
      | false => exact ihfailed hexecute
  | joined inner next caught ihinner ihnext ihcaught =>
    have hinner := ihinner h
    unfold Body.run
    cases hi : inner.run keeps u with
    | mk ok v =>
      rw [hi] at hinner
      cases ok with
      | true => exact ihnext hinner
      | false => exact ihcaught hinner
  | second caught ih => exact ih h

theorem perform_spec (w : Work writes ρ) (d : Database ρ) :
    ((w.perform d).1 = true → w.wroteState d = true →
        (w.perform d).2.revision = d.revision + 1) ∧
      ((w.perform d).1 = true → w.wroteState d = false →
        (w.perform d).2.revision = d.revision ∧ SameState d (w.perform d).2) ∧
      ((w.perform d).1 = false → (w.perform d).2 = d) := by
  have htracking : Tracking d (w.ran d).2 := Tracking.run w.keeps w.body (tracking_start d)
  unfold Work.wroteState
  rw [← htracking.noted]
  unfold Work.perform
  cases hbegins : w.begins with
  | false => simp
  | true =>
    cases hran : w.ran d with
    | mk ok u =>
      rw [hran] at htracking
      cases ok with
      | false => simp
      | true =>
        cases hcommits : w.commits with
        | false => simp
        | true =>
          simp only [if_true, forall_const, Bool.true_eq_false, false_implies, and_true]
          unfold UnitOfWork.finish
          constructor
          · intro hmutated
            rw [if_pos hmutated]
            exact congrArg (· + 1) htracking.revision
          · intro hmutated
            rw [if_neg (Bool.eq_false_iff.mp hmutated)]
            exact ⟨htracking.revision, htracking.kept hmutated⟩

theorem perform_moves (w : Work writes ρ) (d : Database ρ) :
    (w.perform d).2.revision = d.revision + 1 ∨
      (w.perform d).2.revision = d.revision ∧ SameState d (w.perform d).2 := by
  have ⟨hwrote, hkept, hleft⟩ := perform_spec w d
  cases hcommitted : (w.perform d).1 with
  | false =>
    rw [hleft hcommitted]
    exact .inr ⟨rfl, fun _ _ => rfl⟩
  | true =>
    cases h : w.wroteState d with
    | true => exact .inl (hwrote hcommitted h)
    | false => exact .inr (hkept hcommitted h)

theorem after_moves (ws : List (Work writes ρ)) (d : Database ρ) :
    d.revision ≤ (after ws d).revision ∧
      ((after ws d).revision = d.revision → SameState d (after ws d)) := by
  induction ws generalizing d with
  | nil => exact ⟨Nat.le_refl _, fun _ _ _ => rfl⟩
  | cons w ws ih =>
    have ⟨hle, hsame⟩ := ih (w.perform d).2
    have hafter : after (w :: ws) d = after ws (w.perform d).2 := rfl
    rw [hafter]
    rcases perform_moves w d with hmoved | ⟨hrevision, hstate⟩
    · constructor
      · omega
      · intro heq
        omega
    · rw [hrevision] at hle hsame
      constructor
      · exact hle
      · intro heq t ht
        exact (hstate t ht).trans (hsame heq t ht)

/-- The revision after any sequence of units of work: the next one advances it by
one if it is committed and wrote state and otherwise leaves it, and two moments at
which it is the same have the same state. -/
theorem read_revision_tracks_state (earlier : List (Work writes ρ)) (d : Database ρ) :
    (∀ w : Work writes ρ, (w.perform (after earlier d)).2.revision =
      (after earlier d).revision +
        (if (w.perform (after earlier d)).1 && w.wroteState (after earlier d) then 1 else 0)) ∧
      ∀ later : List (Work writes ρ),
        (after earlier d).revision ≤ (after (earlier ++ later) d).revision ∧
          ((after (earlier ++ later) d).revision = (after earlier d).revision →
            SameState (after earlier d) (after (earlier ++ later) d)) := by
  constructor
  · intro w
    have ⟨hwrote, hkept, hleft⟩ := perform_spec w (after earlier d)
    cases hcommitted : (w.perform (after earlier d)).1 with
    | false =>
        rw [hleft hcommitted]
        rfl
    | true =>
        cases h : w.wroteState (after earlier d) with
        | true => exact hwrote hcommitted h
        | false => exact (hkept hcommitted h).1
  · intro later
    have happend : after (earlier ++ later) d = after later (after earlier d) :=
      List.foldl_append
    rw [happend]
    exact after_moves later (after earlier d)

end Model

/-- A statement that adds a row to the table that it names. -/
def insertInto (table : String) : Statement (fun sql => [sql]) Nat where
  sql := table
  effect := fun rows => some fun t => if t = table then rows t + 1 else rows t
  framed := by
    intro rows rows' h t ht
    obtain rfl := Option.some.inj h
    exact if_neg (by simpa using ht)

def insertUnit (table : String) : Work (fun sql => [sql]) Nat where
  keeps := fun _ _ => true
  body := .execute (insertInto table) .done .raises

/-- A new entity advances the revision, a receipt does not. -/
example : (after [insertUnit "graph_entities", insertUnit "receipts"]
    { rows := fun _ => 0, revision := 6 }).revision = 7 := by decide +kernel

end Cruxible.ReadRevisions
