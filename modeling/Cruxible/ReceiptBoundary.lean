import Cruxible.Attempts
import Cruxible.MutationReceipts

/-!
# The boundary of a governed mutation

A mutation runs inside one context manager: it opens the write transaction or
joins the one that is open, runs the body, stores a committed receipt in the same
transaction and closes it. An `Exception` of the body rolls the transaction back,
and a refusal receipt is stored in a transaction of its own. Whatever else leaves
the body meets only the `finally` clause, which closes the transaction as if
nothing had been raised.

Every statement of the manager can raise here. The tables and the records of the
receipts are arbitrary types.
-/
namespace Cruxible.ReceiptBoundary
open Attempts Attempts.Attempt

/-- What is raised. `interrupt` stands for what is no `Exception`:
`KeyboardInterrupt`, `SystemExit`. -/
inductive Raised where
  | core (message : String)
  | error (message : String)
  | interrupt
  deriving DecidableEq, Repr

/-- Whether `except Exception` catches it. -/
def Raised.isException : Raised → Bool
  | .interrupt => false
  | _ => true

/-- What the caller of a refused mutation sees. -/
def Raised.wrapped : Raised → Raised
  | .error message => .core s!"Unexpected failure: {message}"
  | e => e

def Raised.message : Raised → String
  | .core message => message
  | .error message => message
  | .interrupt => ""

section Boundary
variable {σ ν R : Type}

/-- A receipt, with what its builder has recorded. -/
structure Receipt (ν : Type) where
  receiptId : String
  committed : Bool
  recorded : ν
  deriving DecidableEq, Repr

/-- The tables that mutations write, and the receipts. -/
structure Database (σ ν : Type) where
  tables : σ
  receipts : List (Receipt ν) := []

/-- An open transaction. A callback is what it raises, if it does. -/
structure UnitOfWork (σ ν : Type) where
  work : Database σ ν
  afterCommit : List (Option Raised) := []

structure Instance (σ ν : Type) where
  stored : Database σ ν
  active : Option (UnitOfWork σ ν) := none

/-- The rows that the process reads. -/
def Instance.rows (i : Instance σ ν) : Database σ ν :=
  match i.active with
  | some u => u.work
  | none => i.stored

/-- The statements of a transaction that can raise. Storing a receipt raises
before or after its row is inserted. -/
structure TransactionFaults where
  begins : Option Raised := none
  saves : Option (Raised × Bool) := none
  commits : Option Raised := none
  rollsBack : Option Raised := none

/-- Whether a boundary opened its transaction or found it open. -/
inductive Manager where
  | owner
  | joined
  deriving DecidableEq, Repr

def Manager.outermost : Manager → Bool
  | .owner => true
  | .joined => false

/-- `write_transaction().__enter__`. -/
def enter (f : TransactionFaults) : Attempt (Instance σ ν) Raised Manager := fun i =>
  match i.active with
  | some _ => (.ok .joined, i)
  | none =>
      match f.begins with
      | some e => (.error e, i)
      | none => (.ok .owner, { i with active := some { work := i.stored } })

def callAll : List (Option Raised) → Except Raised Unit
  | [] => .ok ()
  | none :: callbacks => callAll callbacks
  | some e :: _ => .error e

/-- `commit`, with its callbacks. A transaction that has ended is left alone. -/
def commit (f : TransactionFaults) : Attempt (Instance σ ν) Raised Unit := fun i =>
  match i.active with
  | none => (.ok (), i)
  | some u =>
      match f.commits with
      | some e => (.error e, { i with active := none })
      | none => (callAll u.afterCommit, { stored := u.work })

def rollback (f : TransactionFaults) : Attempt (Instance σ ν) Raised Unit := fun i =>
  match i.active, f.rollsBack with
  | some _, some e => (.error e, { i with active := none })
  | _, _ => (.ok (), { i with active := none })

/-- `_close_transaction`. -/
def closeTransaction (f : TransactionFaults) (tx : Manager) (raised : Option Raised) :
    Attempt (Instance σ ν) Raised Unit :=
  match tx, raised with
  | .joined, _ => pure ()
  | .owner, none => commit f
  | .owner, some _ => rollback f

def UnitOfWork.append (u : UnitOfWork σ ν) (r : Receipt ν) : UnitOfWork σ ν :=
  { u with work := { u.work with receipts := u.work.receipts ++ [r] } }

def Instance.append (i : Instance σ ν) (r : Receipt ν) : Instance σ ν :=
  { i with active := i.active.map (·.append r) }

def saveReceipt (f : TransactionFaults) (r : Receipt ν) : Attempt (Instance σ ν) Raised Unit :=
  fun i =>
    match f.saves with
    | none => (.ok (), i.append r)
    | some (e, true) => (.error e, i.append r)
    | some (e, false) => (.error e, i)

/-- A receipt that could not be stored is logged, unless it was interrupted. -/
def giveUp (e : Raised) : Attempt (Instance σ ν) Raised Bool :=
  if e.isException then pure false else raise e

/-- `_persist_receipt`. -/
def persistReceipt (f : TransactionFaults) (r : Receipt ν) :
    Attempt (Instance σ ν) Raised Bool := fun i =>
  match enter f i with
  | (.error e, i) => giveUp e i
  | (.ok tx, i) =>
      match saveReceipt f r i with
      | (.error e, i) =>
          match closeTransaction f tx (some e) i with
          | (.error e, i) => giveUp e i
          | (.ok (), i) => giveUp e i
      | (.ok (), i) =>
          match closeTransaction f tx none i with
          | (.error e, i) => giveUp e i
          | (.ok (), i) => (.ok true, i)

/-- What a body does to the tables, the receipts that boundaries inside it have
stored, the callbacks that it has registered, and how it ends: with a result,
without one, or by raising. -/
structure Report (σ ν R : Type) where
  outcome : Except Raised (Option R)
  tables : σ
  receipts : List (Receipt ν) := []
  afterCommit : List (Option Raised) := []
  recorded : ν

abbrev Body (σ ν R : Type) := σ → Report σ ν R

/-- One call, with what raises around its body. -/
structure Call (ν : Type) where
  enabled : Bool := true
  receiptId : String := ""
  /-- What the builder holds before the body runs. -/
  start : ν
  prepares : Option Raised := none
  stamps : Option Raised := none
  own : TransactionFaults := {}
  builds : Option Raised := none
  buildsRefusal : Option Raised := none
  refusal : TransactionFaults := {}
  closesStore : Option Raised := none

def Call.receipt (m : Call ν) (committed : Bool) (recorded : ν) : Receipt ν :=
  { receiptId := m.receiptId, committed := committed, recorded := recorded }

/-- The result of the call, and the receipt that it is tagged with. -/
structure Returned (R : Type) where
  result : Option R
  receiptId : Option String
  deriving DecidableEq, Repr

def UnitOfWork.take (u : UnitOfWork σ ν) (report : Report σ ν R) : UnitOfWork σ ν where
  work := { tables := report.tables, receipts := u.work.receipts ++ report.receipts }
  afterCommit := u.afterCommit ++ report.afterCommit

/-- The body, on the rows of the open transaction. -/
def runBody (body : Body σ ν R) (i : Instance σ ν) : Report σ ν R × Instance σ ν :=
  let report := body i.rows.tables
  (report, { i with active := i.active.map (·.take report) })

namespace Call

/-- The last statement, `store.close()`. -/
def ends (m : Call ν) (p : Except Raised (Returned R) × Instance σ ν) :
    Except Raised (Returned R) × Instance σ ν :=
  match m.closesStore with
  | some e => (.error e, p.2)
  | none => p

/-- The `finally` clause of a transaction that is still open. -/
def leave (m : Call ν) (tx : Manager) (result : Except Raised (Returned R)) :
    Attempt (Instance σ ν) Raised (Returned R) := fun i =>
  match closeTransaction m.own tx none i with
  | (.error e, i) => (.error e, i)
  | (.ok (), i) => m.ends (result, i)

/-- The two `except` clauses. -/
def refuse (m : Call ν) (tx : Manager) (recorded : ν) (e : Raised) :
    Attempt (Instance σ ν) Raised (Returned R) := fun i =>
  m.ends <|
    match closeTransaction m.own tx (some e.wrapped) i with
    | (.error e, i) => (.error e, i)
    | (.ok (), i) =>
        if m.enabled then
          match m.buildsRefusal with
          | some e => (.error e, i)
          | none =>
              match persistReceipt m.refusal (m.receipt false recorded) i with
              | (.error e, i) => (.error e, i)
              | (.ok _, i) => (.error e.wrapped, i)
        else (.error e.wrapped, i)

/-- The `else` clause. The receipt is built outside its inner `try`. -/
def accept (m : Call ν) (tx : Manager) (result : Option R) (recorded : ν) :
    Attempt (Instance σ ν) Raised (Returned R) := fun i =>
  match m.enabled, result with
  | true, some r =>
      match m.builds with
      | some e => m.leave tx (.error e) i
      | none =>
          match saveReceipt m.own (m.receipt true recorded) i with
          | (.error e, i) =>
              if e.isException then
                m.ends <|
                  match closeTransaction m.own tx (some e) i with
                  | (.error e, i) => (.error e, i)
                  | (.ok (), i) =>
                      (.error (.core s!"Failed to persist mutation receipt: {e.message}"), i)
              else m.leave tx (.error e) i
          | (.ok (), i) =>
              m.ends <|
                match closeTransaction m.own tx none i with
                | (.error e, i) => (.error e, i)
                | (.ok (), i) =>
                    (.ok { result := some r, receiptId := some m.receiptId }, i)
  | _, result => m.leave tx (.ok { result := result, receiptId := none }) i

/-- `_stamp_state_coordinates` logs what is an `Exception`. -/
def cutAtStamp (m : Call ν) : Bool :=
  m.enabled && m.stamps == some .interrupt

end Call

/-- `mutation_receipt` around one body. -/
def mutationReceipt (m : Call ν) (body : Body σ ν R) :
    Attempt (Instance σ ν) Raised (Returned R) := fun i =>
  match m.prepares with
  | some e => (.error e, i)
  | none =>
      match enter m.own i with
      | (.error e, i) =>
          if e.isException then m.refuse .owner m.start e i else m.leave .owner (.error e) i
      | (.ok tx, i) =>
          if m.cutAtStamp then m.leave tx (.error .interrupt) i
          else
            let (report, i) := runBody body i
            match report.outcome with
            | .error e =>
                if e.isException then m.refuse tx report.recorded e i
                else m.leave tx (.error e) i
            | .ok result => m.accept tx result report.recorded i

/-- At most one receipt, and it is not committed. -/
def Slight (receipts : List (Receipt ν)) : Prop :=
  receipts.length ≤ 1 ∧ ∀ r ∈ receipts, r.committed = false

/-- The tables are as before, and at most a refusal receipt is new. -/
def Untouched (before after : Database σ ν) : Prop :=
  after.tables = before.tables ∧ ∃ rs, after.receipts = before.receipts ++ rs ∧ Slight rs

/-- The changes of the body are there with one committed receipt. -/
def Receipted (before : Database σ ν) (report : Report σ ν R) (after : Database σ ν) : Prop :=
  (∃ result, report.outcome = .ok result) ∧ after.tables = report.tables ∧
    ∃ r, after.receipts = before.receipts ++ report.receipts ++ [r] ∧ r.committed = true

/-- The body completes and its changes are there with one committed receipt, or an
exception escapes and leaves nothing but a refusal receipt. -/
def Atomic (before : Database σ ν) (report : Report σ ν R)
    (left : Except Raised (Returned R) × Instance σ ν) : Prop :=
  match left.1 with
  | .ok _ => Receipted before report left.2.rows
  | .error _ => Untouched before left.2.rows

/-- How far a call comes. -/
inductive Ending where
  /-- The committed receipt is stored. -/
  | stored
  /-- The body completes, and no receipt is asked for. -/
  | unreceipted
  /-- The body raises an `Exception`. -/
  | refused
  /-- Storing the committed receipt raises an `Exception`. -/
  | unstored
  /-- Something else leaves the body, or the building or storing of its receipt. -/
  | cutShort
  deriving DecidableEq, Repr

def Call.ending (m : Call ν) (report : Report σ ν R) : Ending :=
  match report.outcome with
  | .error e => if e.isException then .refused else .cutShort
  | .ok none => .unreceipted
  | .ok (some _) =>
      if m.enabled then
        match m.builds, m.own.saves with
        | some _, _ => .cutShort
        | none, none => .stored
        | none, some (e, _) => if e.isException then .unstored else .cutShort
      else .unreceipted

/-- Whether the row of a receipt is inserted. -/
def TransactionFaults.inserts (f : TransactionFaults) : Bool :=
  match f.saves with
  | some (_, false) => false
  | _ => true

/-- The refusal receipt that a joined boundary leaves in the open transaction. -/
def Call.refusalLeft (m : Call ν) (report : Report σ ν R) : List (Receipt ν) :=
  if m.enabled = true ∧ m.buildsRefusal = none ∧ m.refusal.inserts = true then
    [m.receipt false report.recorded]
  else []

/-- The committed receipt that is left when the call is cut short. -/
def Call.receiptLeft (m : Call ν) (report : Report σ ν R) : List (Receipt ν) :=
  match report.outcome with
  | .error _ => []
  | .ok _ => if m.builds = none ∧ m.own.inserts = true then [m.receipt true report.recorded] else []

/-- The body has changed nothing, and at most a refusal receipt is left. -/
def Report.Idle (report : Report σ ν R) (before : σ) (left : List (Receipt ν)) : Prop :=
  report.tables = before ∧ Slight (report.receipts ++ left)

/-- Whether something raises once the transaction is closed. -/
def Call.raisesAfter (m : Call ν) (outermost : Bool) (report : Report σ ν R) : Bool :=
  outermost && report.afterCommit.any (·.isSome) || m.closesStore.isSome

/-- How a call has to end once its body has run. -/
def Call.EndsWell (m : Call ν) (outermost : Bool) (before : σ) (report : Report σ ν R) : Prop :=
  match m.ending report with
  | .stored => m.raisesAfter outermost report = false
  | .unreceipted => m.raisesAfter outermost report = true ∧ report.Idle before []
  | .refused => outermost = true ∨ report.Idle before (m.refusalLeft report)
  | .unstored => outermost = true ∨ report.Idle before (m.receiptLeft report)
  | .cutShort => report.Idle before (m.receiptLeft report)

/-- When a call is atomic: it never comes to its body, its commit fails, it is
refused, it is receipted and nothing raises afterwards, or its body did nothing. -/
def Call.Settles (m : Call ν) (outermost : Bool) (before : σ) (report : Report σ ν R) : Prop :=
  m.prepares.isSome = true ∨ m.cutAtStamp = true ∨
    (outermost = true ∧ m.own.begins.isSome = true) ∨
    (outermost = true ∧ m.own.commits.isSome = true) ∨ m.EndsWell outermost before report

variable {d : Database σ ν} {u : UnitOfWork σ ν} {report : Report σ ν R} {m : Call ν}

theorem slight_nil : Slight ([] : List (Receipt ν)) := by
  constructor
  · exact Nat.zero_le 1
  · simp

theorem untouched_refl : Untouched d d :=
  ⟨rfl, [], (List.append_nil _).symm, slight_nil⟩

variable {r : Receipt ν} {f : TransactionFaults} {result : Option R} {body : Body σ ν R}

theorem untouched_append (hr : r.committed = false) :
    Untouched d { d with receipts := d.receipts ++ [r] } := by
  have hslight : Slight [r] := by
    constructor
    · exact Nat.le_refl 1
    · intro r' hr'
      rw [List.mem_singleton.mp hr']
      exact hr
  exact ⟨rfl, [r], rfl, hslight⟩

theorem untouched_iff {left : List (Receipt ν)} :
    Untouched d { tables := report.tables, receipts := d.receipts ++ report.receipts ++ left } ↔
      report.Idle d.tables left := by
  unfold Untouched Report.Idle
  constructor
  · rintro ⟨htables, rs, hrs, hslight⟩
    rw [List.append_assoc, List.append_cancel_left_eq] at hrs
    exact ⟨htables, hrs ▸ hslight⟩
  · rintro ⟨htables, hslight⟩
    exact ⟨htables, _, List.append_assoc _ _ _, hslight⟩

theorem not_idle_committed {before : σ} (hr : r.committed = true) : ¬ report.Idle before [r] := by
  intro h
  have hfalse := h.2.2 r (by simp)
  rw [hr] at hfalse
  cases hfalse

variable {i : Instance σ ν} {e : Raised}

theorem atomic_ok {x : Returned R} :
    Atomic d report (.ok x, i) ↔ Receipted d report i.rows := Iff.rfl

theorem atomic_error :
    Atomic d report (.error e, i) ↔ Untouched d i.rows := Iff.rfl

theorem not_receipted (h : i.rows.receipts = d.receipts ++ report.receipts) :
    ¬ Receipted d report i.rows := by
  rintro ⟨_, _, r, hr, _⟩
  rw [h] at hr
  have hlength := congrArg List.length hr
  simp at hlength

variable {callbacks : List (Option Raised)}

theorem callAll_ok : callAll callbacks = .ok () ↔ callbacks.any (·.isSome) = false := by
  induction callbacks with
  | nil => simp [callAll]
  | cons callback callbacks ih =>
    cases callback with
    | none => simp [callAll, ih]
    | some e => simp [callAll]

theorem callAll_error (h : callbacks.any (·.isSome) = true) :
    ∃ e, callAll callbacks = .error e := by
  cases hcall : callAll callbacks with
  | error e => exact ⟨e, rfl⟩
  | ok u =>
    rw [callAll_ok.mp hcall] at h
    cases h

theorem rollback_state (f : TransactionFaults) (i : Instance σ ν) :
    ∃ x, rollback f i = (x, { stored := i.stored }) := by
  unfold rollback
  split <;> exact ⟨_, rfl⟩

theorem giveUp_state (e : Raised) (i : Instance σ ν) : ∃ x, giveUp e i = (x, i) := by
  unfold giveUp
  split_ifs <;> exact ⟨_, rfl⟩

/-- Without a fault the rows are stored, and a callback may raise. -/
theorem commit_ok (hf : f.commits = none) :
    commit f ⟨d, some u⟩ =
      (callAll u.afterCommit, { stored := u.work }) := by
  simp only [commit, hf]

theorem commit_fault (hf : f.commits = some e) :
    commit f ⟨d, some u⟩ = (.error e, { stored := d }) := by
  simp only [commit, hf]

theorem saveReceipt_state (f : TransactionFaults) (r : Receipt ν) (i : Instance σ ν) :
    saveReceipt f r i = ((match f.saves with
      | none => .ok ()
      | some (e, _) => .error e), if f.inserts then i.append r else i) := by
  unfold saveReceipt TransactionFaults.inserts
  split <;> simp_all

theorem persist_stored (f : TransactionFaults) (r : Receipt ν) :
    ∃ x d', persistReceipt f r { stored := d } = (x, { stored := d' }) ∧
      (d' = d ∨ d' = { d with receipts := d.receipts ++ [r] }) := by
  unfold persistReceipt enter
  cases hbegins : f.begins with
  | some e =>
    have ⟨x, hx⟩ := giveUp_state e ({ stored := d } : Instance σ ν)
    exact ⟨x, d, hx, .inl rfl⟩
  | none =>
    simp only [saveReceipt_state, closeTransaction]
    cases hsaves : f.saves with
    | some failure =>
      have ⟨x, hx⟩ := rollback_state f (if f.inserts then
        Instance.append { stored := d, active := some { work := d } } r
        else { stored := d, active := some { work := d } })
      have hstored : (if f.inserts then
        Instance.append { stored := d, active := some { work := d } } r
        else { stored := d, active := some { work := d } }).stored = d := by
          split_ifs <;> rfl
      rw [hstored] at hx
      simp only [hx]
      cases x with
      | error e =>
        have ⟨y, hy⟩ := giveUp_state e ({ stored := d } : Instance σ ν)
        exact ⟨y, d, hy, .inl rfl⟩
      | ok v =>
        have ⟨y, hy⟩ := giveUp_state failure.1 ({ stored := d } : Instance σ ν)
        exact ⟨y, d, hy, .inl rfl⟩
    | none =>
      have hinserts : f.inserts = true := by simp [TransactionFaults.inserts, hsaves]
      simp only [hinserts, if_true, Instance.append, Option.map_some]
      cases hcommits : f.commits with
      | some e =>
        have ⟨y, hy⟩ := giveUp_state e ({ stored := d } : Instance σ ν)
        rw [commit_fault hcommits]
        exact ⟨y, d, hy, .inl rfl⟩
      | none =>
        rw [commit_ok hcommits]
        exact ⟨_, _, rfl, .inr rfl⟩

theorem persist_joined (f : TransactionFaults) (r : Receipt ν) :
    ∃ x, persistReceipt f r ⟨d, some u⟩ =
      (x, { stored := d, active := some (if f.inserts then u.append r else u) }) := by
  have happend : (if f.inserts then Instance.append ⟨d, some u⟩ r
      else ⟨d, some u⟩) =
      { stored := d, active := some (if f.inserts then u.append r else u) } := by
    split_ifs <;> rfl
  unfold persistReceipt enter
  simp only [saveReceipt_state, closeTransaction, happend]
  cases f.saves with
  | none => exact ⟨_, rfl⟩
  | some failure => exact giveUp_state failure.1 _

theorem ends_error (e : Raised) (i : Instance σ ν) :
    ∃ e', m.ends (R := R) (.error e, i) = (.error e', i) := by
  unfold Call.ends
  split <;> exact ⟨_, rfl⟩

theorem ends_result (x : Except Raised (Returned R)) (i : Instance σ ν) :
    m.closesStore.isSome = true ∧ (∃ e, m.ends (x, i) = (.error e, i)) ∨
      m.closesStore.isSome = false ∧ m.ends (x, i) = (x, i) := by
  unfold Call.ends
  cases m.closesStore with
  | none => exact .inr ⟨rfl, rfl⟩
  | some e => exact .inl ⟨rfl, e, rfl⟩

/-- A refused call of the outermost boundary leaves at most its refusal receipt. -/
theorem refuse_owner (recorded : ν) (e : Raised) (i : Instance σ ν) :
    ∃ e' d', m.refuse (R := R) .owner recorded e i = (.error e', { stored := d' }) ∧
      Untouched i.stored d' := by
  unfold Call.refuse
  simp only [closeTransaction]
  have ⟨x, hx⟩ := rollback_state m.own i
  rw [hx]
  cases x with
  | error e' =>
    have ⟨e'', hends⟩ := ends_error (R := R) (m := m) e' { stored := i.stored }
    exact ⟨e'', i.stored, hends, untouched_refl⟩
  | ok v =>
    dsimp only
    split_ifs with henabled
    · cases m.buildsRefusal with
      | some e' =>
        have ⟨e'', hends⟩ := ends_error (R := R) (m := m) e' { stored := i.stored }
        exact ⟨e'', i.stored, hends, untouched_refl⟩
      | none =>
        have ⟨y, d', hpersist, hd'⟩ := persist_stored (d := i.stored) m.refusal
          (m.receipt false recorded)
        have hleft : Untouched i.stored d' := by
          rcases hd' with rfl | rfl
          · exact untouched_refl
          · exact untouched_append rfl
        dsimp only
        rw [hpersist]
        cases y with
        | error e' =>
          have ⟨e'', hends⟩ := ends_error (R := R) (m := m) e' { stored := d' }
          exact ⟨e'', d', hends, hleft⟩
        | ok b =>
          have ⟨e'', hends⟩ := ends_error (R := R) (m := m) e.wrapped { stored := d' }
          exact ⟨e'', d', hends, hleft⟩
    · have ⟨e'', hends⟩ := ends_error (R := R) (m := m) e.wrapped { stored := i.stored }
      exact ⟨e'', i.stored, hends, untouched_refl⟩

/-- A refused call of a joined boundary leaves what its body did. -/
theorem refuse_joined (recorded : ν) (e : Raised) :
    ∃ e', m.refuse (R := R) .joined recorded e ⟨d, some u⟩ =
      (.error e', { stored := d, active := some (
        if m.enabled = true ∧ m.buildsRefusal = none ∧ m.refusal.inserts = true then
          u.append (m.receipt false recorded)
        else u) }) := by
  unfold Call.refuse
  change ∃ e', m.ends (if m.enabled = true then _ else _) = _
  by_cases henabled : m.enabled = true
  · cases hbuilds : m.buildsRefusal with
    | some e' =>
      simp only [henabled, if_true, reduceCtorEq, false_and, and_false, if_false]
      exact ends_error e' _
    | none =>
      have ⟨y, hpersist⟩ := persist_joined (d := d) (u := u) m.refusal
        (m.receipt false recorded)
      simp only [henabled, if_true, true_and, hpersist]
      cases y with
      | error e' => exact ends_error e' _
      | ok b => exact ends_error e.wrapped _
  · simp only [henabled, Bool.false_eq_true, if_false, false_and]
    exact ends_error e.wrapped _

theorem leave_fault {x : Except Raised (Returned R)} (h : m.own.commits = some e) :
    m.leave .owner x ⟨d, some u⟩ = (.error e, { stored := d }) := by
  simp only [Call.leave, closeTransaction, commit_fault h]

theorem leave_owner (x : Except Raised (Returned R)) (h : m.own.commits = none) :
    ∃ y, m.leave .owner x ⟨d, some u⟩ = (y, { stored := u.work }) ∧
      ((u.afterCommit.any (·.isSome) || m.closesStore.isSome) = true ∧ (∃ e, y = .error e) ∨
        (u.afterCommit.any (·.isSome) || m.closesStore.isSome) = false ∧ y = x) := by
  simp only [Call.leave, closeTransaction, commit_ok h]
  cases hcall : u.afterCommit.any (·.isSome) with
  | true =>
    have ⟨e, he⟩ := callAll_error hcall
    rw [he]
    exact ⟨_, rfl, .inl ⟨rfl, e, rfl⟩⟩
  | false =>
    rw [callAll_ok.mpr hcall]
    rcases ends_result (m := m) x { stored := u.work } with ⟨hstore, e, he⟩ | ⟨hstore, he⟩
    · exact ⟨_, he, .inl ⟨by simp [hstore], e, rfl⟩⟩
    · exact ⟨_, he, .inr ⟨by simp [hstore], rfl⟩⟩

/-- What has been read when the body of `report` has run on the rows `d`, and the
boundary itself has added `left`. -/
structure Ran (tx : Manager) (d d₀ : Database σ ν) (report : Report σ ν R)
    (left : List (Receipt ν)) (u : UnitOfWork σ ν) : Prop where
  work : u.work =
    { tables := report.tables, receipts := d.receipts ++ report.receipts ++ left }
  before : tx = .owner → d₀ = d
  callbacks : tx = .owner → u.afterCommit = report.afterCommit

variable {tx : Manager} {d₀ : Database σ ν} {left : List (Receipt ν)}

theorem Ran.untouched (h : Ran tx d d₀ report left u) :
    Untouched d u.work ↔ report.Idle d.tables left := by
  rw [h.work]
  exact untouched_iff

theorem leave_error (h : Ran tx d d₀ report left u) (e : Raised) :
    Atomic d report (m.leave tx (.error e) ⟨d₀, some u⟩) ↔
      (tx.outermost = true ∧ m.own.commits.isSome = true) ∨ report.Idle d.tables left := by
  cases tx with
  | owner =>
    rw [h.before rfl]
    cases hcommits : m.own.commits with
    | some e' =>
      rw [leave_fault hcommits, atomic_error]
      simp only [Manager.outermost, Option.isSome_some, and_self, true_or, iff_true]
      exact untouched_refl
    | none =>
      have ⟨y, hleave, hy⟩ := leave_owner (d := d) (u := u) (R := R) (.error e) hcommits
      have herror : ∃ e, y = .error e := by
        rcases hy with ⟨_, hy⟩ | ⟨_, hy⟩
        · exact hy
        · exact ⟨e, hy⟩
      have ⟨e', he'⟩ := herror
      rw [hleave, he', atomic_error]
      simp only [Option.isSome_none, Bool.false_eq_true, and_false, false_or]
      exact h.untouched
  | joined =>
    have ⟨e', he'⟩ := ends_error (R := R) (m := m) e ⟨d₀, some u⟩
    have hleave : m.leave .joined (.error e) ⟨d₀, some u⟩ =
        (.error e', ⟨d₀, some u⟩) := he'
    rw [hleave, atomic_error]
    simp only [Manager.outermost, Bool.false_eq_true, false_and, false_or]
    exact h.untouched

variable (h : Ran tx d d₀ report [] u)

section
include h

theorem leave_result (x : Returned R) : Atomic d report (m.leave tx (.ok x) ⟨d₀, some u⟩) ↔
      (tx.outermost = true ∧ m.own.commits.isSome = true) ∨
        m.raisesAfter tx.outermost report = true ∧ report.Idle d.tables [] := by
  have hreceipts : u.work.receipts = d.receipts ++ report.receipts := by
    rw [h.work]
    exact List.append_nil _
  cases tx with
  | owner =>
    rw [h.before rfl]
    cases hcommits : m.own.commits with
    | some e' =>
      rw [leave_fault hcommits, atomic_error]
      simp only [Manager.outermost, Option.isSome_some, and_self, true_or, iff_true]
      exact untouched_refl
    | none =>
      have ⟨y, hleave, hy⟩ := leave_owner (d := d) (u := u) (.ok x) hcommits
      rw [hleave]
      simp only [Option.isSome_none, Bool.false_eq_true, and_false, false_or,
        Call.raisesAfter, Manager.outermost, Bool.true_and, ← h.callbacks rfl]
      rcases hy with ⟨hraises, e, rfl⟩ | ⟨hraises, rfl⟩
      · rw [atomic_error, hraises]
        simp only [true_and]
        exact h.untouched
      · rw [atomic_ok, hraises]
        simp only [Bool.false_eq_true, false_and, iff_false]
        exact not_receipted hreceipts
  | joined =>
    have hleave : m.leave .joined (.ok x) ⟨d₀, some u⟩ =
        m.ends (.ok x, ⟨d₀, some u⟩) := rfl
    rw [hleave]
    simp only [Manager.outermost, Bool.false_eq_true, false_and, false_or, Call.raisesAfter,
      Bool.false_and, Bool.false_or]
    rcases ends_result (m := m) (.ok x) ⟨d₀, some u⟩ with
      ⟨hstore, e, he⟩ | ⟨hstore, he⟩
    · rw [he, atomic_error, hstore]
      simp only [true_and]
      exact h.untouched
    · rw [he, atomic_ok, hstore]
      simp only [Bool.false_eq_true, false_and, iff_false]
      exact not_receipted hreceipts

theorem refuse_iff (e : Raised) : Atomic d report (m.refuse tx report.recorded e ⟨d₀, some u⟩) ↔
      tx.outermost = true ∨ report.Idle d.tables (m.refusalLeft report) := by
  cases tx with
  | owner =>
    have ⟨e', d', hrefuse, huntouched⟩ := refuse_owner (R := R) (m := m) report.recorded e
      ⟨d₀, some u⟩
    rw [hrefuse, atomic_error]
    simp only [Manager.outermost, true_or, iff_true]
    exact h.before rfl ▸ huntouched
  | joined =>
    have ⟨e', hrefuse⟩ := refuse_joined (R := R) (m := m) (d := d₀) (u := u) report.recorded e
    rw [hrefuse, atomic_error]
    simp only [Manager.outermost, Bool.false_eq_true, false_or]
    have hran : Ran .joined d d₀ report (m.refusalLeft report)
        (if m.enabled = true ∧ m.buildsRefusal = none ∧ m.refusal.inserts = true then
          u.append (m.receipt false report.recorded) else u) := by
      constructor
      case work =>
        unfold Call.refusalLeft
        split_ifs with hleft
        · simp [UnitOfWork.append, h.work]
        · exact h.work
      case before => nofun
      case callbacks => nofun
    exact hran.untouched

theorem Ran.append (r : Receipt ν) : Ran tx d d₀ report [r] (u.append r) := by
  constructor
  case work => simp [UnitOfWork.append, h.work]
  case before => exact h.before
  case callbacks => exact h.callbacks

theorem Ran.saved (hok : report.outcome = .ok result) (hbuilds : m.builds = none) :
    Ran tx d d₀ report (m.receiptLeft report)
      (if m.own.inserts then u.append (m.receipt true report.recorded) else u) := by
  unfold Call.receiptLeft
  simp only [hok, hbuilds, true_and]
  split_ifs
  · exact h.append _
  · exact h

end

theorem stored_iff {result : R} (h : Ran tx d d₀ report [m.receipt true report.recorded] u)
    (hok : report.outcome = .ok (some result)) :
    Atomic d report (m.ends <|
      match closeTransaction m.own tx none ⟨d₀, some u⟩ with
      | (.error e, i) => (.error e, i)
      | (.ok (), i) => (.ok { result := some result, receiptId := some m.receiptId }, i)) ↔
      (tx.outermost = true ∧ m.own.commits.isSome = true) ∨
        m.raisesAfter tx.outermost report = false := by
  have hreceipted : ∀ i : Instance σ ν, i.rows = u.work → Receipted d report i.rows := by
    intro i hi
    have hwork := hi.trans h.work
    exact ⟨⟨_, hok⟩, by rw [hwork], m.receipt true report.recorded, by rw [hwork], rfl⟩
  have hnever : ∀ i : Instance σ ν, i.rows = u.work → ¬ Untouched d i.rows := by
    intro i hi
    rw [hi, h.untouched]
    exact not_idle_committed rfl
  cases tx with
  | owner =>
    rw [h.before rfl]
    simp only [closeTransaction, Manager.outermost, true_and, Call.raisesAfter, Bool.true_and,
      ← h.callbacks rfl]
    cases hcommits : m.own.commits with
    | some e =>
      rw [commit_fault hcommits]
      have ⟨e', he'⟩ := ends_error (R := R) (m := m) e ({ stored := d } : Instance σ ν)
      dsimp only
      rw [he', atomic_error]
      simp only [Option.isSome_some, true_or, iff_true]
      exact untouched_refl
    | none =>
      rw [commit_ok hcommits]
      simp only [Option.isSome_none, Bool.false_eq_true, false_or]
      cases hcall : u.afterCommit.any (·.isSome) with
      | true =>
        have ⟨e, he⟩ := callAll_error hcall
        have ⟨e', he'⟩ := ends_error (R := R) (m := m) e ({ stored := u.work } : Instance σ ν)
        rw [he]
        dsimp only
        rw [he', atomic_error]
        simp only [Bool.true_or, Bool.true_eq_false, iff_false]
        exact hnever _ rfl
      | false =>
        rw [callAll_ok.mpr hcall]
        simp only [Bool.false_or]
        rcases ends_result (m := m) (R := R)
          (.ok { result := some result, receiptId := some m.receiptId })
          ({ stored := u.work } : Instance σ ν) with ⟨hstore, e, he⟩ | ⟨hstore, he⟩
        · rw [he, atomic_error, hstore]
          simp only [Bool.true_eq_false, iff_false]
          exact hnever _ rfl
        · rw [he, atomic_ok, hstore]
          simp only [iff_true]
          exact hreceipted _ rfl
  | joined =>
    simp only [closeTransaction, Manager.outermost, Bool.false_eq_true, false_and, false_or,
      Call.raisesAfter, Bool.false_and, Bool.false_or]
    change Atomic d report (m.ends (.ok _, _)) ↔ _
    rcases ends_result (m := m) (R := R)
      (.ok { result := some result, receiptId := some m.receiptId })
      (⟨d₀, some u⟩ : Instance σ ν) with ⟨hstore, e, he⟩ | ⟨hstore, he⟩
    · rw [he, atomic_error, hstore]
      simp only [Bool.true_eq_false, iff_false]
      exact hnever _ rfl
    · rw [he, atomic_ok, hstore]
      simp only [iff_true]
      exact hreceipted _ rfl

/-- An `Exception` of the store is treated like one of the body, without a refusal
receipt. -/
theorem unstored_iff (h : Ran tx d d₀ report left u) (e e' : Raised) :
    Atomic d report (m.ends (R := R) <|
      match closeTransaction m.own tx (some e) ⟨d₀, some u⟩ with
      | (.error e, i) => (.error e, i)
      | (.ok (), i) => (.error e', i)) ↔
      tx.outermost = true ∨ report.Idle d.tables left := by
  cases tx with
  | owner =>
    rw [h.before rfl]
    simp only [closeTransaction, Manager.outermost, true_or, iff_true]
    have ⟨x, hx⟩ := rollback_state m.own ⟨d, some u⟩
    rw [hx]
    cases x with
    | error e₁ =>
      have ⟨e₂, hends⟩ := ends_error (R := R) (m := m) e₁ ({ stored := d } : Instance σ ν)
      dsimp only
      rw [hends, atomic_error]
      exact untouched_refl
    | ok v =>
      have ⟨e₂, hends⟩ := ends_error (R := R) (m := m) e' ({ stored := d } : Instance σ ν)
      dsimp only
      rw [hends, atomic_error]
      exact untouched_refl
  | joined =>
    have ⟨e₂, hends⟩ := ends_error (R := R) (m := m) e' ⟨d₀, some u⟩
    simp only [closeTransaction, Manager.outermost, Bool.false_eq_true, false_or]
    change Atomic d report (m.ends (.error e', _)) ↔ _
    rw [hends, atomic_error]
    exact h.untouched

section
include h

theorem accept_stored {result : R} (hok : report.outcome = .ok (some result))
    (henabled : m.enabled = true) (hbuilds : m.builds = none) :
    Atomic d report (m.accept tx (some result) report.recorded ⟨d₀, some u⟩) ↔
      (tx.outermost = true ∧ m.own.commits.isSome = true) ∨
        m.EndsWell tx.outermost d.tables report := by
  have hsaved := h.saved hok hbuilds
  have happend : (if m.own.inserts then
      Instance.append ⟨d₀, some u⟩ (m.receipt true report.recorded)
      else ⟨d₀, some u⟩) =
      { stored := d₀, active := some (
        if m.own.inserts then u.append (m.receipt true report.recorded) else u) } := by
    split_ifs <;> rfl
  unfold Call.accept Call.EndsWell
  simp only [henabled, hbuilds, saveReceipt_state, happend]
  cases hsaves : m.own.saves with
  | none =>
    have hending : m.ending report = .stored := by
      simp [Call.ending, hok, henabled, hbuilds, hsaves]
    have hleft : m.receiptLeft report = [m.receipt true report.recorded] := by
      simp [Call.receiptLeft, hok, hbuilds, TransactionFaults.inserts, hsaves]
    rw [hleft] at hsaved
    rw [hending]
    exact stored_iff hsaved hok
  | some failure =>
    dsimp only
    cases hexception : failure.1.isException with
    | true =>
      have hending : m.ending report = .unstored := by
        simp [Call.ending, hok, henabled, hbuilds, hsaves, hexception]
      rw [hending, if_pos rfl, unstored_iff hsaved]
      cases tx with
      | owner | joined => simp [Manager.outermost]
    | false =>
      have hending : m.ending report = .cutShort := by
        simp [Call.ending, hok, henabled, hbuilds, hsaves, hexception]
      rw [hending, if_neg Bool.false_ne_true]
      exact leave_error hsaved failure.1

theorem accept_iff (hok : report.outcome = .ok result) :
    Atomic d report (m.accept tx result report.recorded ⟨d₀, some u⟩) ↔
      (tx.outermost = true ∧ m.own.commits.isSome = true) ∨
        m.EndsWell tx.outermost d.tables report := by
  cases result with
  | none =>
    have hending : m.ending report = .unreceipted := by simp only [Call.ending, hok]
    have haccept : m.accept tx none report.recorded ⟨d₀, some u⟩ =
        m.leave tx (.ok ({ result := none, receiptId := none } : Returned R))
          ⟨d₀, some u⟩ := by
      cases henabled : m.enabled <;> simp [Call.accept, henabled]
    rw [haccept, Call.EndsWell, hending]
    exact leave_result h _
  | some result =>
    cases henabled : m.enabled with
    | false =>
      have hending : m.ending report = .unreceipted := by
        simp [Call.ending, hok, henabled]
      have haccept : m.accept tx (some result) report.recorded
          ⟨d₀, some u⟩ =
          m.leave tx (.ok { result := some result, receiptId := none })
            ⟨d₀, some u⟩ := by
        simp [Call.accept, henabled]
      rw [haccept, Call.EndsWell, hending]
      exact leave_result h _
    | true =>
      cases hbuilds : m.builds with
      | some e =>
        have hending : m.ending report = .cutShort := by
          simp [Call.ending, hok, henabled, hbuilds]
        have hleft : m.receiptLeft report = [] := by
          simp [Call.receiptLeft, hok, hbuilds]
        have haccept : m.accept tx (some result) report.recorded
            ⟨d₀, some u⟩ =
            m.leave tx (.error e) ⟨d₀, some u⟩ := by
          simp [Call.accept, henabled, hbuilds]
        rw [haccept, Call.EndsWell, hending]
        dsimp only
        rw [hleft]
        exact leave_error h e
      | none => exact accept_stored h hok henabled hbuilds

end

/-- The `try` clause once the transaction is open. -/
def Call.proceed (m : Call ν) (tx : Manager) (report : Report σ ν R) :
    Attempt (Instance σ ν) Raised (Returned R) := fun i =>
  match report.outcome with
  | .error e => if e.isException then m.refuse tx report.recorded e i else m.leave tx (.error e) i
  | .ok result => m.accept tx result report.recorded i

include h in
theorem body_iff : Atomic d report (m.proceed tx report ⟨d₀, some u⟩) ↔
      (tx.outermost = true ∧ m.own.commits.isSome = true) ∨
        m.EndsWell tx.outermost d.tables report := by
  unfold Call.proceed
  cases hok : report.outcome with
  | ok result => exact accept_iff h hok
  | error e =>
    dsimp only
    cases hexception : e.isException with
    | true =>
      have hending : m.ending report = .refused := by
        simp [Call.ending, hok, hexception]
      rw [if_pos rfl, refuse_iff h, Call.EndsWell, hending]
      cases tx with
      | owner | joined => simp [Manager.outermost]
    | false =>
      have hending : m.ending report = .cutShort := by
        simp [Call.ending, hok, hexception]
      have hleft : m.receiptLeft report = [] := by simp [Call.receiptLeft, hok]
      rw [if_neg Bool.false_ne_true, Call.EndsWell, hending]
      dsimp only
      rw [hleft]
      exact leave_error h e

theorem ran_runBody (body : Body σ ν R) (tx : Manager) (d₀ : Database σ ν) (h : tx = .owner → u.work = d₀)
    (hcallbacks : tx = .owner → u.afterCommit = []) :
    Ran tx u.work d₀ (body u.work.tables) [] (u.take (body u.work.tables)) := by
  constructor
  case work => simp [UnitOfWork.take]
  case before => exact fun hown => (h hown).symm
  case callbacks =>
    intro hown
    simp [UnitOfWork.take, hcallbacks hown]

theorem mutationReceipt_outermost (hprepares : m.prepares = none) (hbegins : m.own.begins = none)
    (hcut : m.cutAtStamp = false) :
    mutationReceipt m body { stored := d } = m.proceed .owner (body d.tables)
      { stored := d, active := some (UnitOfWork.take { work := d } (body d.tables)) } := by
  simp only [mutationReceipt, enter, hprepares, hbegins, hcut, Bool.false_eq_true, if_false]
  rfl

theorem mutationReceipt_joined (hprepares : m.prepares = none) (hcut : m.cutAtStamp = false) :
    mutationReceipt m body ⟨d, some u⟩ =
      m.proceed .joined (body u.work.tables)
        { stored := d, active := some (u.take (body u.work.tables)) } := by
  simp only [mutationReceipt, enter, hprepares, hcut, Bool.false_eq_true, if_false]
  rfl

theorem atomic_outermost (m : Call ν) (body : Body σ ν R) (d : Database σ ν) :
    Atomic d (body d.tables) (mutationReceipt m body { stored := d }) ↔
      m.Settles true d.tables (body d.tables) := by
  unfold Call.Settles
  cases hprepares : m.prepares with
  | some e =>
    simp only [mutationReceipt, hprepares, atomic_error, Option.isSome_some, true_or, iff_true]
    exact untouched_refl
  | none =>
    simp only [Option.isSome_none, Bool.false_eq_true, false_or, true_and]
    cases hbegins : m.own.begins with
    | some e =>
      simp only [mutationReceipt, enter, hprepares, hbegins, Option.isSome_some, true_or,
        or_true, iff_true]
      cases e.isException with
      | true =>
        have ⟨e', d', hrefuse, huntouched⟩ := refuse_owner (R := R) (m := m) m.start e
          ({ stored := d } : Instance σ ν)
        rw [if_pos rfl, hrefuse, atomic_error]
        exact huntouched
      | false =>
        have ⟨e', hends⟩ := ends_error (R := R) (m := m) e ({ stored := d } : Instance σ ν)
        have hleave : m.leave (R := R) .owner (.error e) { stored := d } =
            (.error e', { stored := d }) := hends
        rw [if_neg Bool.false_ne_true, hleave, atomic_error]
        exact untouched_refl
    | none =>
      simp only [Option.isSome_none, Bool.false_eq_true, false_or]
      cases hcut : m.cutAtStamp with
      | true =>
        simp only [mutationReceipt, enter, hprepares, hbegins, hcut, if_true, true_or,
          iff_true]
        cases hcommits : m.own.commits with
        | some e =>
          rw [leave_fault hcommits, atomic_error]
          exact untouched_refl
        | none =>
          have ⟨y, hleave, hy⟩ := leave_owner (R := R) (d := d) (u := { work := d })
            (.error .interrupt) hcommits
          have herror : ∃ e, y = .error e := by
            rcases hy with ⟨_, hy⟩ | ⟨_, hy⟩
            · exact hy
            · exact ⟨_, hy⟩
          have ⟨e', he'⟩ := herror
          rw [hleave, he', atomic_error]
          exact untouched_refl
      | false =>
        have hbody := body_iff (m := m) (ran_runBody (u := { work := d }) body .owner d
          (fun _ => rfl) (fun _ => rfl))
        simp only [Manager.outermost, true_and] at hbody
        rw [mutationReceipt_outermost hprepares hbegins hcut]
        simp only [Bool.false_eq_true, false_or]
        exact hbody

theorem atomic_joined (m : Call ν) (body : Body σ ν R) (d₀ : Database σ ν) (u : UnitOfWork σ ν) :
    Atomic u.work (body u.work.tables)
        (mutationReceipt m body ⟨d₀, some u⟩) ↔
      m.Settles false u.work.tables (body u.work.tables) := by
  unfold Call.Settles
  cases hprepares : m.prepares with
  | some e =>
    simp only [mutationReceipt, hprepares, atomic_error, Option.isSome_some, true_or, iff_true]
    exact untouched_refl
  | none =>
    simp only [Option.isSome_none, Bool.false_eq_true, false_or, false_and]
    cases hcut : m.cutAtStamp with
    | true =>
      have ⟨e', hends⟩ := ends_error (R := R) (m := m) .interrupt
        ⟨d₀, some u⟩
      have hleave : m.leave (R := R) .joined (.error .interrupt)
          ⟨d₀, some u⟩ =
          (.error e', ⟨d₀, some u⟩) := hends
      simp only [mutationReceipt, enter, hprepares, hcut, if_true, true_or, iff_true]
      rw [hleave, atomic_error]
      exact untouched_refl
    | false =>
      have hbody := body_iff (m := m) (ran_runBody (u := u) body .joined d₀ nofun nofun)
      simp only [Manager.outermost, Bool.false_eq_true, false_and, false_or] at hbody
      rw [mutationReceipt_joined hprepares hcut]
      simp only [Bool.false_eq_true, false_or]
      exact hbody

/-- A governed mutation is atomic with its receipt exactly if it settles. -/
theorem receipt_is_atomic_iff (m : Call ν) (body : Body σ ν R) (i : Instance σ ν) :
    Atomic i.rows (body i.rows.tables) (mutationReceipt m body i) ↔
      m.Settles i.active.isNone i.rows.tables (body i.rows.tables) := by
  have ⟨d, active⟩ := i
  cases active with
  | none => exact atomic_outermost m body d
  | some u => exact atomic_joined m body d u

end Boundary

/-- A body that is interrupted after it has written a row. -/
def interruptedWrite : Body (List String) Unit Unit := fun rows =>
  { outcome := .error .interrupt, tables := rows ++ ["service/api"], recorded := () }

/-- The `finally` clause commits the row, without a receipt. -/
theorem interrupted_write_is_kept :
    mutationReceipt { start := () } interruptedWrite { stored := { tables := [] } } =
        (.error .interrupt, { stored := { tables := ["service/api"], receipts := [] } }) ∧
      ¬ Atomic { tables := [] } (interruptedWrite [])
        (mutationReceipt { start := () } interruptedWrite { stored := { tables := [] } }) := by
  have hleft : mutationReceipt { start := () } interruptedWrite { stored := { tables := [] } } =
      (.error .interrupt, { stored := { tables := ["service/api"], receipts := [] } }) := rfl
  constructor
  · exact hleft
  · rw [hleft]
    rintro ⟨htables, _⟩
    cases htables

end Cruxible.ReceiptBoundary
