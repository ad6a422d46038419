import Cruxible.ProcedureInvocations
import Mathlib.Algebra.GroupWithZero.Nat

/-!
# The account of an invocation

A run that is started has neither receipt nor evidence, and a finalized one has the one
receipt that its row names. Every transaction keeps it so, whoever makes it, and a run
that is finalized is not touched again. So an invocation that left its run behind has
finalized it, and what executed was authorized.
-/
namespace Cruxible.ProcedureInvocations
open JsonValue PythonDict KeyedTable Permissions ProcedureLifecycle ProcedureHistories
open PropertyValidation
open ReadMetadata (Object Outputs)
open WorkflowRuns (PlanItem)
open Cruxible.Graph (EntityGraph EntityInstance)
open ProcedureRuns hiding core

variable {κ ℓ γ : Type}

namespace Store

def receiptsOf (s : Store γ) (runId : String) : List ProcedureReceipt :=
  s.receipts.rows.filter fun r => r.runId = runId

def linksOf (s : Store γ) (runId : String) : List EvidenceLink :=
  s.evidence.filter fun l => l.runId = runId

end Store

/-- What a row of `procedure_runs` says of the other tables. -/
def Accounted (s : Store γ) (runId : String) : Prop :=
  match (s.runs.get? runId).map ProcedureRun.state with
  | some (.finalized verdict spent receiptId) => ∃ receipt, s.receiptsOf runId = [receipt] ∧
      receipt.receiptId = receiptId ∧ receipt.verdict = verdict ∧ receipt.spent = spent
  | _ => s.receiptsOf runId = [] ∧ s.linksOf runId = []

structure Consistent (d : Definitions (ProcedureBody γ)) (s : Store γ) : Prop where
  lawful : Lawful d s.procedures
  kept : ∀ l ∈ s.evidence, (s.artifacts.get? l.artifactId).isSome
  accounted : ∀ runId, Accounted s runId

/-- A store that keeps its own accounts. -/
structure ConsistentStore (d : Definitions (ProcedureBody γ)) where
  store : Store γ
  consistent : Consistent d store

variable {d : Definitions (ProcedureBody γ)} {env : InvocationEnv κ ℓ γ} {s t u : Store γ}
  {id own : String}

theorem consistent_empty : Consistent d ({} : Store γ) where
  lawful := lawful_empty
  kept := by
    intro l hl
    cases hl
  accounted := fun _ => ⟨rfl, rfl⟩

/-- Nothing of a run has changed. -/
structure Untouched (id : String) (s t : Store γ) : Prop where
  row : t.runs.get? id = s.runs.get? id
  receipts : t.receiptsOf id = s.receiptsOf id
  links : t.linksOf id = s.linksOf id

theorem Untouched.refl (id : String) (s : Store γ) : Untouched id s s := ⟨rfl, rfl, rfl⟩

theorem Untouched.trans (h : Untouched id s t) (h' : Untouched id t u) : Untouched id s u where
  row := h'.row.trans h.row
  receipts := h'.receipts.trans h.receipts
  links := h'.links.trans h.links

theorem Untouched.accounted (h : Untouched id s t) (hs : Accounted s id) : Accounted t id := by
  unfold Accounted
  rw [h.row, h.receipts, h.links]
  exact hs

variable {receiptId procedureId : String} {procedure p : Record γ} {f : Finished γ} {output : Value}
  {stepOutputs : Outputs} {run : ProcedureRun} {spent : ProcedureBudgetSpent}
  {receipt : ProcedureReceipt} {verdict : RunVerdict} {q : Record γ} {input : Object}
  {body : ProcedureBody γ} {refs : List EvidenceRef} {log : List Event}

theorem accounted_finalized (hrow : s.runs.get? id = some run)
    (hstate : run.state = .finalized verdict spent receiptId) (h : Accounted s id) :
    ∃ receipt, s.receiptsOf id = [receipt] ∧ receipt.receiptId = receiptId ∧
      receipt.verdict = verdict ∧ receipt.spent = spent := by
  unfold Accounted at h
  rw [hrow, Option.map_some, hstate] at h
  exact h

theorem accounted_of_finalized (hrow : s.runs.get? id = some run)
    (hstate : run.state = .finalized verdict spent receiptId) (hone : s.receiptsOf id = [receipt])
    (hid : receipt.receiptId = receiptId) (hverdict : receipt.verdict = verdict)
    (hspent : receipt.spent = spent) : Accounted s id := by
  unfold Accounted
  rw [hrow, Option.map_some, hstate]
  exact ⟨receipt, hone, hid, hverdict, hspent⟩

theorem accounted_open (hopen : ∀ run, s.runs.get? id = some run → run.state = .started)
    (h : Accounted s id) : s.receiptsOf id = [] ∧ s.linksOf id = [] := by
  unfold Accounted at h
  cases hrow : s.runs.get? id with
  | none =>
    rw [hrow] at h
    exact h
  | some run =>
    rw [hrow, Option.map_some, hopen run hrow] at h
    exact h

theorem accounted_of_open (hopen : ∀ run, s.runs.get? id = some run → run.state = .started)
    (hreceipts : s.receiptsOf id = []) (hlinks : s.linksOf id = []) : Accounted s id := by
  unfold Accounted
  cases hrow : s.runs.get? id with
  | none => exact ⟨hreceipts, hlinks⟩
  | some run =>
    rw [Option.map_some, hopen run hrow]
    exact ⟨hreceipts, hlinks⟩

/-- What the first transaction does. -/
structure Starts (env : InvocationEnv κ ℓ γ) (s : Store γ) (procedureId : String)
    (procedure : Record γ) (runId : String) (t : Store γ) : Prop where
  found : getProcedure env.definitions s.procedures procedureId = .ok procedure
  fresh : s.runs.get? runId = none
  stored : t = { s with runs := s.runs.put (startedRun procedure runId) }

theorem startProcedureRun_ok {runId : String}
    (h : startProcedureRun env s procedureId = .ok (procedure, runId, t)) :
    Starts env s procedureId procedure runId t := by
  unfold startProcedureRun at h
  cases hget : getProcedure env.definitions s.procedures procedureId with
  | error e =>
    rw [hget] at h
    cases h
  | ok p =>
    rw [hget] at h
    cases h
    constructor
    case found => exact hget
    case fresh =>
      have hnot := env.mint_fresh (s.runs.rows.map ProcedureRun.runId)
      cases hrow : s.runs.get? (env.mint (s.runs.rows.map ProcedureRun.runId)) with
      | none => rfl
      | some run =>
        have hkey : run.runId = _ := Table.key_of_get? hrow
        have hmem : run.runId ∈ s.runs.rows.map ProcedureRun.runId :=
          List.mem_map.mpr ⟨run, Table.mem_rows_of_get? hrow, rfl⟩
        rw [hkey] at hmem
        exact absurd hmem hnot
    case stored => rfl

theorem Starts.untouched {runId : String} (h : Starts env s procedureId procedure runId t)
    (hid : runId ≠ id) : Untouched id s t := by
  rw [h.stored]
  exact ⟨Table.get?_put_of_ne s.runs hid, rfl, rfl⟩

theorem Starts.row {runId : String} (h : Starts env s procedureId procedure runId t) :
    t.runs.get? runId = some (startedRun procedure runId) := by
  rw [h.stored]
  exact Table.get?_put_self s.runs (startedRun procedure runId)

theorem Starts.consistent {runId : String} (h : Starts env s procedureId procedure runId t)
    (hs : Consistent d s) : Consistent d t := by
  have hfresh : ∀ run, s.runs.get? runId = some run → run.state = .started := by
    intro run hrun
    rw [h.fresh] at hrun
    cases hrun
  constructor
  case lawful =>
    rw [h.stored]
    exact hs.lawful
  case kept =>
    rw [h.stored]
    exact hs.kept
  case accounted =>
    intro i
    by_cases hid : runId = i
    · subst hid
      have hnone := accounted_open hfresh (hs.accounted runId)
      apply accounted_of_open
      · intro run hrun
        rw [h.row] at hrun
        rw [← Option.some.inj hrun]
        rfl
      · rw [h.stored]
        exact hnone.1
      · rw [h.stored]
        exact hnone.2
    · exact (h.untouched hid).accounted (hs.accounted i)

/-- What `_persist_built_procedure_receipt_in_uow` does to a run. -/
structure Finishes (s : Store γ) (receipt : ProcedureReceipt) (run : ProcedureRun)
    (t : Store γ) : Prop where
  fresh : s.receipts.get? receipt.receiptId = none
  found : s.runs.get? receipt.runId = some run
  started : run.state = .started
  stored : t = { s with
    receipts := s.receipts.put receipt
    runs := s.runs.put
      { run with state := .finalized receipt.verdict receipt.spent receipt.receiptId } }

theorem persist_ok (h : persistBuiltProcedureReceiptInUow s receipt = .ok t) :
    ∃ run, Finishes s receipt run t := by
  unfold persistBuiltProcedureReceiptInUow at h
  cases hreceipt : s.receipts.get? receipt.receiptId with
  | some r =>
    rw [hreceipt] at h
    cases h
  | none =>
    rw [hreceipt] at h
    unfold Store.finalizeRun at h
    dsimp only at h
    cases hrow : s.runs.get? receipt.runId with
    | none =>
      rw [hrow] at h
      cases h
    | some run =>
      rw [hrow] at h
      dsimp only at h
      cases hstate : run.state with
      | finalized verdict spent receiptId =>
        rw [hstate] at h
        cases h
      | started =>
        rw [hstate] at h
        exact ⟨run, hreceipt, hrow, hstate, (Except.ok.inj h).symm⟩

theorem persist_of_started (hreceipt : s.receipts.get? receipt.receiptId = none)
    (hrow : s.runs.get? receipt.runId = some run) (hstate : run.state = .started) :
    ∃ t, persistBuiltProcedureReceiptInUow s receipt = .ok t := by
  unfold persistBuiltProcedureReceiptInUow Store.finalizeRun
  rw [hreceipt]
  dsimp only
  rw [hrow]
  dsimp only
  rw [hstate]
  exact ⟨_, rfl⟩

theorem persist_of_finalized (hrow : s.runs.get? receipt.runId = some run)
    (hstate : run.state ≠ .started) :
    ∃ e, persistBuiltProcedureReceiptInUow s receipt = .error e := by
  cases hpersist : persistBuiltProcedureReceiptInUow s receipt with
  | error e => exact ⟨e, rfl⟩
  | ok t =>
    have ⟨other, hfinishes⟩ := persist_ok hpersist
    have hsame : run = other := Option.some.inj (hrow.symm.trans hfinishes.found)
    exact absurd (hsame ▸ hfinishes.started) hstate

namespace Finishes
variable {receipt : ProcedureReceipt} {run : ProcedureRun} (h : Finishes s receipt run t)

section
include h

theorem runId : run.runId = receipt.runId :=
  Table.key_of_get? h.found

theorem untouched (hid : receipt.runId ≠ id) : Untouched id s t := by
  constructor
  case row =>
    rw [h.stored]
    exact Table.get?_put_of_ne s.runs (h.runId ▸ hid)
  case receipts =>
    unfold Store.receiptsOf
    rw [h.stored]
    dsimp only
    rw [Table.rows_put_of_none h.fresh, List.filter_append, List.filter_cons_of_neg (by simpa using hid),
      List.filter_nil, List.append_nil]
  case links =>
    rw [h.stored]
    rfl

theorem row : t.runs.get? receipt.runId =
    some { run with state := .finalized receipt.verdict receipt.spent receipt.receiptId } := by
  rw [h.stored]
  dsimp only
  rw [Table.get?_put, if_pos h.runId]

theorem receipts (hs : Accounted s receipt.runId) : t.receiptsOf receipt.runId = [receipt] := by
  have hopen : ∀ r, s.runs.get? receipt.runId = some r → r.state = .started := by
    intro r hr
    rw [h.found] at hr
    rw [← Option.some.inj hr]
    exact h.started
  have hold := (accounted_open hopen hs).1
  unfold Store.receiptsOf at hold ⊢
  rw [h.stored]
  dsimp only
  rw [Table.rows_put_of_none h.fresh, List.filter_append, hold, List.filter_cons_of_pos (by simp)]
  rfl

theorem links_nil (hs : Accounted s receipt.runId) : t.linksOf receipt.runId = [] := by
  have hopen : ∀ r, s.runs.get? receipt.runId = some r → r.state = .started := by
    intro r hr
    rw [h.found] at hr
    rw [← Option.some.inj hr]
    exact h.started
  have hnone := (accounted_open hopen hs).2
  unfold Store.linksOf at hnone ⊢
  rw [h.stored]
  exact hnone

theorem consistent (hs : Consistent d s) : Consistent d t := by
  constructor
  case lawful =>
    rw [h.stored]
    exact hs.lawful
  case kept =>
    rw [h.stored]
    exact hs.kept
  case accounted =>
    intro i
    by_cases hid : receipt.runId = i
    · subst hid
      exact accounted_of_finalized h.row rfl (h.receipts (hs.accounted receipt.runId)) rfl rfl rfl
    · exact (h.untouched hid).accounted (hs.accounted i)

end

end Finishes

/-- The tables after some links of one run, and their artifacts, were added. -/
structure Adds (id : String) (s t : Store γ) : Prop where
  procedures : t.procedures = s.procedures
  runs : t.runs = s.runs
  receipts : t.receipts = s.receipts
  artifacts : ∀ i, (s.artifacts.get? i).isSome → (t.artifacts.get? i).isSome
  evidence : ∃ links, t.evidence = s.evidence ++ links ∧
    ∀ l ∈ links, l.runId = id ∧ (t.artifacts.get? l.artifactId).isSome

namespace Adds

theorem refl (id : String) (s : Store γ) : Adds id s s :=
  ⟨rfl, rfl, rfl, fun _ h => h, [], (List.append_nil _).symm, by
    intro l hl
    cases hl⟩

theorem trans (h : Adds id s t) (h' : Adds id t u) : Adds id s u where
  procedures := h'.procedures.trans h.procedures
  runs := h'.runs.trans h.runs
  receipts := h'.receipts.trans h.receipts
  artifacts := fun i hi => h'.artifacts i (h.artifacts i hi)
  evidence := by
    have ⟨links, hlinks, hnew⟩ := h.evidence
    have ⟨links', hlinks', hnew'⟩ := h'.evidence
    refine ⟨links ++ links', ?_, ?_⟩
    · rw [hlinks', hlinks, List.append_assoc]
    · intro l hl
      rcases List.mem_append.mp hl with hl | hl
      · exact ⟨(hnew l hl).1, h'.artifacts _ (hnew l hl).2⟩
      · exact hnew' l hl

theorem untouched (h : Adds own s t) (hid : own ≠ id) : Untouched id s t := by
  have ⟨links, hlinks, hnew⟩ := h.evidence
  constructor
  case row => rw [h.runs]
  case receipts =>
    unfold Store.receiptsOf
    rw [h.receipts]
  case links =>
    have hnone : links.filter (fun l => l.runId = id) = [] := by
      apply List.filter_eq_nil_iff.mpr
      intro l hl heq
      exact hid ((hnew l hl).1.symm.trans (of_decide_eq_true heq))
    unfold Store.linksOf
    rw [hlinks, List.filter_append, hnone, List.append_nil]

/-- The row and the receipts of the run itself stay too. -/
theorem accounted (h : Adds id s t) (hrow : s.runs.get? id = some run)
    (hstate : run.state ≠ .started) (hs : Accounted s id) : Accounted t id := by
  cases hcase : run.state with
  | started => exact absurd hcase hstate
  | finalized verdict spent receiptId =>
    have ⟨receipt, hone, hid, hverdict, hspent⟩ := accounted_finalized hrow hcase hs
    apply accounted_of_finalized (h.runs ▸ hrow) hcase _ hid hverdict hspent
    unfold Store.receiptsOf at hone ⊢
    rw [h.receipts]
    exact hone

theorem consistent (h : Adds own s t) (hrow : s.runs.get? own = some run)
    (hstate : run.state ≠ .started) (hs : Consistent d s) : Consistent d t := by
  constructor
  case lawful =>
    rw [h.procedures]
    exact hs.lawful
  case kept =>
    have ⟨links, hlinks, hnew⟩ := h.evidence
    intro l hl
    rw [hlinks] at hl
    rcases List.mem_append.mp hl with hl | hl
    · exact h.artifacts _ (hs.kept l hl)
    · exact (hnew l hl).2
  case accounted =>
    intro i
    by_cases hid : own = i
    · subst hid
      exact h.accounted hrow hstate (hs.accounted own)
    · exact (h.untouched hid).accounted (hs.accounted i)

end Adds

theorem saveEvidenceArtifact_adds (id : String) (s : Store γ) (a : EvidenceArtifact) :
    Adds id s (saveEvidenceArtifact s a) ∧
      ((saveEvidenceArtifact s a).artifacts.get? a.artifactId).isSome ∧
      (saveEvidenceArtifact s a).evidence = s.evidence := by
  unfold saveEvidenceArtifact
  cases hget : s.artifacts.get? a.artifactId with
  | some b =>
    dsimp only
    exact ⟨Adds.refl id s, by rw [hget]; rfl, rfl⟩
  | none =>
    dsimp only
    refine ⟨⟨rfl, rfl, rfl, ?_, [], (List.append_nil _).symm, ?_⟩, ?_, rfl⟩
    · intro i hi
      rw [Table.get?_put]
      split_ifs
      · rfl
      · exact hi
    · intro l hl
      cases hl
    · rw [Table.get?_put_self]
      rfl

theorem persistOutputs_adds (runId receiptId : String) (values : List (String × Value))
    (s : Store γ) : Adds runId s (persistOutputs env runId receiptId values s).2 := by
  induction values generalizing s with
  | nil => exact Adds.refl runId s
  | cons head rest ih =>
    unfold persistOutputs
    cases hartifact : procedureEvidenceArtifact env head.2 with
    | none => exact Adds.refl runId s
    | some a =>
      dsimp only
      have ⟨hadds, hsome, hsame⟩ := saveEvidenceArtifact_adds runId s a
      split_ifs with hlinked
      · exact hadds
      · refine hadds.trans (Adds.trans ?_ (ih _))
        refine ⟨rfl, rfl, rfl, fun _ hi => hi, _, rfl, ?_⟩
        intro l hl
        rw [List.mem_singleton.mp hl]
        exact ⟨rfl, hsome⟩

/-- What an action comes to, for the run `own` that it may not finish. -/
inductive Does (env : InvocationEnv κ ℓ γ) (own : String) (s : Store γ) : Store γ → Prop where
  | nothing : Does env own s s
  | lifecycle (r : Request (ProcedureBody γ)) :
      Does env own s { s with procedures := handle env.definitions s.procedures r }
  | graphWrite (g : EntityGraph) :
      Does env own s { s with graph := g, readRevision := s.readRevision + 1 }
  | start {procedureId runId : String} {procedure : Record γ} {t : Store γ}
      (h : Starts env s procedureId procedure runId t) : Does env own s t
  | finish {receipt : ProcedureReceipt} {run : ProcedureRun} {t : Store γ}
      (outputs : List (String × Value)) (h : Finishes s receipt run t)
      (hother : receipt.runId ≠ own) :
      Does env own s (persistOutputs env receipt.runId receipt.receiptId outputs t).2

theorem does_elsewhere (env : InvocationEnv κ ℓ γ) (own : String) (s : Store γ)
    (action : Elsewhere γ) : Does env own s (elsewhere env own s action) := by
  unfold elsewhere
  cases action with
  | lifecycle r => exact .lifecycle r
  | graphWrite g => exact .graphWrite g
  | startRun procedureId =>
    dsimp only
    cases hstart : startProcedureRun env s procedureId with
    | error e => exact .nothing
    | ok result => exact .start (startProcedureRun_ok hstart)
  | finishRun receipt outputs =>
    dsimp only
    split_ifs with hown
    · exact .nothing
    · cases hpersist : persistBuiltProcedureReceiptInUow s receipt with
      | error e => exact .nothing
      | ok t =>
        have ⟨run, hfinishes⟩ := persist_ok hpersist
        exact .finish outputs hfinishes hown

theorem Finishes.outputs_consistent (h : Finishes s receipt run t) (hs : Consistent d s)
    (outputs : List (String × Value)) :
    Consistent d (persistOutputs env receipt.runId receipt.receiptId outputs t).2 := by
  have hadds : Adds receipt.runId t
      (persistOutputs env receipt.runId receipt.receiptId outputs t).2 :=
    persistOutputs_adds receipt.runId receipt.receiptId outputs t
  apply hadds.consistent h.row _ (h.consistent hs)
  intro hstate
  cases hstate

theorem Does.consistent (h : Does env own s t) (hs : Consistent env.definitions s) :
    Consistent env.definitions t := by
  cases h with
  | nothing => exact hs
  | lifecycle r => exact ⟨lawful_handle hs.lawful r, hs.kept, hs.accounted⟩
  | graphWrite g => exact ⟨hs.lawful, hs.kept, hs.accounted⟩
  | start h => exact h.consistent hs
  | finish outputs h hother => exact h.outputs_consistent hs outputs

theorem Does.untouched (h : Does env own s t) (hrow : s.runs.get? id = some run)
    (hsafe : own = id ∨ run.state ≠ .started) : Untouched id s t := by
  cases h with
  | nothing => exact Untouched.refl id s
  | lifecycle r => exact ⟨rfl, rfl, rfl⟩
  | graphWrite g => exact ⟨rfl, rfl, rfl⟩
  | start h =>
    apply h.untouched
    intro heq
    have hfresh := h.fresh
    rw [heq, hrow] at hfresh
    cases hfresh
  | @finish receipt other mid outputs h hother =>
    have hne : receipt.runId ≠ id := by
      intro heq
      have hfound := h.found
      rw [heq, hrow] at hfound
      rcases hsafe with hsafe | hsafe
      · exact hother (heq.trans hsafe.symm)
      · exact hsafe (Option.some.inj hfound ▸ h.started)
    exact (h.untouched hne).trans
      ((persistOutputs_adds receipt.runId receipt.receiptId outputs mid).untouched hne)

theorem consistent_others (hs : Consistent env.definitions s) (actions : List (Elsewhere γ)) :
    Consistent env.definitions (others env own actions s) := by
  induction actions generalizing s with
  | nil => exact hs
  | cons action rest ih => exact ih ((does_elsewhere env own s action).consistent hs)

theorem untouched_others (hrow : s.runs.get? id = some run)
    (hsafe : own = id ∨ run.state ≠ .started) (actions : List (Elsewhere γ)) :
    Untouched id s (others env own actions s) := by
  induction actions generalizing s with
  | nil => exact Untouched.refl id s
  | cons action rest ih =>
    have hstep : Untouched id s (elsewhere env own s action) :=
      (does_elsewhere env own s action).untouched hrow hsafe
    exact hstep.trans (ih (hstep.row.trans hrow))

/-- A row later on; while it stays live it is the same. -/
structure Followed (p q : Record γ) : Prop extends Evolved p q where
  live : p.status = .live → q.status = .live → q = p

theorem Followed.refl (p : Record γ) : Followed p p := ⟨Evolved.refl p, fun _ _ => rfl⟩

theorem Followed.trans {r : Record γ} (h : Followed p q) (h' : Followed q r) : Followed p r where
  toEvolved := h.toEvolved.trans h'.toEvolved
  live := by
    intro hp hr
    have hwas : wasLive q.status = true := by
      apply h.wasLive
      rw [hp]
      rfl
    cases hq : q.status with
    | live => rw [h'.live hq hr, h.live hp hq]
    | retired =>
      have hsame : r = q := h'.final (by rw [hq]; rfl)
      rw [hsame, hq] at hr
      cases hr
    | pending | rejected | withdrawn =>
      rw [hq] at hwas
      cases hwas

theorem followed_of_moves (h : Moves p q) : Followed p q where
  toEvolved := h.evolved
  live := by
    intro hp hq
    have hallowed := h.allowed
    rw [hp, hq] at hallowed
    have hnever : (ProcedureStatus.live, ProcedureStatus.live) ∉ allowedTransitions := by decide
    exact absurd hallowed hnever

def Follows (s t : Store γ) : Prop :=
  ∀ i p, s.procedures.get? i = some p → ∃ q, t.procedures.get? i = some q ∧ Followed p q

theorem follows_of_same (h : t.procedures = s.procedures) : Follows s t := by
  intro i p hp
  exact ⟨p, h ▸ hp, Followed.refl p⟩

theorem Follows.trans (h : Follows s t) (h' : Follows t u) : Follows s u := by
  intro i p hp
  have ⟨q, hq, hpq⟩ := h i p hp
  have ⟨r, hr, hqr⟩ := h' i q hq
  exact ⟨r, hr, hpq.trans hqr⟩

theorem Does.follows (h : Does env own s t) (hs : Consistent env.definitions s) : Follows s t := by
  cases h with
  | nothing => exact follows_of_same rfl
  | lifecycle r =>
    intro i p hp
    have ⟨q, hq, hcases⟩ := changes_handle hs.lawful r i p hp
    refine ⟨q, hq, ?_⟩
    rcases hcases with hsame | hchanged
    · exact hsame ▸ Followed.refl q
    · exact followed_of_moves hchanged.toMoves
  | graphWrite g => exact follows_of_same rfl
  | start h => exact follows_of_same (by rw [h.stored])
  | @finish receipt run mid outputs h hother =>
    apply follows_of_same
    rw [(persistOutputs_adds receipt.runId receipt.receiptId outputs mid).procedures, h.stored]

theorem follows_others (hs : Consistent env.definitions s) (actions : List (Elsewhere γ)) :
    Follows s (others env own actions s) := by
  induction actions generalizing s with
  | nil => exact follows_of_same rfl
  | cons action rest ih =>
    have hdoes := does_elsewhere env own s action
    exact (hdoes.follows hs).trans (ih (hdoes.consistent hs))

/-- A record that could be read can be read later, with the same definition, and is the
same record if it is live all along. -/
theorem getProcedure_followed (h : Follows s t) (hp : getProcedure d s.procedures id = .ok p) :
    ∃ q, getProcedure d t.procedures id = .ok q ∧ (p.status = .live → q.status = .live → q = p) := by
  unfold getProcedure at hp ⊢
  cases hget : s.procedures.get? id with
  | none =>
    rw [hget] at hp
    cases hp
  | some row =>
    have ⟨later, hlater, hfollowed⟩ := h id row hget
    rw [hget] at hp
    rw [hlater]
    dsimp only at hp ⊢
    unfold rowToProcedure at hp ⊢
    rw [hfollowed.same.definition]
    cases hread : d.readBack row.definition.body with
    | none =>
      rw [hread] at hp
      cases hp
    | some body =>
      rw [hread] at hp
      refine ⟨_, rfl, ?_⟩
      cases hp
      intro hlive hstill
      rw [hfollowed.live hlive hstill]

/-- What the preflight checked. -/
structure Compiled (env : InvocationEnv κ ℓ γ) (procedure : Record γ) (input : Object)
    (p : Preflight κ) : Prop where
  live : procedure.status = .live
  computed : env.definitions.digest procedure.definition = procedure.definitionDigest
  config : env.loadConfig = .ok p.config
  lock : ∃ lock, env.loadLock = .ok lock ∧
    env.compile p.config lock procedure.definition input = .ok p.plan ∧
    procedure.acceptanceLockDigest = some (env.lockDigest lock) ∧
    p.lockDigest = env.lockDigest lock
  pinned : procedure.acceptanceConfigDigest = some (env.configDigest p.config)
  digest : p.configDigest = env.configDigest p.config

theorem verifyAcceptancePins_ok {configDigest lockDigest : String}
    (h : verifyAcceptancePins procedure configDigest lockDigest = .ok ()) :
    procedure.acceptanceConfigDigest = some configDigest ∧
      procedure.acceptanceLockDigest = some lockDigest := by
  unfold verifyAcceptancePins at h
  split_ifs at h with hmissing hsame
  exact hsame

theorem mapError_ok {ε ε' α : Type} {f : ε → ε'} {x : Except ε α} {a : α}
    (h : x.mapError f = .ok a) : x = .ok a := by
  cases x with
  | error e => cases h
  | ok b => exact congrArg Except.ok (Except.ok.inj h)

theorem preflight_ok {p : Preflight κ} (h : preflight env procedure input = .ok p) :
    Compiled env procedure input p := by
  unfold preflight at h
  split_ifs at h with hlive hdigest
  have hcompiled := mapError_ok h
  unfold compileForRun at hcompiled
  have ⟨config, hconfig, hrest⟩ := Fallible.bind_eq_ok.mp hcompiled
  have ⟨lock, hlock, hrest⟩ := Fallible.bind_eq_ok.mp hrest
  have ⟨required, _, hrest⟩ := Fallible.bind_eq_ok.mp hrest
  have ⟨_, _, hrest⟩ := Fallible.bind_eq_ok.mp hrest
  have ⟨_, hpins, hrest⟩ := Fallible.bind_eq_ok.mp hrest
  have ⟨plan, hplan, hrest⟩ := Fallible.bind_eq_ok.mp hrest
  have hverified := verifyAcceptancePins_ok hpins
  cases hrest
  exact ⟨not_not.mp hlive, not_not.mp hdigest, hconfig, ⟨lock, hlock, hplan, hverified.2, rfl⟩,
    hverified.1, rfl⟩

/-- The precondition, on a graph. -/
def Holds (env : InvocationEnv κ ℓ γ) (config : κ) (g : EntityGraph)
    (precondition : ProcedurePrecondition) : Prop :=
  ∀ entityType, precondition.entityType = some entityType →
    ∃ entity ∈ g.nodes.entries.map Prod.snd, entity.entityType = entityType ∧
      QueryEngine.entityMatchesQueryState entity.metadata env.now .live = true ∧
      matchesCondition env config precondition.condition entity = .ok true

theorem holds_of_satisfiers {config : κ} {g : EntityGraph} {precondition : ProcedurePrecondition}
    {satisfiers : List (String × String)}
    (h : procedurePreconditionSatisfiers env config g precondition = .ok satisfiers)
    (hsome : precondition.entityType = none ∨ satisfiers ≠ []) :
    Holds env config g precondition := by
  intro entityType htype
  unfold procedurePreconditionSatisfiers at h
  rw [htype] at h hsome
  rcases hsome with hsome | hsome
  · cases hsome
  dsimp only at h
  have ⟨found, hfound, hrest⟩ := Fallible.bind_eq_ok.mp h
  cases hrest
  cases found with
  | nil => exact absurd rfl hsome
  | cons entity rest =>
    have ⟨hall, heq⟩ := Fallible.filterM_eq_ok.mp hfound
    have hmem : entity ∈ entity :: rest := List.mem_cons_self
    rw [heq] at hmem
    have ⟨hlive, hpasses⟩ := List.mem_filter.mp hmem
    have ⟨b, hb⟩ := hall entity hlive
    have htrue : b = true := by
      unfold Fallible.passes at hpasses
      rw [hb] at hpasses
      exact hpasses
    have ⟨hnode, hstate⟩ := List.mem_filter.mp hlive
    rw [Bool.and_eq_true, decide_eq_true_eq] at hstate
    exact ⟨entity, hnode, hstate.1, hstate.2, htrue ▸ hb⟩

/-- What the authorizing transaction found. -/
structure Authorized (env : InvocationEnv κ ℓ γ) (procedureId : String) (input : Object)
    (a : Admission κ γ) : Prop where
  current : getProcedure env.definitions a.store.procedures procedureId = .ok a.current
  live : a.current.status = .live
  started : a.store.runs.get? a.runId = some (startedRun a.current a.runId)
  computed : env.definitions.digest a.current.definition = a.current.definitionDigest
  revision : a.detail.readRevision = some a.store.readRevision
  precondition : Holds env a.preflight.config a.store.graph a.current.definition.body.precondition
  /-- What is executed: the same procedure, under the pinned configuration and lock. -/
  procedure : a.procedure = a.current
  compiled : Compiled env a.current input a.preflight

theorem authorize_none {current : Record γ} {config : κ} {detail : PreconditionDetail}
    (h : authorize env procedure current config s = (detail, none)) :
    current.status = .live ∧ env.definitions.digest current.definition = current.definitionDigest ∧
      detail.readRevision = some s.readRevision ∧
      Holds env config s.graph current.definition.body.precondition := by
  unfold authorize at h
  dsimp only at h
  split_ifs at h with hlive hsame hdigest
  · cases h
  · cases h
  · cases h
  · cases hfound : procedurePreconditionSatisfiers env config s.graph
        current.definition.body.precondition with
    | error e =>
      rw [hfound] at h
      cases h
    | ok satisfiers =>
      rw [hfound] at h
      dsimp only at h
      split_ifs at h with hsome
      · rw [Bool.or_eq_true, Option.isNone_iff_eq_none, Bool.not_eq_true',
          List.isEmpty_eq_false_iff] at hsome
        cases h
        exact ⟨not_not.mp hlive, not_not.mp hdigest, rfl, holds_of_satisfiers hfound hsome⟩
      · cases h

/-- From the first transaction to the second: the run is new, and still only started. -/
structure Entered (env : InvocationEnv κ ℓ γ) (s : Store γ) (runId : String)
    (procedure : Record γ) (t : Store γ) : Prop where
  fresh : s.runs.get? runId = none
  row : t.runs.get? runId = some (startedRun procedure runId)
  consistent : Consistent env.definitions t

theorem Starts.entered {runId : String} (h : Starts env s procedureId procedure runId t)
    (hs : Consistent env.definitions s) (actions : List (Elsewhere γ)) :
    Entered env s runId procedure (others env runId actions t) where
  fresh := h.fresh
  row := (untouched_others h.row (.inl rfl) actions).row.trans h.row
  consistent := consistent_others (h.consistent hs) actions

/-- What the entry of an invocation comes to. It always finds its procedure again. -/
inductive Enters (env : InvocationEnv κ ℓ γ) (procedureId : String) (input : Object)
    (s : Store γ) : Entry κ γ → Prop where
  | unknown {e : LifecycleError} : Enters env procedureId input s (.unknown e)
  | refused {r : Refusal γ} (h : Entered env s r.runId r.procedure r.store) :
      Enters env procedureId input s (.refused r)
  | admitted {a : Admission κ γ} (h : Entered env s a.runId a.procedure a.store)
      (hauthorized : Authorized env procedureId input a) :
      Enters env procedureId input s (.admitted a)

theorem enters (env : InvocationEnv κ ℓ γ) (procedureId : String) (input : Object)
    (before : List (Elsewhere γ)) (hs : Consistent env.definitions s) :
    Enters env procedureId input s (enter env procedureId input before s) := by
  unfold enter
  cases hstart : startProcedureRun env s procedureId with
  | error e => exact .unknown
  | ok result =>
    have ⟨procedure, runId, begun⟩ := result
    have hstarts := startProcedureRun_ok hstart
    have hentered := hstarts.entered hs before
    dsimp only
    cases hpreflight : preflight env procedure input with
    | error refusal => exact .refused hentered
    | ok p =>
      have hcompiled := preflight_ok hpreflight
      have hbegun : getProcedure env.definitions begun.procedures procedureId = .ok procedure := by
        rw [hstarts.stored]
        exact hstarts.found
      have hfollows : Follows begun (others env runId before begun) :=
        follows_others (hstarts.consistent hs) before
      have ⟨current, hcurrent, hsame⟩ := getProcedure_followed hfollows hbegun
      dsimp only
      rw [hcurrent]
      dsimp only
      cases hauthorize : authorize env procedure current p.config (others env runId before begun) with
      | mk detail refusal =>
        cases refusal with
        | some refusal => exact .refused hentered
        | none =>
          have ⟨hlive, hcomputed, hrevision, hholds⟩ := authorize_none hauthorize
          have heq : current = procedure := hsame hcompiled.live hlive
          refine .admitted hentered ?_
          constructor
          case current => exact hcurrent
          case live => exact hlive
          case started => exact heq ▸ hentered.row
          case computed => exact hcomputed
          case revision => exact hrevision
          case precondition => exact hholds
          case procedure => exact heq.symm
          case compiled => exact heq ▸ hcompiled

def exceedsBudget : ProcedureError → Bool
  | .wallClockExceeded _ | .providerCallsExceeded _ => true
  | _ => false

/-- The verdict that belongs to an ending. A failure after the time is up exceeds the
budget as well. -/
def Ending.agrees : Ending γ → RunVerdict → Prop
  | .returned _, verdict => verdict = .succeeded
  | .raised (.refused reason _), verdict => verdict = .refused reason
  | .raised (.execution e), verdict =>
      verdict = .budgetExceeded ∨ exceedsBudget e = false ∧ verdict = .failed
  | .raised _, _ => False

/-- The run of an invocation is finalized, once and for all. -/
structure Finalized (env : InvocationEnv κ ℓ γ) (f : Finished γ) (runId : String) : Prop where
  row : ∃ run receipt, f.store.runs.get? runId = some run ∧
    f.store.receiptsOf runId = [receipt] ∧
    run.state = .finalized receipt.verdict receipt.spent receipt.receiptId ∧
    f.ending.agrees receipt.verdict
  once : ∀ receipt, receipt.runId = runId →
    ∃ e, persistBuiltProcedureReceiptInUow f.store receipt = .error e
  ever : ∀ own later, Untouched runId f.store (others env own later f.store)

theorem Finishes.finalized (h : Finishes s receipt run t) (hs : Accounted s receipt.runId)
    (hadds : Adds receipt.runId t f.store) (hagrees : f.ending.agrees receipt.verdict) :
    Finalized env f receipt.runId := by
  have hrow := h.row
  rw [← hadds.runs] at hrow
  constructor
  case row =>
    refine ⟨_, receipt, hrow, ?_, rfl, hagrees⟩
    have hone := h.receipts hs
    unfold Store.receiptsOf at hone ⊢
    rw [hadds.receipts]
    exact hone
  case once =>
    intro other hother
    apply persist_of_finalized (hother ▸ hrow)
    intro hstate
    cases hstate
  case ever =>
    intro own later
    apply untouched_others hrow (.inr _) later
    intro hstate
    cases hstate

theorem finishes_receiptOf (env : InvocationEnv κ ℓ γ) {runId : String} (input : Object)
    (against : Option String × Option String) (detail : PreconditionDetail)
    (spent : ProcedureBudgetSpent) (verdict : RunVerdict)
    (hrow : s.runs.get? runId = some (startedRun procedure runId)) :
    ∃ t run, persistBuiltProcedureReceiptInUow s
        (receiptOf env s procedure runId input against detail spent verdict) = .ok t ∧
      Finishes s (receiptOf env s procedure runId input against detail spent verdict) run t := by
  have hfresh : s.receipts.get?
      (receiptOf env s procedure runId input against detail spent verdict).receiptId = none := by
    have hnot := env.mint_fresh (s.receipts.rows.map ProcedureReceipt.receiptId)
    cases hget : s.receipts.get? (env.mint (s.receipts.rows.map ProcedureReceipt.receiptId)) with
    | none => exact hget
    | some r =>
      have hkey : r.receiptId = _ := Table.key_of_get? hget
      have hmem : r.receiptId ∈ s.receipts.rows.map ProcedureReceipt.receiptId :=
        List.mem_map.mpr ⟨r, Table.mem_rows_of_get? hget, rfl⟩
      rw [hkey] at hmem
      exact absurd hmem hnot
  have ⟨t, ht⟩ := persist_of_started hfresh hrow rfl
  have ⟨run, hrun⟩ := persist_ok ht
  exact ⟨t, run, ht, hrun⟩

theorem failureVerdict_agrees (penv : ProcedureEnv) (e : ProcedureError) (c : Context) :
    (Ending.raised (.execution e) : Ending γ).agrees (failureVerdict penv e c) := by
  unfold Ending.agrees failureVerdict
  cases e with
  | wallClockExceeded w => exact .inl rfl
  | providerCallsExceeded n => exact .inl rfl
  | _ =>
    dsimp only
    split_ifs
    · exact .inl rfl
    · exact .inr ⟨rfl, rfl⟩

def EvidenceRef.link (r : EvidenceRef) : EvidenceLink :=
  ⟨r.sourceRecordId, r.label, r.artifactId, r.receiptId⟩

theorem map_link_listRunEvidenceRefs (hs : Consistent d s) (runId : String) :
    (s.listRunEvidenceRefs runId).map EvidenceRef.link = s.linksOf runId := by
  have hall : ∀ l ∈ s.linksOf runId, l.runId = runId ∧ (s.artifacts.get? l.artifactId).isSome := by
    intro l hl
    have ⟨hmem, hid⟩ := List.mem_filter.mp hl
    exact ⟨of_decide_eq_true hid, hs.kept l hmem⟩
  unfold Store.listRunEvidenceRefs
  change ((s.linksOf runId).filterMap _).map _ = _
  generalize s.linksOf runId = links at hall
  induction links with
  | nil => rfl
  | cons l rest ih =>
    have ⟨hid, hsome⟩ := hall l List.mem_cons_self
    have ⟨a, ha⟩ := Option.isSome_iff_exists.mp hsome
    rw [List.filterMap_cons, ha]
    dsimp only [Option.map_some]
    rw [List.map_cons, ih fun m hm => hall m (List.mem_cons_of_mem l hm)]
    unfold EvidenceRef.link
    dsimp only
    rw [← hid]

/-- The link of an output. -/
def linkOf (env : InvocationEnv κ ℓ γ) (runId receiptId : String) (v : String × Value) :
    EvidenceLink :=
  ⟨runId, v.1, "PJA-" ++ env.sha256 (env.canonicalText v.2), receiptId⟩

theorem linksOf_append (s : Store γ) (l : EvidenceLink) :
    ({ s with evidence := s.evidence ++ [l] } : Store γ).linksOf l.runId =
      s.linksOf l.runId ++ [l] := by
  unfold Store.linksOf
  dsimp only
  rw [List.filter_append, List.filter_cons_of_pos (by simp), List.filter_nil]

theorem persistOutputs_links (runId receiptId : String) (values : List (String × Value))
    (s : Store γ) (hnodup : (values.map Prod.fst).Nodup)
    (hnew : ∀ l ∈ s.linksOf runId, l.outputAlias ∉ values.map Prod.fst) :
    (persistOutputs env runId receiptId values s).1 = values.all (fun v => v.2.finite) ∧
      (persistOutputs env runId receiptId values s).2.linksOf runId = s.linksOf runId ++
        (values.takeWhile fun v => v.2.finite).map (linkOf env runId receiptId) := by
  induction values generalizing s with
  | nil => exact ⟨rfl, (List.append_nil _).symm⟩
  | cons head rest ih =>
    rw [List.map_cons, List.nodup_cons] at hnodup
    unfold persistOutputs
    cases hartifact : procedureEvidenceArtifact env head.2 with
    | none =>
      have hinfinite : head.2.finite = false := by
        unfold procedureEvidenceArtifact at hartifact
        split_ifs at hartifact with hfinite
        exact Bool.eq_false_iff.mpr hfinite
      simp [hinfinite]
    | some a =>
      have ⟨hfinite, hid⟩ : head.2.finite = true ∧
          a.artifactId = "PJA-" ++ env.sha256 (env.canonicalText head.2) := by
        unfold procedureEvidenceArtifact at hartifact
        split_ifs at hartifact with hfinite
        exact ⟨hfinite, by rw [← Option.some.inj hartifact]⟩
      have ⟨_, _, hsame⟩ := saveEvidenceArtifact_adds runId s a
      have hold : (saveEvidenceArtifact s a).linksOf runId = s.linksOf runId := by
        unfold Store.linksOf
        rw [hsame]
      have hunlinked : ((saveEvidenceArtifact s a).evidence.any fun l =>
          l.runId = runId && l.outputAlias = head.1) = false := by
        rw [hsame, List.any_eq_false]
        intro l hl hboth
        rw [Bool.and_eq_true, decide_eq_true_eq, decide_eq_true_eq] at hboth
        apply hnew l (List.mem_filter.mpr ⟨hl, decide_eq_true hboth.1⟩)
        rw [hboth.2]
        exact List.mem_cons_self
      have hlinked := linksOf_append (saveEvidenceArtifact s a)
        ⟨runId, head.1, a.artifactId, receiptId⟩
      dsimp only at hlinked ⊢
      rw [hold] at hlinked
      rw [if_neg (by rw [hunlinked]; exact Bool.false_ne_true)]
      have hrest := ih { saveEvidenceArtifact s a with
        evidence := (saveEvidenceArtifact s a).evidence ++
          [⟨runId, head.1, a.artifactId, receiptId⟩] } hnodup.2 (by
        intro l hl
        rw [hlinked] at hl
        rcases List.mem_append.mp hl with hl | hl
        · intro hmem
          exact hnew l hl (List.mem_cons_of_mem _ hmem)
        · rw [List.mem_singleton.mp hl]
          exact hnodup.1)
      rw [hlinked] at hrest
      constructor
      · rw [hrest.1, List.all_cons, hfinite, Bool.true_and]
      · have htake : (head :: rest).takeWhile (fun v => v.2.finite) =
            head :: rest.takeWhile fun v => v.2.finite := by
          rw [List.takeWhile_cons, hfinite]
          rfl
        rw [hrest.2, htake, List.map_cons, List.append_assoc, hid]
        rfl

theorem selectedOutputs_aliases {values : List (String × Value)}
    (h : selectedOutputs body output stepOutputs = some values) : (values.map Prod.fst).Nodup := by
  unfold selectedOutputs at h
  cases haliases : body.evidenceOutputs with
  | none =>
    rw [haliases] at h
    rw [← Option.some.inj h]
    exact List.nodup_singleton _
  | some aliases =>
    rw [haliases] at h
    dsimp only at h
    have hmap : values.map Prod.fst = aliases := by
      clear haliases
      induction aliases generalizing values with
      | nil =>
        cases h
        rfl
      | cons a rest ih =>
        rw [List.mapM_cons] at h
        have ⟨v, hv, hrest⟩ := Option.bind_eq_some_iff.mp h
        have ⟨vs, hvs, hcons⟩ := Option.bind_eq_some_iff.mp hrest
        have ⟨w, _, hw⟩ := Option.map_eq_some_iff.mp hv
        rw [← Option.some.inj hcons, List.map_cons, ih hvs, ← hw]
    exact hmap ▸ body.distinctAliases aliases haliases

/-- Of the outputs to be kept every one has a JSON text, or already the first one has none. -/
def Keepable : Option (List (String × Value)) → Prop
  | none => True
  | some values =>
      (∀ v ∈ values, v.2.finite = true) ∨ ∀ v, values.head? = some v → v.2.finite = false

theorem keepable_iff (values : List (String × Value)) :
    Keepable (some values) ↔ values.all (fun v => v.2.finite) = true ∨
      values.takeWhile (fun v => v.2.finite) = [] := by
  unfold Keepable
  rw [List.all_eq_true]
  cases values with
  | nil => simp
  | cons head rest =>
    cases hfinite : head.2.finite with
    | false => simp [hfinite]
    | true => simp [hfinite]

theorem persistProcedureEvidenceOutputs_adds (env : InvocationEnv κ ℓ γ) (body : ProcedureBody γ)
    (runId receiptId : String) (output : Value) (stepOutputs : Outputs) (s : Store γ) :
    Adds runId s
      (persistProcedureEvidenceOutputs env body runId receiptId output stepOutputs s).2 := by
  unfold persistProcedureEvidenceOutputs
  cases hselected : selectedOutputs body output stepOutputs with
  | none => exact Adds.refl runId s
  | some values =>
    cases values with
    | nil => exact Adds.refl runId s
    | cons head rest =>
      have hadds : Adds runId s (persistOutputs env runId receiptId (head :: rest) s).2 :=
        persistOutputs_adds runId receiptId (head :: rest) s
      dsimp only
      cases hpersist : persistOutputs env runId receiptId (head :: rest) s with
      | mk completed t =>
        rw [hpersist] at hadds
        cases completed with
        | true => exact hadds
        | false => exact hadds

theorem evidence_iff {runId : String}
    (h : persistProcedureEvidenceOutputs env body runId receiptId output stepOutputs s = (refs, t))
    (hlinks : s.linksOf runId = []) (ht : Consistent d t) :
    refs.map EvidenceRef.link = t.linksOf runId ↔
      Keepable (selectedOutputs body output stepOutputs) := by
  unfold persistProcedureEvidenceOutputs at h
  cases hselected : selectedOutputs body output stepOutputs with
  | none =>
    rw [hselected] at h
    cases h
    exact ⟨fun _ => trivial, fun _ => hlinks.symm⟩
  | some values =>
    have hnodup := selectedOutputs_aliases hselected
    rw [hselected] at h
    cases values with
    | nil =>
      cases h
      exact ⟨fun _ => (keepable_iff []).mpr (.inl rfl), fun _ => hlinks.symm⟩
    | cons head rest =>
      have hunlinked : ∀ l ∈ s.linksOf runId,
          l.outputAlias ∉ (head :: rest).map Prod.fst := by
        intro l hl
        rw [hlinks] at hl
        cases hl
      have hpersisted : (persistOutputs env runId receiptId (head :: rest) s).1 =
            (head :: rest).all (fun v => v.2.finite) ∧
          (persistOutputs env runId receiptId (head :: rest) s).2.linksOf runId =
            s.linksOf runId ++ ((head :: rest).takeWhile fun v => v.2.finite).map
              (linkOf env runId receiptId) :=
        persistOutputs_links runId receiptId (head :: rest) s hnodup hunlinked
      rw [keepable_iff]
      dsimp only at h
      cases hpersist : persistOutputs env runId receiptId (head :: rest) s with
      | mk completed u =>
        rw [hpersist] at h hpersisted
        have ⟨hall, hkept⟩ := hpersisted
        rw [hlinks, List.nil_append] at hkept
        rw [← hall]
        cases completed with
        | true =>
          cases h
          exact ⟨fun _ => .inl rfl, fun _ => map_link_listRunEvidenceRefs ht runId⟩
        | false =>
          cases h
          dsimp only at hkept ⊢
          rw [hkept, List.map_nil, eq_comm, List.map_eq_nil_iff]
          constructor
          · exact .inr
          · intro hor
            rcases hor with hor | hor
            · cases hor
            · exact hor

/-- What an invocation on a store has to leave. -/
structure Accountable (env : InvocationEnv κ ℓ γ) (procedureId : String) (input : Object)
    (before : List (Elsewhere γ)) (s : Store γ) (f : Finished γ) : Prop where
  /-- What was executed was authorized, as its receipt says. -/
  authorized : f.log ≠ [] → ∃ a, enter env procedureId input before s = .admitted a ∧
    Authorized env procedureId input a ∧ f.runId = some a.runId ∧
    ∀ receipt ∈ f.store.receiptsOf a.runId, receipt.precondition = a.detail
  unstarted : f.runId = none → f.store = s
  finalized : ∀ runId, f.runId = some runId →
    s.runs.get? runId = none ∧ Finalized env f runId
  returned : ∀ result, f.ending = .returned result → f.runId = some result.run.runId ∧
    f.store.runs.get? result.run.runId = some result.run ∧
    f.store.receiptsOf result.run.runId = [result.receipt]
  consistent : Consistent env.definitions f.store

/-- The references of a result are the links that are stored. -/
def Evidenced (f : Finished γ) : Prop :=
  ∀ result, f.ending = .returned result →
    result.evidenceRefs.map EvidenceRef.link = f.store.linksOf result.run.runId

theorem Entered.others {runId : String} {procedure : Record γ}
    (h : Entered env s runId procedure t) (actions : List (Elsewhere γ)) :
    Entered env s runId procedure (others env runId actions t) where
  fresh := h.fresh
  row := (untouched_others h.row (.inl rfl) actions).row.trans h.row
  consistent := consistent_others h.consistent actions

theorem accountable_of_finishes {before : List (Elsewhere γ)}
    (hentered : Entered env s receipt.runId procedure t) (h : Finishes t receipt run u)
    (hadds : Adds receipt.runId u f.store) (hf : f.runId = some receipt.runId)
    (hagrees : f.ending.agrees receipt.verdict)
    (hlog : f.log ≠ [] → ∃ a, enter env procedureId input before s = .admitted a ∧
      Authorized env procedureId input a ∧ a.runId = receipt.runId ∧
      receipt.precondition = a.detail) (hreturned : ∀ result, f.ending = .returned result →
      f.store.runs.get? receipt.runId = some result.run ∧ result.receipt = receipt) :
    Accountable env procedureId input before s f := by
  have hone : f.store.receiptsOf receipt.runId = [receipt] := by
    have hreceipts := h.receipts (hentered.consistent.accounted receipt.runId)
    unfold Store.receiptsOf at hreceipts ⊢
    rw [hadds.receipts]
    exact hreceipts
  constructor
  case authorized =>
    intro hne
    have ⟨a, hadmitted, hauthorized, hid, hdetail⟩ := hlog hne
    refine ⟨a, hadmitted, hauthorized, hid ▸ hf, ?_⟩
    intro r hr
    rw [hid, hone] at hr
    rw [List.mem_singleton.mp hr]
    exact hdetail
  case unstarted =>
    intro hnone
    rw [hnone] at hf
    cases hf
  case finalized =>
    intro runId hid
    have heq : receipt.runId = runId := Option.some.inj (hf.symm.trans hid)
    subst heq
    exact ⟨hentered.fresh,
      h.finalized (hentered.consistent.accounted receipt.runId) hadds hagrees⟩
  case returned =>
    intro result hresult
    have ⟨hrun, hreceipt⟩ := hreturned result hresult
    have hkey : result.run.runId = receipt.runId := Table.key_of_get? hrun
    rw [hkey, hreceipt]
    exact ⟨hf, hrun, hone⟩
  case consistent =>
    apply hadds.consistent h.row _ (h.consistent hentered.consistent)
    intro hstate
    cases hstate

theorem finishUnsuccessful_eq {e : InvocationError}
    (h : persistBuiltProcedureReceiptInUow s receipt = .ok t) :
    finishUnsuccessful s receipt e log =
      { store := t, ending := .raised e, runId := some receipt.runId, log := log } := by
  unfold finishUnsuccessful
  rw [h]

theorem finishSuccessful_eq (h : persistBuiltProcedureReceiptInUow s receipt = .ok t)
    (hrun : t.runs.get? receipt.runId = some run)
    (hkept : persistProcedureEvidenceOutputs env procedure.definition.body receipt.runId
      receipt.receiptId output stepOutputs t = (refs, u)) :
    finishSuccessful env s procedure receipt output stepOutputs log =
      { store := u
        ending := .returned
          { procedure := procedure, run := run, output := output, receipt := receipt
            stepOutputs := stepOutputs, evidenceRefs := refs }
        runId := some receipt.runId
        log := log } := by
  unfold finishSuccessful
  rw [h]
  dsimp only
  rw [hrun]
  dsimp only
  rw [hkept]

/-- The outputs that an invocation is to keep, when it comes to that, can be kept. -/
def KeepsEvidence (env : InvocationEnv κ ℓ γ) (procedureId : String) (input : Object)
    (before : List (Elsewhere γ)) (s : Store γ) : Prop :=
  ∀ a output, enter env procedureId input before s = .admitted a →
    (executed env input a).1 = .ok output →
      Keepable (selectedOutputs a.procedure.definition.body output (executed env input a).2.stepOutputs)

/-- Every invocation is accounted for, and its references are its links exactly when the
outputs to be kept can be kept. -/
theorem serviceRunProcedure_spec (env : InvocationEnv κ ℓ γ) (procedureId : String)
    (input : Object) (before during : List (Elsewhere γ)) (hs : Consistent env.definitions s) :
    Accountable env procedureId input before s
        (serviceRunProcedure env procedureId input before during s) ∧
      (Evidenced (serviceRunProcedure env procedureId input before during s) ↔
        KeepsEvidence env procedureId input before s) := by
  have henters := enters env procedureId input before hs
  unfold serviceRunProcedure KeepsEvidence
  cases hentry : enter env procedureId input before s with
  | unknown e =>
    dsimp only
    constructor
    · constructor
      case authorized =>
        intro hne
        exact absurd rfl hne
      case unstarted => exact fun _ => rfl
      case finalized =>
        intro runId hid
        cases hid
      case returned =>
        intro result hresult
        cases hresult
      case consistent => exact hs
    · constructor
      · intro _ a output ha
        cases ha
      · intro _ result hresult
        cases hresult
  | lost runId t e =>
    rw [hentry] at henters
    cases henters
  | refused r =>
    rw [hentry] at henters
    cases henters with
    | refused hentered =>
      have ⟨t, run, hpersist, hfinishes⟩ := finishes_receiptOf env input
        r.executedAgainst r.detail
        { wallClockS := elapsedS (executionEnv env r.procedure.definition.body input) 0 }
        (.refused r.reason) hentered.row
      dsimp only
      rw [finishUnsuccessful_eq hpersist]
      constructor
      · refine accountable_of_finishes hentered hfinishes (Adds.refl _ t) rfl rfl ?_ ?_
        · intro hne
          exact absurd rfl hne
        · intro result hresult
          cases hresult
      · constructor
        · intro _ a output ha
          cases ha
        · intro _ result hresult
          cases hresult
  | admitted a =>
    rw [hentry] at henters
    cases henters with
    | admitted hentered hauthorized =>
      have hlater := hentered.others during
      dsimp only
      generalize others env a.runId during a.store = w at hlater ⊢
      cases hexecuted : executed env input a with
      | mk outcome c =>
        cases outcome with
        | error e =>
          have ⟨t, run, hpersist, hfinishes⟩ := finishes_receiptOf env input
            (some a.preflight.configDigest, some a.preflight.lockDigest) a.detail
            { wallClockS := elapsedS
                (executionEnv env a.procedure.definition.body input) (c.readings + 1)
              providerCalls := c.providerCalls }
            (failureVerdict (executionEnv env a.procedure.definition.body input) e c)
            hlater.row
          dsimp only
          rw [finishUnsuccessful_eq hpersist]
          constructor
          · refine accountable_of_finishes hlater hfinishes (Adds.refl _ t) rfl
              (failureVerdict_agrees _ e c) ?_ ?_
            · intro _
              exact ⟨a, hentry, hauthorized, rfl, rfl⟩
            · intro result hresult
              cases hresult
          · constructor
            · intro _ b output hb houtput
              cases hb
              rw [hexecuted] at houtput
              cases houtput
            · intro _ result hresult
              cases hresult
        | ok output =>
          have ⟨t, run, hpersist, hfinishes⟩ := finishes_receiptOf env input
            (some a.preflight.configDigest, some a.preflight.lockDigest) a.detail
            { wallClockS := elapsedS
                (executionEnv env a.procedure.definition.body input) c.readings
              providerCalls := c.providerCalls }
            .succeeded hlater.row
          dsimp only
          generalize hreceipt : receiptOf env w a.procedure a.runId input _ a.detail _ .succeeded =
            receipt at hpersist hfinishes ⊢
          cases hkept : persistProcedureEvidenceOutputs env a.procedure.definition.body
            receipt.runId receipt.receiptId output c.stepOutputs t with
          | mk refs u =>
            have hid : receipt.runId = a.runId := hreceipt ▸ rfl
            have hdetail : receipt.precondition = a.detail := hreceipt ▸ rfl
            have hverdict : receipt.verdict = .succeeded := hreceipt ▸ rfl
            have hadds := persistProcedureEvidenceOutputs_adds env
              a.procedure.definition.body receipt.runId receipt.receiptId output
              c.stepOutputs t
            rw [hkept] at hadds
            dsimp only at hadds
            have hrow := hfinishes.row
            rw [finishSuccessful_eq hpersist hrow hkept]
            rw [← hid] at hlater
            constructor
            · refine accountable_of_finishes hlater hfinishes hadds rfl hverdict ?_ ?_
              · intro _
                exact ⟨a, hentry, hauthorized, hid.symm, hdetail⟩
              · intro result hresult
                cases hresult
                exact ⟨hadds.runs ▸ hrow, rfl⟩
            · have hu : Consistent env.definitions u := by
                apply hadds.consistent hrow _ (hfinishes.consistent hlater.consistent)
                intro hstate
                cases hstate
              have hevidence := evidence_iff hkept
                (hfinishes.links_nil (hlater.consistent.accounted receipt.runId)) hu
              constructor
              · intro hevidenced b out hb hout
                cases hb
                rw [hexecuted] at hout ⊢
                cases hout
                have hlinks := hevidenced _ rfl
                rw [hfinishes.runId] at hlinks
                exact hevidence.mp hlinks
              · intro hkeeps result hresult
                cases hresult
                have hkeepable := hkeeps a output rfl (by rw [hexecuted])
                rw [hexecuted] at hkeepable
                dsimp only
                rw [hfinishes.runId]
                exact hevidence.mpr hkeepable

theorem consistent_reached (own : String) (actions : List (Elsewhere γ)) :
    Consistent env.definitions (others env own actions {}) :=
  consistent_others consistent_empty actions

/-- An id that is longer than all the given ones together. -/
def longerId (ids : List String) : String :=
  String.ofList (List.replicate ((ids.map String.length).sum + 1) 'R')

theorem length_le_sum {ids : List String} (h : id ∈ ids) :
    id.length ≤ (ids.map String.length).sum := by
  induction ids with
  | nil => cases h
  | cons first rest ih =>
    rw [List.map_cons, List.sum_cons]
    rcases List.mem_cons.mp h with h | h
    · rw [h]
      exact Nat.le_add_right _ _
    · exact (ih h).trans (Nat.le_add_left _ _)

theorem longerId_fresh (ids : List String) : longerId ids ∉ ids := by
  intro hmem
  have hle := length_le_sum hmem
  have hlength : (longerId ids).length = (ids.map String.length).sum + 1 := by
    simp [longerId]
  omega

def shapedReadings : WorkflowRuns.ShapeItemsSpec where
  items := .str "$steps.readings.items"
  includeInput := true
  casts := [("value", "json")]

/-- A provider, and the shaping of its items, whose text is read as JSON: a list of `nan`. -/
def samplingEnv : InvocationEnv Unit Unit Unit where
  definitions := { digest := fun _ => "digest", readBack := some }
  loadConfig := .ok ()
  loadLock := .ok ()
  configDigest := fun _ => "config"
  lockDigest := fun _ => "lock"
  validateDefinition := fun _ _ => .ok .readOnly
  currentMode := .graphWrite
  compile := fun _ _ _ _ => .ok
    [.step { stepId := "readings", body := .provider "readings" (.object []) },
      .step { stepId := "shaped", body := .shapeItems shapedReadings }]
  identityProperties := fun _ _ => .ok ∅
  execution := {
    answers := {
      input := []
      runQuery := fun _ _ _ _ => .error (.value "no query")
      callProvider := fun _ _ _ => .error (.value "no provider")
      payload := fun _ _ _ => .error (.value "no artifact")
      cast := fun _ _ v kind => .ok
        (if kind = "json" ∧ v = .str "[NaN]" then .array [.float .nan] else v)
      compare := fun _ _ _ => .ok true }
    wallClockS := 60
    maxProviderCalls := 10
    startedMonotonic := 0
    clock := fun _ => 0
    validateInput := fun _ _ => .ok []
    verifyProvider := fun _ _ => .ok ()
    invoke := fun _ _ _ _ => .ok
      (.object [("items", .array [.object [("value", .str "[NaN]")]])])
    validateOutput := fun _ output => .ok output
    runtimeReference := fun _ => none
    validateResult := .ok }
  canonicalText := fun _ => "text"
  sha256 := fun text => text
  head := fun text => text
  mint := longerId
  mint_fresh := longerId_fresh

def samplingBody : ProcedureBody Unit where
  steps := ()
  returns := "readings"
  precondition := {}
  budget := { wallClockS := 60, maxProviderCalls := 10 }
  evidenceOutputs := some ["readings", "shaped"]
  distinctAliases := by
    intro aliases h
    cases h
    decide

def samplingCaller (id : String) : Caller (ProcedureBody Unit) where
  actorContext := some (actor id)
  currentMode := .graphWrite
  now := 0
  compile := fun _ => .ok { configDigest := "config", lockDigest := "lock" }

/-- The procedure is proposed by one actor and accepted by another. -/
def samplingAccepted : List (Elsewhere Unit) :=
  [.lifecycle (.propose {
      definition := { name := "sample", body := samplingBody }
      mintedProcedureId := "PRC-1"
      caller := samplingCaller "author" }),
    .lifecycle (.resolve {
      action := .accept
      procedureId := "PRC-1"
      expectedVersion := some 1
      caller := samplingCaller "reviewer" })]

def samplingStore : ConsistentStore samplingEnv.definitions where
  store := others samplingEnv "" samplingAccepted {}
  consistent := consistent_reached "" samplingAccepted

/-- How many references an invocation returned, and how many links it left. -/
def referencesAndLinks (f : Finished γ) : Option (Nat × Nat) :=
  match f.ending with
  | .returned result => some (result.evidenceRefs.length,
      (f.store.linksOf result.run.runId).length)
  | .raised _ => none

theorem referencesAndLinks_of_evidenced (h : Evidenced f) {refs links : Nat}
    (hf : referencesAndLinks f = some (refs, links)) : refs = links := by
  unfold referencesAndLinks at hf
  cases hending : f.ending with
  | raised e =>
    rw [hending] at hf
    cases hf
  | returned result =>
    rw [hending] at hf
    cases hf
    have hlength := congrArg List.length (h result hending)
    rw [List.length_map] at hlength
    exact hlength

end Cruxible.ProcedureInvocations
