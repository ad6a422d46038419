import Cruxible.ParentChains
import Mathlib.Data.List.Sort

/-!
# Restoring procedures, parents first

`_dependency_order_procedures` of `runtime/instance.py`. A pass inserts every record
whose superseded parent has been inserted; a pass that finds none raises, and names
the earliest of the records that are left.
-/
namespace Cruxible.ProcedureRestores
open ParentChains

variable {γ : Type}

/-- `definition` stands for the columns that the order does not read. -/
structure ProcedureRecord (γ : Type) where
  procedureId : String
  supersedesProcedureId : Option String
  proposedAt : Nat
  definition : γ

inductive Problem where
  | missing
  | cyclic
  deriving DecidableEq

inductive OrderError where
  | duplicateIds
  | dependency (procedureId : String) (problem : Problem) (supersedes : String)
  deriving DecidableEq

def Problem.text : Problem → String
  | .missing => "missing"
  | .cyclic => "cyclic"

def OrderError.message (context : String) : OrderError → String
  | .duplicateIds => context ++ " contains duplicate procedure ids"
  | .dependency id problem supersedes => context ++ " procedure '" ++ id ++ "' has a " ++
      problem.text ++ " supersedes dependency '" ++ supersedes ++ "'"

/-- The order of the keys `(proposed_at, procedure_id)`. -/
def keyLe (p q : ProcedureRecord γ) : Bool :=
  decide (p.proposedAt < q.proposedAt) ||
    (decide (p.proposedAt = q.proposedAt) && decide (p.procedureId ≤ q.procedureId))

/-- `min(remaining.values(), key=...)`: the first of the least ones. -/
def earliest (best : ProcedureRecord γ) : List (ProcedureRecord γ) → ProcedureRecord γ
  | [] => best
  | p :: ps => earliest (if keyLe best p then best else p) ps

def restoredIds (ordered : List (ProcedureRecord γ)) : List String :=
  ordered.map ProcedureRecord.procedureId

def isReady (ordered : List (ProcedureRecord γ)) (p : ProcedureRecord γ) : Bool :=
  p.supersedesProcedureId.all fun s => (restoredIds ordered).contains s

/-- The error of a pass that finds nothing to insert. -/
def stuckError (knownIds : List String) (p : ProcedureRecord γ) : OrderError :=
  .dependency p.procedureId
    (if knownIds.contains (p.supersedesProcedureId.getD "") then .cyclic else .missing)
    (p.supersedesProcedureId.getD "")

/-- The passes over the records that remain. -/
def orderPasses (knownIds : List String) (remaining ordered : List (ProcedureRecord γ)) :
    Except OrderError (List (ProcedureRecord γ)) :=
  match remaining with
  | [] => .ok ordered
  | first :: rest =>
    let ready := (first :: rest).filter (isReady ordered)
    if ready.length = 0 then .error (stuckError knownIds (earliest first rest))
    else
      orderPasses knownIds ((first :: rest).filter fun p => !isReady ordered p)
        (ordered ++ ready.mergeSort keyLe)
termination_by remaining.length
decreasing_by
  have hsplit := List.length_eq_length_filter_add (l := first :: rest) (isReady ordered)
  rename_i hready
  simp only [ready] at hready
  omega

/-- `_dependency_order_procedures`. -/
def dependencyOrderProcedures (procedures : List (ProcedureRecord γ)) :
    Except OrderError (List (ProcedureRecord γ)) :=
  if (procedures.map ProcedureRecord.procedureId).Nodup then
    orderPasses (procedures.map ProcedureRecord.procedureId) procedures []
  else .error .duplicateIds

theorem keyLe_total (p q : ProcedureRecord γ) : keyLe p q = true ∨ keyLe q p = true := by
  simp only [keyLe, Bool.or_eq_true, Bool.and_eq_true, decide_eq_true_eq]
  rcases Nat.lt_trichotomy p.proposedAt q.proposedAt with h | h | h
  · exact .inl (.inl h)
  · cases String.le_total p.procedureId q.procedureId with
    | inl hid => exact .inl (.inr ⟨h, hid⟩)
    | inr hid => exact .inr (.inr ⟨h.symm, hid⟩)
  · exact .inr (.inl h)

variable {p : ProcedureRecord γ} {q : ProcedureRecord γ}

theorem keyLe_trans {r : ProcedureRecord γ} (hpq : keyLe p q = true) (hqr : keyLe q r = true) :
    keyLe p r = true := by
  simp only [keyLe, Bool.or_eq_true, Bool.and_eq_true, decide_eq_true_eq] at hpq hqr ⊢
  rcases hpq with h | ⟨h, hid⟩
  · left
    omega
  · rcases hqr with h' | ⟨h', hid'⟩
    · left
      omega
    · right
      exact ⟨by omega, String.le_trans hid hid'⟩

theorem keyLe_antisymm (hpq : keyLe p q = true) (hqp : keyLe q p = true) :
    p.procedureId = q.procedureId := by
  simp only [keyLe, Bool.or_eq_true, Bool.and_eq_true, decide_eq_true_eq] at hpq hqp
  have hpq' : p.procedureId ≤ q.procedureId := by
    cases hpq with
    | inl h => omega
    | inr h => exact h.2
  have hqp' : q.procedureId ≤ p.procedureId := by
    cases hqp with
    | inl h => omega
    | inr h => exact h.2
  exact String.le_antisymm hpq' hqp'

theorem earliest_mem (best : ProcedureRecord γ) (ps : List (ProcedureRecord γ)) :
    earliest best ps ∈ best :: ps := by
  induction ps generalizing best with
  | nil => simp [earliest]
  | cons p ps ih =>
    have h := ih (if keyLe best p then best else p)
    rw [earliest]
    rcases List.mem_cons.mp h with h | h
    · rw [h]
      split_ifs <;> simp
    · exact List.mem_cons_of_mem _ (List.mem_cons_of_mem _ h)

theorem earliest_le (best : ProcedureRecord γ) (ps : List (ProcedureRecord γ)) :
    ∀ q ∈ best :: ps, keyLe (earliest best ps) q = true := by
  induction ps generalizing best with
  | nil =>
    intro q hq
    rw [List.mem_singleton.mp hq, earliest]
    exact (keyLe_total best best).elim id id
  | cons p ps ih =>
    intro q hq
    have h := ih (if keyLe best p then best else p)
    rw [earliest]
    have hbest := h _ List.mem_cons_self
    rcases List.mem_cons.mp hq with hq | hq
    · rw [hq]
      split_ifs at hbest ⊢ with hle
      · exact hbest
      · have hflip := (keyLe_total best p).resolve_left hle
        exact keyLe_trans hbest hflip
    · rcases List.mem_cons.mp hq with hq | hq
      · rw [hq]
        split_ifs at hbest ⊢ with hle
        · exact keyLe_trans hbest hle
        · exact hbest
      · exact h q (List.mem_cons_of_mem _ hq)

section
variable (procedures : List (ProcedureRecord γ))

abbrev RootedIn : String → Prop :=
  Grounded ProcedureRecord.procedureId ProcedureRecord.supersedesProcedureId procedures

abbrev StrandedIn : String → Prop :=
  Stranded ProcedureRecord.procedureId ProcedureRecord.supersedesProcedureId procedures

abbrev CompleteIn : Prop :=
  Complete ProcedureRecord.procedureId ProcedureRecord.supersedesProcedureId procedures

abbrev CyclicIn : Prop :=
  HasCycle ProcedureRecord.procedureId ProcedureRecord.supersedesProcedureId procedures

/-- What the passes keep of the records that were inserted and those that remain. -/
structure Progress (remaining ordered : List (ProcedureRecord γ)) : Prop where
  perm : (ordered ++ remaining).Perm procedures
  parentsFirst :
    ParentsFirst ProcedureRecord.procedureId ProcedureRecord.supersedesProcedureId ordered
  grounded : ∀ p ∈ ordered, RootedIn procedures p.procedureId

end

variable {procedures remaining ordered : List (ProcedureRecord γ)}

theorem isReady_iff :
    isReady ordered p = true ↔
      ∀ s, p.supersedesProcedureId = some s → s ∈ restoredIds ordered := by
  unfold isReady
  cases p.supersedesProcedureId with
  | none => simp
  | some s => simp

theorem Progress.pass (h : Progress procedures remaining ordered) :
    Progress procedures (remaining.filter fun p => !isReady ordered p)
      (ordered ++ (remaining.filter (isReady ordered)).mergeSort keyLe) := by
  have hlayer : ∀ p ∈ (remaining.filter (isReady ordered)).mergeSort keyLe,
      p ∈ remaining ∧ isReady ordered p = true := by
    intro p hp
    exact List.mem_filter.mp (List.mem_mergeSort.mp hp)
  constructor
  · have hsort := List.mergeSort_perm (remaining.filter (isReady ordered)) keyLe
    have hsplit := List.filter_append_perm (isReady ordered) remaining
    rw [List.append_assoc]
    exact ((hsort.append_right _).trans hsplit |>.append_left ordered).trans h.perm
  · refine parentsFirst_append h.parentsFirst fun p hp s hs => ?_
    exact isReady_iff.mp (hlayer p hp).2 s hs
  · intro p hp
    rcases List.mem_append.mp hp with hp | hp
    · exact h.grounded p hp
    · have ⟨hrem, hready⟩ := hlayer p hp
      have hmem : p ∈ procedures := h.perm.mem_iff.mp (List.mem_append_right _ hrem)
      cases hs : p.supersedesProcedureId with
      | none => exact .root hmem hs
      | some s =>
        have hs' := isReady_iff.mp hready s hs
        have ⟨q, hq, hid⟩ := List.mem_map.mp hs'
        exact .child hmem hs (hid ▸ h.grounded q hq)

theorem Progress.stuck (h : Progress procedures remaining ordered)
    (hstuck : ∀ p ∈ remaining, isReady ordered p = false) {id : String}
    (hg : RootedIn procedures id) : id ∈ restoredIds ordered := by
  have hplace : ∀ p ∈ procedures, p.procedureId ∉ restoredIds ordered → p ∈ remaining := by
    intro p hp hnot
    rcases List.mem_append.mp (h.perm.mem_iff.mpr hp) with hp | hp
    · exact absurd (List.mem_map_of_mem hp) hnot
    · exact hp
  induction hg with
  | @root p hp hs =>
    by_contra hnot
    have hready : isReady ordered p = true := by simp [isReady, hs]
    rw [hstuck p (hplace p hp hnot)] at hready
    cases hready
  | @child p s hp hs _ ih =>
    by_contra hnot
    have hready : isReady ordered p = true := by
      rw [isReady_iff]
      intro s' hs'
      rw [hs] at hs'
      cases hs'
      exact ih
    rw [hstuck p (hplace p hp hnot)] at hready
    cases hready

/-- The record that an error names: the earliest one that is not grounded. -/
structure Blamed (procedures : List (ProcedureRecord γ)) (p : ProcedureRecord γ) : Prop where
  mem : p ∈ procedures
  ungrounded : ¬RootedIn procedures p.procedureId
  earliest : ∀ q ∈ procedures, ¬RootedIn procedures q.procedureId → keyLe p q = true

theorem orderPasses_spec (hids : (procedures.map ProcedureRecord.procedureId).Nodup)
    (knownIds : List String) (h : Progress procedures remaining ordered) :
    (∃ result, orderPasses knownIds remaining ordered = .ok result ∧
        Progress procedures [] result) ∨
      ∃ p, orderPasses knownIds remaining ordered = .error (stuckError knownIds p) ∧
        Blamed procedures p := by
  fun_induction orderPasses knownIds remaining ordered with
  | case1 ordered => exact .inl ⟨ordered, rfl, h⟩
  | case2 ordered first rest ready hready =>
    refine .inr ⟨_, rfl, ?_⟩
    have hnone : ∀ p ∈ first :: rest, isReady ordered p = false := by
      have hnil : (first :: rest).filter (isReady ordered) = [] :=
        List.length_eq_zero_iff.mp hready
      intro p hp
      simpa using List.filter_eq_nil_iff.mp hnil p hp
    have hperm : (restoredIds ordered ++ (first :: rest).map ProcedureRecord.procedureId).Nodup := by
      rw [restoredIds, ← List.map_append]
      exact (h.perm.map _).nodup_iff.mpr hids
    have hleft : ∀ p ∈ first :: rest, ¬RootedIn procedures p.procedureId := by
      intro p hp hg
      have hin := h.stuck hnone hg
      exact (List.nodup_append.mp hperm).2.2 _ hin _ (List.mem_map_of_mem hp) rfl
    have hmem := earliest_mem first rest
    constructor
    · exact h.perm.mem_iff.mp (List.mem_append_right _ hmem)
    · exact hleft _ hmem
    · intro q hq hg
      rcases List.mem_append.mp (h.perm.mem_iff.mpr hq) with hq | hq
      · exact absurd (h.grounded q hq) hg
      · exact earliest_le first rest q hq
  | case3 ordered first rest ready hready ih => exact ih h.pass

/-- What the order promises: the records with every parent first if no parent is
missing and there is no cycle, and else an error that names what is wrong. -/
def OrdersOrExplains (procedures : List (ProcedureRecord γ)) : Prop :=
  match dependencyOrderProcedures procedures with
  | .ok ordered =>
    ordered.Perm procedures ∧
      ParentsFirst ProcedureRecord.procedureId ProcedureRecord.supersedesProcedureId ordered ∧
      CompleteIn procedures ∧ ¬CyclicIn procedures
  | .error .duplicateIds => False
  | .error (.dependency _ .missing _) => ¬CompleteIn procedures
  | .error (.dependency _ .cyclic _) => CyclicIn procedures

/-- The earliest record with a missing ancestor misses its own parent. -/
def BlameIsRight (procedures : List (ProcedureRecord γ)) : Prop :=
  ∀ p ∈ procedures, StrandedIn procedures p.procedureId →
    (∀ q ∈ procedures, StrandedIn procedures q.procedureId → keyLe p q = true) →
      ∀ s, p.supersedesProcedureId = some s → s ∉ procedures.map ProcedureRecord.procedureId

theorem exists_parent_of_blamed (h : Blamed procedures p) :
    ∃ s, p.supersedesProcedureId = some s := by
  cases hs : p.supersedesProcedureId with
  | none => exact absurd (.root h.mem hs) h.ungrounded
  | some s => exact ⟨s, rfl⟩

/-- For records with distinct ids, the order is right exactly if there is a cycle, or
the record that a missing ancestor makes it blame misses its own parent. -/
theorem restore_order_iff (procedures : List (ProcedureRecord γ))
    (hids : (procedures.map ProcedureRecord.procedureId).Nodup) :
    OrdersOrExplains procedures ↔ CyclicIn procedures ∨ BlameIsRight procedures := by
  have hstart : Progress procedures procedures [] :=
    ⟨List.Perm.refl _, parentsFirst_nil, by simp⟩
  unfold OrdersOrExplains dependencyOrderProcedures
  rw [if_pos hids]
  rcases orderPasses_spec hids (procedures.map ProcedureRecord.procedureId) hstart with
    ⟨result, hresult, hdone⟩ | ⟨p, hresult, hblamed⟩
  · have hperm : result.Perm procedures := by simpa using hdone.perm
    have hall : ∀ p ∈ procedures, RootedIn procedures p.procedureId :=
      fun p hp => hdone.grounded p (hperm.mem_iff.mpr hp)
    rw [hresult]
    constructor
    · intro _
      right
      intro p hp hstranded
      exact absurd (hall p hp) (not_grounded_of_stranded hids hstranded)
    · intro _
      exact ⟨hperm, hdone.parentsFirst, complete_of_grounded hids hall,
        not_hasCycle_of_grounded hids hall⟩
  · have ⟨s, hs⟩ := exists_parent_of_blamed hblamed
    rw [hresult, stuckError, hs, Option.getD_some]
    by_cases hknown : s ∈ procedures.map ProcedureRecord.procedureId
    · have hcontains : (procedures.map ProcedureRecord.procedureId).contains s = true := by
        simpa using hknown
      rw [if_pos hcontains]
      constructor
      · exact .inl
      · rintro (hcyclic | hblame)
        · exact hcyclic
        · by_contra hacyclic
          have hstranded : ∀ q ∈ procedures, ¬RootedIn procedures q.procedureId →
              StrandedIn procedures q.procedureId :=
            fun q hq hg => stranded_of_not_grounded hacyclic hq hg
          refine hblame p hblamed.mem (hstranded p hblamed.mem hblamed.ungrounded) ?_ s hs hknown
          intro q hq hq'
          exact hblamed.earliest q hq (not_grounded_of_stranded hids hq')
    · have hcontains : ¬(procedures.map ProcedureRecord.procedureId).contains s = true := by
        simpa using hknown
      rw [if_neg hcontains]
      constructor
      · intro _
        by_cases hcyclic : CyclicIn procedures
        · exact .inl hcyclic
        · right
          intro q hq hstranded hearliest s' hs'
          have hp := stranded_of_not_grounded hcyclic hblamed.mem hblamed.ungrounded
          have hqp := hearliest p hblamed.mem hp
          have hpq := hblamed.earliest q hq (not_grounded_of_stranded hids hstranded)
          have hsame : q = p := List.inj_on_of_nodup_map hids hq hblamed.mem
            (keyLe_antisymm hqp hpq)
          rw [hsame, hs] at hs'
          cases hs'
          exact hknown
      · intro _ hcomplete
        exact hknown (hcomplete p hblamed.mem s hs)

/-- A procedure, its replacement and a third one that replaces the replacement. -/
def revisions : List (ProcedureRecord Unit) :=
  [⟨"PRC-3", some "PRC-2", 3, ()⟩, ⟨"PRC-2", some "PRC-1", 2, ()⟩, ⟨"PRC-1", none, 1, ()⟩]

theorem revisions_are_ordered : OrdersOrExplains revisions := by
  refine (restore_order_iff revisions (by decide)).mpr (.inr ?_)
  have hrooted : ∀ p ∈ revisions, RootedIn revisions p.procedureId := by
    have h1 : RootedIn revisions "PRC-1" :=
      Grounded.root (List.mem_cons_of_mem _ (List.mem_cons_of_mem _ List.mem_cons_self)) rfl
    have h2 : RootedIn revisions "PRC-2" :=
      Grounded.child (List.mem_cons_of_mem _ List.mem_cons_self) rfl h1
    have h3 : RootedIn revisions "PRC-3" := Grounded.child List.mem_cons_self rfl h2
    simp only [revisions, List.forall_mem_cons, List.not_mem_nil, false_implies, implies_true,
      and_true]
    exact ⟨h3, h2, h1⟩
  intro p hp hstranded
  exact absurd (hrooted p hp) (not_grounded_of_stranded (by decide) hstranded)

/-- The same records without the first one; the later replacement was proposed
before the earlier one. -/
def orphanedRevisions : List (ProcedureRecord Unit) :=
  [⟨"PRC-3", some "PRC-2", 2, ()⟩, ⟨"PRC-2", some "PRC-1", 3, ()⟩]

/-- The parent of PRC-2 is missing, but the error reports a cycle at PRC-3, and there
is none. -/
theorem orphan_is_called_cyclic :
    dependencyOrderProcedures orphanedRevisions =
        .error (.dependency "PRC-3" .cyclic "PRC-2") ∧
      ¬CyclicIn orphanedRevisions ∧ ¬OrdersOrExplains orphanedRevisions := by
  have hresult : dependencyOrderProcedures orphanedRevisions =
      .error (.dependency "PRC-3" .cyclic "PRC-2") := by
    unfold dependencyOrderProcedures
    rw [if_pos (by decide), orphanedRevisions, orderPasses]
    rfl
  have hacyclic : ¬CyclicIn orphanedRevisions := by
    have h2 : StrandedIn orphanedRevisions "PRC-2" :=
      Stranded.missing (List.mem_cons_of_mem _ List.mem_cons_self) rfl (by decide)
    have h3 : StrandedIn orphanedRevisions "PRC-3" := Stranded.child List.mem_cons_self rfl h2
    apply not_hasCycle_of_acc
    simp only [orphanedRevisions, List.forall_mem_cons, List.not_mem_nil, false_implies,
      implies_true, and_true]
    exact ⟨acc_of_stranded (by decide) h3, acc_of_stranded (by decide) h2⟩
  refine ⟨hresult, hacyclic, ?_⟩
  unfold OrdersOrExplains
  rw [hresult]
  exact hacyclic

end Cruxible.ProcedureRestores
