import Mathlib.Data.List.Basic
import Mathlib.Tactic.Common

/-!
# Histories of committed states

A store that counts its commits: the revision is the number of commits so far,
and the state at a revision is the one that the commit with that number left.
Later commits never change what an earlier revision names.
-/
namespace Cruxible.CommittedHistory

variable {σ α : Type}

structure History (σ : Type) where
  initial : σ
  later : List σ := []

namespace History

def states (h : History σ) : List σ := h.initial :: h.later

/-- The number of commits. -/
def revision (h : History σ) : Nat := h.later.length

def atRevision (h : History σ) (r : Nat) : Option σ := h.states[r]?

def current (h : History σ) : σ := h.later.getLast?.getD h.initial

def commit (h : History σ) (s : σ) : History σ := { h with later := h.later ++ [s] }

/-- Commits in order. -/
def commits (h : History σ) (ss : List σ) : History σ := { h with later := h.later ++ ss }

@[simp] theorem current_commit (h : History σ) (s : σ) : (h.commit s).current = s := by
  simp [commit, current]

@[simp] theorem revision_commits (h : History σ) (ss : List σ) :
    (h.commits ss).revision = h.revision + ss.length := by
  simp [commits, revision]

@[simp] theorem commits_nil (h : History σ) : h.commits [] = h := by
  simp [commits]

/-- The current state is the one at the current revision. -/
theorem atRevision_revision (h : History σ) : h.atRevision h.revision = some h.current := by
  unfold atRevision revision current states
  rcases List.eq_nil_or_concat h.later with hl | ⟨later, s, hl⟩
  · simp [hl]
  · simp [hl]

variable {r : Nat}

/-- A past revision keeps its state. -/
theorem atRevision_commits (h : History σ) (ss : List σ) {x : σ} (hx : h.atRevision r = some x) :
    (h.commits ss).atRevision r = some x := by
  unfold atRevision states commits at *
  rw [← List.cons_append]
  obtain ⟨hr, rfl⟩ := List.getElem?_eq_some_iff.mp hx
  rw [List.getElem?_append_left hr]
  exact List.getElem?_eq_getElem hr

theorem atRevision_commit (h : History σ) (s : σ) {x : σ} (hx : h.atRevision r = some x) :
    (h.commit s).atRevision r = some x :=
  h.atRevision_commits [s] hx

/-- Commits that agree with the current state in one respect leave it in that
respect. -/
theorem current_commits (f : σ → α) (h : History σ) {ss : List σ}
    (hs : ∀ x ∈ ss, f x = f h.current) : f (h.commits ss).current = f h.current := by
  rcases List.eq_nil_or_concat ss with rfl | ⟨ss', x, rfl⟩
  · rw [commits_nil]
  · have hcur : (h.commits (ss'.concat x)).current = x := by
      simp [commits, current, ← List.append_assoc]
    rw [hcur]
    exact hs x (by simp)

/-- A value that was read from the state at a revision. -/
def Observed (h : History σ) (f : σ → α) (r : Nat) (v : α) : Prop :=
  ∃ s, h.atRevision r = some s ∧ f s = v

theorem observed_now (h : History σ) (f : σ → α) : h.Observed f h.revision (f h.current) :=
  ⟨h.current, h.atRevision_revision, rfl⟩

theorem Observed.commit {h : History σ} {f : σ → α} {v : α} (ho : h.Observed f r v) (s : σ) :
    (h.commit s).Observed f r v := by
  obtain ⟨x, hx, hv⟩ := ho
  exact ⟨x, h.atRevision_commit s hx, hv⟩

end History

end Cruxible.CommittedHistory
