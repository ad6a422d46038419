import Mathlib.Data.List.Basic
import Mathlib.Tactic.Common

/-!
# Two callers that load and later commit

Each caller takes a copy of a shared store and later commits against the store
as it is then, with the copy as its only knowledge of the past. A schedule
interleaves the two programs. When neither caller's commit falls between the
other's load and commit, the schedule is one of the two serial orders.
-/
namespace Cruxible.Interleavings

variable {σ ε : Type}

inductive Step where
  | load (p : Bool)
  | commit (p : Bool)
  deriving DecidableEq, Repr

def Step.caller : Step → Bool
  | .load p => p
  | .commit p => p

/-- The store and the copy that each caller holds. -/
structure World (σ : Type) where
  store : σ
  copy : Bool → Option σ := fun _ => none

/-- `write p held current` is the store that a commit of `p` leaves. -/
def step (write : Bool → σ → σ → Except ε σ) (unloaded : ε) (w : World σ) :
    Step → Except ε (World σ)
  | .load p => .ok { w with copy := fun q => if q = p then some w.store else w.copy q }
  | .commit p =>
      match w.copy p with
      | none => .error unloaded
      | some held => do
          let next ← write p held w.store
          return { w with store := next }

/-- The world after a schedule all of whose commits are accepted. -/
def run (write : Bool → σ → σ → Except ε σ) (unloaded : ε) (w : World σ) (s : List Step) :
    Except ε (World σ) :=
  s.foldlM (step write unloaded) w

/-- Each caller loads once and then commits once. -/
def Interleaves (s : List Step) : Prop :=
  ∀ p, s.filter (fun x => x.caller = p) = [.load p, .commit p]

instance (s : List Step) : Decidable (Interleaves s) :=
  inferInstanceAs (Decidable (∀ p, s.filter (fun x => x.caller = p) = [.load p, .commit p]))

/-- No commit of the other caller falls between a load and its commit. -/
def Undisturbed (s : List Step) : Prop :=
  ∀ p, ¬([.load p, .commit (!p), .commit p] : List Step).Sublist s

instance (s : List Step) : Decidable (Undisturbed s) :=
  inferInstanceAs (Decidable (∀ p, ¬([.load p, .commit (!p), .commit p] : List Step).Sublist s))

/-- One caller after the other. -/
def serial (p : Bool) : List Step := [.load p, .commit p, .load (!p), .commit (!p)]

variable {s : List Step}

theorem length_of_interleaves (h : Interleaves s) : s.length = 4 := by
  have hsplit := List.length_eq_length_filter_add (l := s) (fun x => x.caller = true)
  have hrest : s.filter (fun x => !decide (x.caller = true)) = [.load false, .commit false] := by
    rw [← h false]
    apply List.filter_congr
    intro x _
    cases x.caller <;> rfl
  rw [hsplit, h true, hrest]
  rfl

theorem serial_of_undisturbed (h : Interleaves s) (hu : Undisturbed s) :
    s = serial false ∨ s = serial true := by
  obtain ⟨a, b, c, d, rfl⟩ := List.length_eq_four.mp (length_of_interleaves h)
  revert hu h
  cases a with
  | load p | commit p =>
    cases b with
    | load q | commit q =>
      cases c with
      | load r | commit r =>
        cases d with
        | load t | commit t =>
          revert p q r t
          decide

/-- In a serial order each commit is made on the store that it read. -/
theorem run_serial {write : Bool → σ → σ → Except ε σ} {unloaded : ε} {x : σ} {p : Bool}
    {t : World σ} (h : run write unloaded { store := x } (serial p) = .ok t) :
    ∃ mid, write p x x = .ok mid ∧ write (!p) mid mid = .ok t.store ∧ t.copy p = some x ∧
      t.copy (!p) = some mid := by
  cases hfirst : write p x x with
  | error e => simp [run, serial, step, hfirst, bind, Except.bind] at h
  | ok mid =>
    cases hsecond : write (!p) mid mid with
    | error e => simp [run, serial, step, hfirst, hsecond, bind, Except.bind, pure, Except.pure] at h
    | ok last =>
      have hlast : t = { store := last, copy := fun q =>
          if q = !p then some mid else if q = p then some x else none } := by
        simp only [run, serial, List.foldlM_cons, List.foldlM_nil, step, hfirst, hsecond, bind,
          Except.bind, pure, Except.pure, Except.ok.injEq, if_true] at h
        exact h.symm
      refine ⟨mid, rfl, ?_, ?_, ?_⟩
      · rw [hlast]
        exact hsecond
      · simp [hlast]
      · simp [hlast]

end Cruxible.Interleavings
