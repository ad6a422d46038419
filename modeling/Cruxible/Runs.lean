import Mathlib.Tactic.Common

/-!
# Runs of fallible requests

A request either succeeds and replaces the state or is refused and leaves it.
A run is a list of requests made one after another. `Throughout` says that a
condition holds of every successful request of a run in the state in which it
was made; under such a condition, what each success preserves, the run
preserves, and what each success relates, the run relates.
-/
namespace Cruxible.Runs

variable {σ ι ε : Type} {step : σ → ι → Except ε σ} {C : σ → ι → Prop}

/-- A refused request leaves the state as it was. -/
def advance (step : σ → ι → Except ε σ) (s : σ) (i : ι) : σ :=
  match step s i with
  | .ok t => t
  | .error _ => s

/-- The state after a run. -/
def after (step : σ → ι → Except ε σ) (s : σ) (requests : List ι) : σ :=
  requests.foldl (advance step) s

def Throughout (step : σ → ι → Except ε σ) (C : σ → ι → Prop) : σ → List ι → Prop
  | _, [] => True
  | s, i :: is => (∀ t, step s i = .ok t → C s i) ∧ Throughout step C (advance step s i) is

variable {requests : List ι} {s : σ}

theorem Throughout.mono {C' : σ → ι → Prop} (h : Throughout step C s requests)
    (hC : ∀ s i t, C s i → step s i = .ok t → C' s i) : Throughout step C' s requests := by
  induction requests generalizing s with
  | nil => trivial
  | cons i is ih =>
    have ⟨hhead, hrest⟩ := h
    exact ⟨fun t ht => hC s i t (hhead t ht) ht, ih hrest⟩

theorem throughout_true : Throughout step (fun _ _ => True) s requests := by
  induction requests generalizing s with
  | nil => trivial
  | cons i is ih => exact ⟨fun _ _ => trivial, ih⟩

/-- Relations between the state before and after a success compose to one
between the ends of the run. -/
theorem after_related {R : σ → σ → Prop} (hrefl : ∀ s, R s s)
    (htrans : ∀ {a b c}, R a b → R b c → R a c)
    (hstep : ∀ {s i t}, C s i → step s i = .ok t → R s t) (h : Throughout step C s requests) :
    R s (after step s requests) := by
  induction requests generalizing s with
  | nil => exact hrefl s
  | cons i is ih =>
    obtain ⟨hC, hrest⟩ := h
    have htail := ih hrest
    cases hs : step s i with
    | error e =>
      have ha : advance step s i = s := by simp [advance, hs]
      rw [ha] at htail
      simpa [after, ha] using htail
    | ok t =>
      have ha : advance step s i = t := by simp [advance, hs]
      rw [ha] at htail
      have hone : R s t := hstep (hC t hs) hs
      simpa [after, ha] using htrans hone htail

/-- An invariant of every success holds after the run. -/
theorem after_invariant {I : σ → Prop} (hstep : ∀ {s i t}, I s → C s i → step s i = .ok t → I t)
    (hs : I s) (h : Throughout step C s requests) : I (after step s requests) :=
  after_related (R := fun a b => I a → I b) (fun _ => id) (fun hab hbc => hbc ∘ hab)
    (fun hC hok hI => hstep hI hC hok) h hs

end Cruxible.Runs
