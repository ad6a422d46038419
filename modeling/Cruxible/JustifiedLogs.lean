import Mathlib.Data.List.Basic
import Mathlib.Data.List.Count
import Mathlib.Tactic.Common

/-!
# Logs that justify their entries

A log only grows at its end. It is justified by a relation when every entry
stands in that relation to the entries before it.
-/
namespace Cruxible.JustifiedLogs

variable {α : Type} {R S : List α → α → Prop} {log : List α}

/-- Every entry is justified by its past. -/
def Justified (R : List α → α → Prop) (log : List α) : Prop :=
  ∀ past e rest, log = past ++ e :: rest → R past e

theorem justified_nil : Justified R [] := by
  intro past e rest h
  cases past <;> cases h

/-- The entry appended last is justified by the log before it. -/
theorem justified_append {e : α} : Justified R (log ++ [e]) ↔ Justified R log ∧ R log e := by
  constructor
  case mp =>
    intro h
    constructor
    case left =>
      intro past d rest hlog
      apply h past d (rest ++ [e])
      rw [hlog, List.append_assoc, List.cons_append]
    case right => exact h log e [] rfl
  case mpr =>
    intro h past d rest hlog
    rcases List.eq_nil_or_concat rest with hrest | ⟨front, last, hrest⟩
    case inl =>
      rw [hrest] at hlog
      have hsame := List.append_inj' hlog rfl
      have hd : e = d := by simpa using hsame.2
      rw [← hsame.1, ← hd]
      exact h.2
    case inr =>
      rw [List.concat_eq_append] at hrest
      rw [hrest, ← List.cons_append, ← List.append_assoc] at hlog
      have hsame := List.append_inj' hlog rfl
      exact h.1 past d front hsame.1

end Cruxible.JustifiedLogs
