import Mathlib.Data.List.Sort
import Mathlib.Tactic.Common

/-!
# Logs that number the entries of each key

An append-only log whose entries carry a key and a number. The entries of one key
are numbered from one in the order in which they were appended, so that sorting by
the number changes nothing, the last entry has the greatest number, and a key and
a number determine an entry.
-/
namespace Cruxible.NumberedLogs

variable {α κ : Type} [DecidableEq κ] {key : α → κ} {number : α → Nat} {log : List α}

def entriesOf (key : α → κ) (log : List α) (k : κ) : List α := log.filter fun x => key x = k

def Numbered (key : α → κ) (number : α → Nat) (log : List α) : Prop :=
  ∀ k, (entriesOf key log k).map number = List.range' 1 (entriesOf key log k).length

theorem mem_entriesOf {k : κ} {x : α} : x ∈ entriesOf key log k ↔ x ∈ log ∧ key x = k := by
  simp [entriesOf]

theorem entriesOf_append_self (x : α) :
    entriesOf key (log ++ [x]) (key x) = entriesOf key log (key x) ++ [x] := by
  simp [entriesOf]

theorem entriesOf_append_of_ne {x : α} {k : κ} (h : key x ≠ k) :
    entriesOf key (log ++ [x]) k = entriesOf key log k := by
  simp [entriesOf, h]

namespace Numbered

theorem nil (key : α → κ) (number : α → Nat) : Numbered key number [] := fun _ => rfl

variable {x : α} (h : Numbered key number log)

section
include h

/-- An entry goes in with the next number of its key. -/
theorem append (hx : number x = (entriesOf key log (key x)).length + 1) :
    Numbered key number (log ++ [x]) := by
  intro k
  by_cases hk : key x = k
  · subst hk
    rw [entriesOf_append_self, List.map_append, h, List.length_append, List.length_singleton,
      List.range'_concat, List.map_singleton, hx]
    simp [Nat.add_comm]
  · rw [entriesOf_append_of_ne hk]
    exact h k

theorem increasing (k : κ) : (entriesOf key log k).Pairwise fun a b => number a < number b := by
  have hrange : (List.range' 1 (entriesOf key log k).length).Pairwise (· < ·) :=
    List.pairwise_lt_range'
  rw [← h k] at hrange
  exact List.pairwise_map.mp hrange

/-- Reading a log by the number leaves its entries in the order of the log. -/
theorem sort_eq (k : κ) :
    (entriesOf key log k).insertionSort (fun a b => number a ≤ number b) = entriesOf key log k :=
  List.Pairwise.insertionSort_eq ((h.increasing k).imp le_of_lt)

theorem number_getLast? {k : κ} (hx : (entriesOf key log k).getLast? = some x) :
    number x = (entriesOf key log k).length := by
  have hlast : ((entriesOf key log k).map number).getLast? = some (number x) := by
    rw [List.getLast?_map, hx, Option.map_some]
  rw [h k, List.getLast?_range'] at hlast
  split_ifs at hlast with hempty
  have heq := Option.some.inj hlast
  omega

/-- The number after the last one. -/
theorem next_eq (k : κ) :
    ((entriesOf key log k).getLast?).elim 1 (fun x => number x + 1) =
      (entriesOf key log k).length + 1 := by
  cases hlast : (entriesOf key log k).getLast? with
  | none =>
    rw [List.getLast?_eq_none_iff] at hlast
    rw [hlast]
    rfl
  | some x => rw [Option.elim_some, h.number_getLast? hlast]

theorem number_le (hx : x ∈ log) : number x ≤ (entriesOf key log (key x)).length := by
  have hmem : number x ∈ (entriesOf key log (key x)).map number :=
    List.mem_map_of_mem (mem_entriesOf.mpr ⟨hx, rfl⟩)
  rw [h, List.mem_range'_1] at hmem
  omega

theorem eq_of_number {y : α} (hx : x ∈ log) (hy : y ∈ log) (hkey : key x = key y)
    (hnumber : number x = number y) : x = y := by
  have hnodup : ((entriesOf key log (key x)).map number).Nodup := by
    rw [h]
    exact List.nodup_range'
  exact List.inj_on_of_nodup_map hnodup (mem_entriesOf.mpr ⟨hx, rfl⟩)
    (mem_entriesOf.mpr ⟨hy, hkey.symm⟩) hnumber

/-- The last entry of a key is the one that no entry of the key exceeds. -/
theorem getLast?_iff (hx : x ∈ log) :
    (entriesOf key log (key x)).getLast? = some x ↔
      ∀ y ∈ log, key y = key x → number y ≤ number x := by
  constructor
  case mp =>
    intro hlast y hy hkey
    have hle := h.number_le hy
    rw [hkey, ← h.number_getLast? hlast] at hle
    exact hle
  case mpr =>
    intro hmax
    have hmem : x ∈ entriesOf key log (key x) := mem_entriesOf.mpr ⟨hx, rfl⟩
    cases hlast : (entriesOf key log (key x)).getLast? with
    | none =>
      rw [List.getLast?_eq_none_iff] at hlast
      rw [hlast] at hmem
      cases hmem
    | some y =>
      have ⟨hy, hkey⟩ := mem_entriesOf.mp (List.mem_of_getLast? hlast)
      have hge := h.number_le hx
      rw [← h.number_getLast? hlast] at hge
      rw [h.eq_of_number hx hy hkey.symm (Nat.le_antisymm hge (hmax y hy hkey))]

end

end Numbered

end Cruxible.NumberedLogs
