import Mathlib.Data.List.Basic
import Mathlib.Data.List.Nodup
import Mathlib.Tactic.Common

/-!
# Append-only lists of mutable records

A table that never deletes: a write may rewrite records in place and append new
ones. `Grows R P xs ys` says that every old record is related by `R` to the
record in the same position of `ys`, and that every record after them satisfies
`P`. The relation is closed under sequencing, under rewriting the first record
that passes a test, and under appending; a search by an attribute that `R`
keeps finds the successor of what it found before.
-/
namespace Cruxible.AppendOnly

variable {α : Type} {R S : α → α → Prop} {P Q : α → Prop}

inductive Grows (R : α → α → Prop) (P : α → Prop) : List α → List α → Prop
  | fresh {ys : List α} : (∀ y ∈ ys, P y) → Grows R P [] ys
  | old {x y : α} {xs ys : List α} : R x y → Grows R P xs ys → Grows R P (x :: xs) (y :: ys)

/-- Rewrite the first record that passes a test. -/
def modifyFirst (p : α → Bool) (f : α → α) : List α → List α
  | [] => []
  | x :: xs => if p x then f x :: xs else x :: modifyFirst p f xs

namespace Grows

theorem refl (hR : ∀ x, R x x) (xs : List α) : Grows R P xs xs := by
  induction xs with
  | nil => exact .fresh (by simp)
  | cons x xs ih => exact .old (hR x) ih

variable {xs ys : List α} {y : α}

theorem trans {zs : List α} (h : Grows R P xs ys) (k : Grows R P ys zs)
    (hR : ∀ a b c, R a b → R b c → R a c) (hP : ∀ a b, P a → R a b → P b) : Grows R P xs zs := by
  induction h generalizing zs with
  | fresh hy =>
    apply Grows.fresh
    induction k with
    | fresh hz => exact hz
    | old hr _ ih =>
      intro z hz
      rcases List.mem_cons.mp hz with rfl | hz
      · exact hP _ _ (hy _ (by simp)) hr
      · exact ih (fun y hm => hy y (by simp [hm])) z hz
  | old hr _ ih =>
    cases k with
    | old hr' hk => exact .old (hR _ _ _ hr hr') (ih hk)

theorem mono (h : Grows R P xs ys) (hRS : ∀ a b, R a b → S a b) (hPQ : ∀ a, P a → Q a) :
    Grows S Q xs ys := by
  induction h with
  | fresh hy => exact .fresh (fun y hm => hPQ y (hy y hm))
  | old hr _ ih => exact .old (hRS _ _ hr) ih

theorem append (hR : ∀ x, R x x) (xs : List α) (hy : ∀ y ∈ ys, P y) : Grows R P xs (xs ++ ys) := by
  induction xs with
  | nil => exact .fresh hy
  | cons x xs ih => exact .old (hR x) ih

/-- Only the record that the search reaches has to be related to its rewrite. -/
theorem modifyFirst (hR : ∀ x, R x x) (p : α → Bool) (f : α → α) (xs : List α)
    (hf : ∀ x, xs.find? p = some x → R x (f x)) : Grows R P xs (AppendOnly.modifyFirst p f xs) := by
  induction xs with
  | nil => exact .fresh (by simp [AppendOnly.modifyFirst])
  | cons x xs ih =>
    by_cases hp : p x = true
    · simp only [AppendOnly.modifyFirst, hp, if_true]
      exact .old (hf x (by simp [hp])) (Grows.refl hR xs)
    · simp only [AppendOnly.modifyFirst, hp, Bool.false_eq_true, if_false]
      exact .old (hR x) (ih (fun y hy => hf y (by simpa [hp] using hy)))

/-- A search whose test is never affected by a rewrite finds the successor. -/
theorem find? {p : α → Bool} (h : Grows R P xs ys) (hp : ∀ a b, R a b → p b = p a) {x : α}
    (hx : xs.find? p = some x) : ∃ y, ys.find? p = some y ∧ R x y := by
  induction h with
  | fresh _ => simp at hx
  | @old a b as bs hr _ ih =>
    by_cases ha : p a = true
    · obtain rfl : a = x := by simpa [ha] using hx
      exact ⟨b, by simp [hp a b hr, ha], hr⟩
    · obtain ⟨y, hy, hxy⟩ := ih (by simpa [ha] using hx)
      exact ⟨y, by simpa [hp a b hr, ha] using hy, hxy⟩

/-- What such a search finds is the successor of what it found before, or it
found nothing before and the record is new. -/
theorem find?_right {p : α → Bool} (h : Grows R P xs ys) (hp : ∀ a b, R a b → p b = p a)
    (hy : ys.find? p = some y) : (∃ x, xs.find? p = some x ∧ R x y) ∨ P y := by
  induction h with
  | fresh hf => exact .inr (hf y (List.mem_of_find?_eq_some hy))
  | @old a b as bs hr _ ih =>
    by_cases ha : p a = true
    · obtain rfl : b = y := by simpa [hp a b hr, ha] using hy
      exact .inl ⟨a, by simp [ha], hr⟩
    · rcases ih (by simpa [hp a b hr, ha] using hy) with ⟨x, hx, hxy⟩ | hn
      · exact .inl ⟨x, by simpa [ha] using hx, hxy⟩
      · exact .inr hn

/-- A record keeps its position. -/
theorem getElem? (h : Grows R P xs ys) {i : Nat} {x : α} (hx : xs[i]? = some x) :
    ∃ y, ys[i]? = some y ∧ R x y := by
  induction h generalizing i with
  | fresh _ => simp at hx
  | @old a b as bs hr _ ih =>
    cases i with
    | zero =>
      obtain rfl : a = x := by simpa using hx
      exact ⟨b, by simp, hr⟩
    | succ i =>
      obtain ⟨y, hy, hxy⟩ := ih (by simpa using hx)
      exact ⟨y, by simpa using hy, hxy⟩

/-- A position holds the successor of what it held before, or it was free and the
record is new. -/
theorem getElem?_right (h : Grows R P xs ys) {i : Nat} (hy : ys[i]? = some y) :
    (∃ x, xs[i]? = some x ∧ R x y) ∨ (xs[i]? = none ∧ P y) := by
  induction h generalizing i with
  | fresh hf => exact .inr ⟨rfl, hf y (List.mem_of_getElem? hy)⟩
  | @old a b as bs hr _ ih =>
    cases i with
    | zero =>
      have hb : b = y := by simpa using hy
      exact .inl ⟨a, rfl, hb ▸ hr⟩
    | succ i => simpa using ih (by simpa using hy)

/-- Every record of the result is a successor of an old one or is new. -/
theorem mem_right (h : Grows R P xs ys) (hy : y ∈ ys) : (∃ x ∈ xs, R x y) ∨ P y := by
  induction h with
  | fresh hf => exact .inr (hf y hy)
  | @old a b as bs hr _ ih =>
    rcases List.mem_cons.mp hy with rfl | hy
    · exact .inl ⟨a, by simp, hr⟩
    · rcases ih hy with ⟨x, hx, hxy⟩ | hp
      · exact .inl ⟨x, by simp [hx], hxy⟩
      · exact .inr hp

end Grows

variable {f : α → α} {p q : α → Bool} {xs : List α} {x : α}

theorem mem_modifyFirst {y : α} (hy : y ∈ modifyFirst p f xs) :
    y ∈ xs ∨ ∃ x, xs.find? p = some x ∧ y = f x := by
  induction xs with
  | nil => simp [modifyFirst] at hy
  | cons x xs ih =>
    by_cases hp : p x = true
    · simp only [modifyFirst, hp, if_true, List.mem_cons] at hy
      rcases hy with rfl | hy
      · exact .inr ⟨x, by simp [hp], rfl⟩
      · exact .inl (by simp [hy])
    · simp only [modifyFirst, hp, Bool.false_eq_true, if_false, List.mem_cons] at hy
      rcases hy with rfl | hy
      · exact .inl (by simp)
      · rcases ih hy with h | ⟨z, hz, rfl⟩
        · exact .inl (by simp [h])
        · exact .inr ⟨z, by simpa [hp] using hz, rfl⟩

/-- An attribute that the rewrite keeps is kept by the whole table. -/
theorem map_modifyFirst {β : Type} (key : α → β) (hf : ∀ x, key (f x) = key x) (xs : List α) :
    (modifyFirst p f xs).map key = xs.map key := by
  induction xs with
  | nil => rfl
  | cons x xs ih =>
    by_cases hp : p x = true
    · simp [modifyFirst, hp, hf]
    · simp [modifyFirst, hp, ih]

/-- Only the record that the search reaches is rewritten. -/
theorem modifyFirst_congr {k : α → α} (h : ∀ x, xs.find? p = some x → f x = k x) :
    modifyFirst p f xs = modifyFirst p k xs := by
  induction xs with
  | nil => rfl
  | cons x xs ih =>
    by_cases hp : p x = true
    · simp [modifyFirst, hp, h x (by simp [hp])]
    · simp [modifyFirst, hp, ih (fun y hy => h y (by simpa [hp] using hy))]

/-- A sharper test that the first match still passes rewrites the same record. -/
theorem modifyFirst_refine (hq : ∀ x, q x = true → p x = true) (hx : xs.find? p = some x)
    (hqx : q x = true) : modifyFirst q f xs = modifyFirst p f xs := by
  induction xs with
  | nil => rfl
  | cons y xs ih =>
    by_cases hp : p y = true
    · obtain rfl : y = x := by simpa [hp] using hx
      simp [modifyFirst, hp, hqx]
    · have hqy : q y = false := Bool.eq_false_iff.mpr (mt (hq y) hp)
      simp [modifyFirst, hp, hqy, ih (by simpa [hp] using hx)]

/-- A sharper test that the first match still passes finds the same record. -/
theorem find?_refine (hq : ∀ x, q x = true → p x = true) (hx : xs.find? p = some x)
    (hqx : q x = true) : xs.find? q = some x := by
  induction xs with
  | nil => simp at hx
  | cons y xs ih =>
    by_cases hp : p y = true
    · obtain rfl : y = x := by simpa [hp] using hx
      simp [hqx]
    · have hqy : q y = false := Bool.eq_false_iff.mpr (mt (hq y) hp)
      simpa [hqy] using ih (by simpa [hp] using hx)

/-- The record that a search rewrote is the one it finds next time. -/
theorem find?_modifyFirst_self (hf : ∀ x, p (f x) = p x) (xs : List α) :
    (modifyFirst p f xs).find? p = (xs.find? p).map f := by
  induction xs with
  | nil => rfl
  | cons x xs ih =>
    by_cases hp : p x = true
    · simp [modifyFirst, hp, hf]
    · simp [modifyFirst, hp, ih]

/-- Two tests that agree on the table rewrite the same record. -/
theorem modifyFirst_congr_test (h : ∀ x ∈ xs, p x = q x) :
    modifyFirst p f xs = modifyFirst q f xs := by
  induction xs with
  | nil => rfl
  | cons x xs ih =>
    have hx := h x List.mem_cons_self
    have hrest := ih (fun y hy => h y (List.mem_cons_of_mem x hy))
    simp only [modifyFirst, hx, hrest]

/-- A search by one attribute value after a rewrite of the record with another. -/
theorem find?_modifyFirst_key {β : Type} [DecidableEq β] {key : α → β} (hf : ∀ x, key (f x) = key x)
    (c d : β) (xs : List α) :
    (modifyFirst (fun x => key x = c) f xs).find? (fun x => key x = d) =
      if c = d then (xs.find? (fun x => key x = d)).map f
      else xs.find? (fun x => key x = d) := by
  induction xs with
  | nil => simp [modifyFirst]
  | cons x xs ih =>
    by_cases hc : key x = c
    · by_cases hd : c = d
      · simp [modifyFirst, hc, hd, hf]
      · simp [modifyFirst, hc, hd, hf]
    · by_cases hxd : key x = d
      · subst hxd
        simp [modifyFirst, hc, Ne.symm hc]
      · simp only [modifyFirst, hc, decide_false, Bool.false_eq_true, if_false, List.find?_cons,
          hxd, ih]

/-- Distinct attributes make a search by attribute exact. -/
theorem find?_eq_of_nodup {β : Type} [DecidableEq β] {key : α → β} (hn : (xs.map key).Nodup)
    (hx : x ∈ xs) : xs.find? (fun y => key y = key x) = some x := by
  induction xs with
  | nil => simp at hx
  | cons y xs ih =>
    rw [List.map_cons, List.nodup_cons] at hn
    rcases List.mem_cons.mp hx with rfl | hx
    · simp
    · have hne : key y ≠ key x := by
        intro he
        exact hn.1 (he ▸ List.mem_map_of_mem hx)
      simpa [hne] using ih hn.2 hx

end Cruxible.AppendOnly
