import Mathlib.Logic.Relation
import Mathlib.Logic.Function.Basic
import Mathlib.Tactic.Common

/-!
# Paired succession links

Records that each hold at most one forward and one backward name. The links are
paired when the two directions agree, and they form chains when no walk along
the forward names returns to its start. Linking the open end of one chain to a
record that nothing precedes and that is itself an open end keeps both.
-/
namespace Cruxible.PairedLinks

variable {κ : Type} [DecidableEq κ]

/-- The forward and the backward name of each record. -/
@[ext] structure Links (κ : Type) where
  succ : κ → Option κ
  pred : κ → Option κ

namespace Links

/-- One step along the forward names. -/
def Follows (L : Links κ) (x y : κ) : Prop := L.succ x = some y

/-- Record `y` becomes the successor of `x`. -/
def link (L : Links κ) (x y : κ) : Links κ where
  succ := Function.update L.succ x (some y)
  pred := Function.update L.pred y (some x)

end Links

/-- The two directions agree and no walk returns. -/
structure Chains (L : Links κ) : Prop where
  paired : ∀ x y, L.succ x = some y ↔ L.pred y = some x
  acyclic : ∀ x, ¬Relation.TransGen L.Follows x x

namespace Chains
variable {L : Links κ} {x y : κ}

omit [DecidableEq κ] in
theorem empty : Chains (⟨fun _ => none, fun _ => none⟩ : Links κ) where
  paired := by simp
  acyclic := by
    intro x hx
    obtain ⟨y, hy, -⟩ := Relation.TransGen.head'_iff.mp hx
    cases hy

/-- In the extended links a walk from a record other than `x` either was a walk
before or ends at `y` after passing through `x`. -/
theorem walk_link (hend : L.succ y = none) (hne : x ≠ y) {a b : κ}
    (h : Relation.TransGen (L.link x y).Follows a b) :
    Relation.TransGen L.Follows a b ∨ (b = y ∧ Relation.ReflTransGen L.Follows a x) := by
  induction h with
  | single hab =>
    rename_i b
    by_cases ha : a = x
    · subst ha
      have hby : y = b := by simpa [Links.Follows, Links.link] using hab
      exact .inr ⟨hby.symm, Relation.ReflTransGen.refl⟩
    · have hold : L.Follows a b := by
        simpa [Links.Follows, Links.link, Function.update_of_ne ha] using hab
      exact .inl (Relation.TransGen.single hold)
  | tail _ hbc ih =>
    rename_i b c _
    by_cases hb : b = x
    · have hcy : y = c := by simpa [Links.Follows, Links.link, hb] using hbc
      rcases ih with hold | ⟨hby, -⟩
      · exact .inr ⟨hcy.symm, hb ▸ hold.to_reflTransGen⟩
      · exact absurd (hb.symm.trans hby) hne
    · have hstep : L.Follows b c := by
        simpa [Links.Follows, Links.link, Function.update_of_ne hb] using hbc
      rcases ih with hold | ⟨hby, -⟩
      · exact .inl (hold.tail hstep)
      · rw [hby, Links.Follows, hend] at hstep
        cases hstep

theorem link (h : Chains L) (hopen : L.succ x = none) (hfirst : L.pred y = none)
    (hend : L.succ y = none) (hne : x ≠ y) : Chains (L.link x y) where
  paired := by
    intro a b
    have hold := h.paired a b
    by_cases ha : a = x
    · subst ha
      by_cases hb : b = y
      · subst hb
        simp [Links.link]
      · have hnot : L.pred b ≠ some a := by
          rw [Ne, ← hold, hopen]
          simp
        simp [Links.link, Function.update_of_ne hb, hnot, Ne.symm hb]
    · by_cases hb : b = y
      · subst hb
        have hnot : L.succ a ≠ some b := by
          rw [Ne, hold, hfirst]
          simp
        simp [Links.link, Function.update_of_ne ha, hnot, Ne.symm ha]
      · simp [Links.link, Function.update_of_ne ha, Function.update_of_ne hb, hold]
  acyclic := by
    intro a ha
    rcases walk_link hend hne ha with hold | ⟨rfl, hwalk⟩
    · exact h.acyclic a hold
    · rcases Relation.ReflTransGen.cases_head hwalk with hax | ⟨c, hc, -⟩
      · exact hne hax.symm
      · rw [Links.Follows, hend] at hc
        cases hc

omit [DecidableEq κ] in
/-- Two records with one successor are the same record. -/
theorem pred_unique (h : Chains L) {a b c : κ} (ha : L.succ a = some c) (hb : L.succ b = some c) :
    a = b := by
  have hca := (h.paired a c).mp ha
  have hcb := (h.paired b c).mp hb
  rw [hca] at hcb
  exact Option.some.inj hcb

end Chains
end Cruxible.PairedLinks
