import Mathlib.Data.Fintype.EquivFin
import Mathlib.Logic.Relation
import Mathlib.Data.Set.Finite.Basic
import Mathlib.Order.WellFounded
import Mathlib.Tactic.Common

/-!
# Records that name at most one parent

A finite list of records with distinct keys. A record is grounded if its chain of
parents ends in a record without one, and stranded if the chain ends in a key that
no record has. The only other way to go on is around a cycle.
-/
namespace Cruxible.ParentChains

variable {α κ : Type} (key : α → κ) (parent : α → Option κ) (xs : List α)

def IsParent (p c : κ) : Prop := ∃ x ∈ xs, key x = c ∧ parent x = some p

def HasCycle : Prop := ∃ k, Relation.TransGen (IsParent key parent xs) k k

/-- Every named parent is the key of a record. -/
def Complete : Prop := ∀ x ∈ xs, ∀ p, parent x = some p → p ∈ xs.map key

inductive Grounded : κ → Prop
  | root {x : α} (hx : x ∈ xs) (hp : parent x = none) : Grounded (key x)
  | child {x : α} {p : κ} (hx : x ∈ xs) (hp : parent x = some p) (h : Grounded p) :
      Grounded (key x)

inductive Stranded : κ → Prop
  | missing {x : α} {p : κ} (hx : x ∈ xs) (hp : parent x = some p) (h : p ∉ xs.map key) :
      Stranded (key x)
  | child {x : α} {p : κ} (hx : x ∈ xs) (hp : parent x = some p) (h : Stranded p) :
      Stranded (key x)

/-- Every record stands after its parent. -/
def ParentsFirst (ordered : List α) : Prop :=
  ∀ before x after, ordered = before ++ x :: after →
    ∀ p, parent x = some p → p ∈ before.map key

variable {key parent xs}

variable {k : κ}

/-- A nonempty set of keys in which every member has a parent in the set goes around
a cycle. -/
theorem hasCycle_of_closed (S : κ → Prop) (hk : S k)
    (hclosed : ∀ k, S k → ∃ p, S p ∧ IsParent key parent xs p k) : HasCycle key parent xs := by
  by_contra hacyclic
  have hmem : ∀ k, S k → k ∈ xs.map key := by
    intro k hk
    have ⟨p, _, x, hx, hkey, _⟩ := hclosed k hk
    exact hkey ▸ List.mem_map_of_mem hx
  let r : {k // S k} → {k // S k} → Prop :=
    fun a b => Relation.TransGen (IsParent key parent xs) a.1 b.1
  have hfinite : Finite {k // S k} := by
    have hkeys : {k | S k}.Finite := (List.finite_toSet (xs.map key)).subset hmem
    exact hkeys.to_subtype
  have htrans : IsTrans _ r := ⟨fun _ _ _ hab hbc => Relation.TransGen.trans hab hbc⟩
  have hirrefl : Std.Irrefl r := ⟨fun a ha => hacyclic ⟨a.1, ha⟩⟩
  have hwf : WellFounded r := Finite.wellFounded_of_trans_of_irrefl r
  have ⟨m, _, hmin⟩ := hwf.has_min Set.univ ⟨⟨k, hk⟩, trivial⟩
  have ⟨p, hp, hparent⟩ := hclosed m.1 m.2
  exact hmin ⟨p, hp⟩ trivial (Relation.TransGen.single hparent)

theorem parent_of_isParent (hkeys : (xs.map key).Nodup) {x : α} (hx : x ∈ xs) {p : κ}
    (h : IsParent key parent xs p (key x)) : parent x = some p := by
  have ⟨y, hy, hkey, hp⟩ := h
  have hsame : y = x := List.inj_on_of_nodup_map hkeys hy hx hkey
  rw [← hsame, hp]

theorem acc_of_grounded (hkeys : (xs.map key).Nodup) (h : Grounded key parent xs k) :
    Acc (IsParent key parent xs) k := by
  induction h with
  | root hx hp =>
    constructor
    intro p hparent
    rw [parent_of_isParent hkeys hx hparent] at hp
    cases hp
  | child hx hp _ ih =>
    constructor
    intro q hparent
    rw [parent_of_isParent hkeys hx hparent] at hp
    cases hp
    exact ih

theorem not_transGen_self_of_acc {r : κ → κ → Prop} (h : Acc r k) : ¬Relation.TransGen r k k := by
  have hacc := h.transGen
  induction hacc with
  | intro k _ ih =>
    intro hloop
    exact ih k hloop h hloop

/-- A chain that ends in a missing key is as finite as one that ends in a root. -/
theorem acc_of_stranded (hkeys : (xs.map key).Nodup) (h : Stranded key parent xs k) :
    Acc (IsParent key parent xs) k := by
  induction h with
  | missing hx hp hmissing =>
    constructor
    intro q hparent
    rw [parent_of_isParent hkeys hx hparent] at hp
    cases hp
    constructor
    rintro r ⟨y, hy, hkey, _⟩
    exact absurd (hkey ▸ List.mem_map_of_mem hy) hmissing
  | child hx hp _ ih =>
    constructor
    intro q hparent
    rw [parent_of_isParent hkeys hx hparent] at hp
    cases hp
    exact ih

theorem not_hasCycle_of_acc (h : ∀ x ∈ xs, Acc (IsParent key parent xs) (key x)) :
    ¬HasCycle key parent xs := by
  rintro ⟨k, hloop⟩
  have ⟨_, _, x, hx, hkey, _⟩ := Relation.TransGen.tail'_iff.mp hloop
  exact not_transGen_self_of_acc (hkey ▸ h x hx) hloop

/-- Records that are all grounded have no cycle. -/
theorem not_hasCycle_of_grounded (hkeys : (xs.map key).Nodup)
    (h : ∀ x ∈ xs, Grounded key parent xs (key x)) : ¬HasCycle key parent xs :=
  not_hasCycle_of_acc fun x hx => acc_of_grounded hkeys (h x hx)

theorem Grounded.mem (h : Grounded key parent xs k) : k ∈ xs.map key := by
  cases h with
  | root hx _ | child hx _ _ => exact List.mem_map_of_mem hx

theorem Grounded.of_parent (hkeys : (xs.map key).Nodup) {x : α} (hx : x ∈ xs) {p : κ}
    (hp : parent x = some p) (h : Grounded key parent xs (key x)) : Grounded key parent xs p := by
  generalize hk : key x = k at h
  cases h with
  | root hy hnone =>
    rw [List.inj_on_of_nodup_map hkeys hx hy hk, hnone] at hp
    cases hp
  | child hy hsome hparent =>
    rw [List.inj_on_of_nodup_map hkeys hx hy hk, hsome] at hp
    cases hp
    exact hparent

theorem complete_of_grounded (hkeys : (xs.map key).Nodup)
    (h : ∀ x ∈ xs, Grounded key parent xs (key x)) : Complete key parent xs := by
  intro x hx p hp
  exact ((h x hx).of_parent hkeys hx hp).mem

/-- A stranded record is not grounded. -/
theorem not_grounded_of_stranded (hkeys : (xs.map key).Nodup) (h : Stranded key parent xs k) :
    ¬Grounded key parent xs k := by
  induction h with
  | missing hx hp hmissing => exact fun hground => hmissing (hground.of_parent hkeys hx hp).mem
  | child hx hp _ ih => exact fun hground => ih (hground.of_parent hkeys hx hp)

/-- Without a cycle, a record that is not grounded is stranded. -/
theorem stranded_of_not_grounded (hacyclic : ¬HasCycle key parent xs) {x : α} (hx : x ∈ xs)
    (h : ¬Grounded key parent xs (key x)) : Stranded key parent xs (key x) := by
  by_contra hstranded
  refine hacyclic (hasCycle_of_closed (fun k => (∃ x ∈ xs, key x = k) ∧
    ¬Grounded key parent xs k ∧ ¬Stranded key parent xs k) ⟨⟨x, hx, rfl⟩, h, hstranded⟩ ?_)
  rintro k ⟨⟨y, hy, rfl⟩, hground, hstranded⟩
  cases hp : parent y with
  | none => exact absurd (.root hy hp) hground
  | some p =>
    have hmem : p ∈ xs.map key := by
      by_contra hmissing
      exact hstranded (.missing hy hp hmissing)
    have ⟨z, hz, hkey⟩ := List.mem_map.mp hmem
    refine ⟨p, ⟨⟨z, hz, hkey⟩, ?_, ?_⟩, y, hy, rfl, hp⟩
    · exact fun hp' => hground (.child hy hp hp')
    · exact fun hp' => hstranded (.child hy hp hp')

theorem parentsFirst_nil : ParentsFirst key parent [] := by
  intro before x after h
  simp at h

/-- Records whose parents all stand in front may be appended in any order. -/
theorem parentsFirst_append {ordered layer : List α} (h : ParentsFirst key parent ordered)
    (hlayer : ∀ x ∈ layer, ∀ p, parent x = some p → p ∈ ordered.map key) :
    ParentsFirst key parent (ordered ++ layer) := by
  intro before x after heq p hp
  rcases List.append_eq_append_iff.mp heq with ⟨front, hbefore, hrest⟩ | ⟨back, hbefore, hrest⟩
  · have hx : x ∈ layer := by simp [hrest]
    rw [hbefore, List.map_append, List.mem_append]
    exact .inl (hlayer x hx p hp)
  · cases back with
    | nil =>
      have hx : x ∈ layer := by
        rw [List.nil_append] at hrest
        simp [← hrest]
      rw [List.append_nil] at hbefore
      rw [← hbefore]
      exact hlayer x hx p hp
    | cons y back =>
      rw [List.cons_append, List.cons.injEq] at hrest
      rw [← hrest.1] at hbefore
      exact h before x back hbefore p hp

end Cruxible.ParentChains
