import Cruxible.Fallible
import Mathlib.Data.List.Basic
import Mathlib.Data.List.Pairwise
import Mathlib.Data.List.Perm.Subperm

/-!
# Sorting by a comparison

Sorts that only ask a comparison, which may raise. On a strict total order they sort;
whatever the comparison says, an ascending run at the front of the list stays in order,
as it does where runs are extended by insertion and merged. The result then depends on
the elements alone exactly when no three of them precede one another in a circle.
-/
namespace Cruxible.ComparisonSorts
open Fallible

variable {α ε : Type}

def Answers (lt : α → α → Except ε Bool) (r : α → α → Prop) (x y : α) : Prop :=
  ∃ b, lt x y = .ok b ∧ (b = true ↔ r x y)

/-- The comparison answers on every two members, as the relation. -/
def Decides (lt : α → α → Except ε Bool) (xs : List α) (r : α → α → Prop) : Prop :=
  xs.Pairwise fun x y => Answers lt r x y ∧ Answers lt r y x

/-- A strict total order on the members. -/
structure StrictTotal (r : α → α → Prop) (xs : List α) : Prop where
  asymm : ∀ x ∈ xs, ∀ y ∈ xs, r x y → ¬r y x
  trans : ∀ x ∈ xs, ∀ y ∈ xs, ∀ z ∈ xs, r x y → r y z → r x z
  connected : ∀ x ∈ xs, ∀ y ∈ xs, x ≠ y → r x y ∨ r y x

structure Sorter where
  run : ∀ {α ε : Type}, (α → α → Except ε Bool) → List α → Except ε (List α)
  perm : ∀ {α ε : Type} {lt : α → α → Except ε Bool} {xs ys : List α},
    run lt xs = .ok ys → ys.Perm xs
  returns : ∀ {α ε : Type} {lt : α → α → Except ε Bool} {xs : List α} {r : α → α → Prop},
    Decides lt xs r → ∃ ys, run lt xs = .ok ys
  ordered : ∀ {α ε : Type} {lt : α → α → Except ε Bool} {xs ys : List α} {r : α → α → Prop},
    Decides lt xs r → StrictTotal r xs → run lt xs = .ok ys → ys.Pairwise fun x y => ¬r y x
  keepsRun : ∀ {α ε : Type} {lt : α → α → Except ε Bool} {x y z : α} {xs ys : List α}
    {r : α → α → Prop}, Decides lt (x :: y :: z :: xs) r → r x y → r y z → ¬r y x → ¬r z y →
    run lt (x :: y :: z :: xs) = .ok ys → [x, y, z].Sublist ys

variable {lt : α → α → Except ε Bool} {r : α → α → Prop} {xs ys zs : List α} {x : α}

theorem Decides.perm (h : Decides lt xs r) (hp : ys.Perm xs) : Decides lt ys r :=
  (hp.pairwise_iff fun hxy => ⟨hxy.2, hxy.1⟩).mpr h

theorem StrictTotal.perm (h : StrictTotal r xs) (hp : ys.Perm xs) : StrictTotal r ys where
  asymm x hx y hy := h.asymm x (hp.mem_iff.mp hx) y (hp.mem_iff.mp hy)
  trans x hx y hy z hz := h.trans x (hp.mem_iff.mp hx) y (hp.mem_iff.mp hy) z (hp.mem_iff.mp hz)
  connected x hx y hy := h.connected x (hp.mem_iff.mp hx) y (hp.mem_iff.mp hy)

/-- Three members that precede one another in a circle. -/
def Circle (r : α → α → Prop) (xs : List α) : Prop :=
  ∃ x ∈ xs, ∃ y ∈ xs, ∃ z ∈ xs, r x y ∧ r y z ∧ r z x

theorem strictTotal_of_no_circle (hasymm : ∀ x ∈ xs, ∀ y ∈ xs, r x y → ¬r y x)
    (hconnected : ∀ x ∈ xs, ∀ y ∈ xs, x ≠ y → r x y ∨ r y x) (h : ¬Circle r xs) :
    StrictTotal r xs where
  asymm := hasymm
  connected := hconnected
  trans := by
    intro x hx y hy z hz hxy hyz
    by_cases hxz : x = z
    · rw [hxz] at hxy
      exact absurd hyz (hasymm z hz y hy hxy)
    · rcases hconnected x hx z hz hxz with hr | hr
      · exact hr
      · exact absurd ⟨x, hx, y, hy, z, hz, hxy, hyz, hr⟩ h

/-- Two members do not stand in both orders. -/
theorem not_both_orders (hn : xs.Nodup) {y : α} (h : [x, y].Sublist xs) : ¬[y, x].Sublist xs := by
  intro h'
  have hne : x ≠ y := by
    intro hxy
    have hpair := hn.sublist h
    rw [hxy] at hpair
    simp at hpair
  induction xs with
  | nil => cases h
  | cons a xs ih =>
    have ⟨ha, hn⟩ := List.nodup_cons.mp hn
    cases h with
    | cons _ h =>
      cases h' with
      | cons _ h' => exact ih hn h h'
      | cons_cons _ h' => exact ha (h.subset (by simp))
    | cons_cons _ h =>
      cases h' with
      | cons _ h' => exact ha (h'.subset (by simp))
      | cons_cons _ h' => exact hne rfl

theorem eq_of_sorted (htotal : StrictTotal r xs) (hp : ys.Perm xs)
    (hx : xs.Pairwise fun x y => ¬r y x) (hy : ys.Pairwise fun x y => ¬r y x) : ys = xs := by
  apply hp.eq_of_pairwise _ hy hx
  intro x y hxm hym hxy hyx
  by_contra hne
  rcases htotal.connected x (hp.mem_iff.mp hxm) y hym hne with h | h
  · exact hyx h
  · exact hxy h

/-- The result is the same for every order of the members exactly when there is no circle. -/
theorem Sorter.invariant_iff (s : Sorter) (hn : xs.Nodup) (hdecides : Decides lt xs r)
    (hasymm : ∀ x ∈ xs, ∀ y ∈ xs, r x y → ¬r y x)
    (hconnected : ∀ x ∈ xs, ∀ y ∈ xs, x ≠ y → r x y ∨ r y x) :
    (∀ ys zs, ys.Perm xs → zs.Perm xs → s.run lt ys = s.run lt zs) ↔ ¬Circle r xs := by
  constructor
  case mpr =>
    intro hcircle ys zs hys hzs
    have htotal := strictTotal_of_no_circle hasymm hconnected hcircle
    have ⟨ys', hys'⟩ := s.returns (hdecides.perm hys)
    have ⟨zs', hzs'⟩ := s.returns (hdecides.perm hzs)
    have hyp := s.perm hys'
    have hzp := s.perm hzs'
    have hy := s.ordered (hdecides.perm hys) (htotal.perm hys) hys'
    have hz := s.ordered (hdecides.perm hzs) (htotal.perm hzs) hzs'
    rw [hys', hzs', eq_of_sorted ((htotal.perm hzs).perm hzp)
      (hyp.trans (hys.trans (hzs.symm.trans hzp.symm))) hz hy]
  case mp =>
    intro hsame ⟨x, hx, y, hy, z, hz, hxy, hyz, hzx⟩
    have hne : x ≠ y ∧ y ≠ z ∧ z ≠ x := by
      refine ⟨?_, ?_, ?_⟩
      · intro h
        exact hasymm x hx y hy hxy (h ▸ hxy)
      · intro h
        exact hasymm y hy z hz hyz (h ▸ hyz)
      · intro h
        exact hasymm z hz x hx hzx (h ▸ hzx)
    have hthree : [x, y, z].Subperm xs := by
      apply List.subperm_of_subset
      · simp [hne.1, hne.2.1, Ne.symm hne.2.2]
      · simp [hx, hy, hz]
    have ⟨three, hp, hsub⟩ := hthree
    have ⟨rest, happend⟩ := hsub.exists_perm_append
    have hrest : xs.Perm ([x, y, z] ++ rest) := happend.trans (hp.append_right rest)
    have hturned : (y :: z :: x :: rest).Perm (x :: y :: z :: rest) := by
      have h : ([y, z] ++ [x] ++ rest).Perm ([x] ++ [y, z] ++ rest) :=
        List.perm_append_comm.append_right rest
      exact h
    have hfirst : (x :: y :: z :: rest).Perm xs := hrest.symm
    have ⟨ys, hys⟩ := s.returns (hdecides.perm hfirst)
    have hzs := hsame _ _ (hturned.trans hfirst) hfirst
    rw [hys] at hzs
    have hkept := s.keepsRun (hdecides.perm hfirst) hxy hyz (hasymm x hx y hy hxy)
      (hasymm y hy z hz hyz) hys
    have hkept' := s.keepsRun (hdecides.perm (hturned.trans hfirst)) hyz hzx
      (hasymm y hy z hz hyz) (hasymm z hz x hx hzx) hzs
    have hnodup : ys.Nodup := ((s.perm hys).trans hfirst).nodup_iff.mpr hn
    have hxy' : [x, y].Sublist ys :=
      List.Sublist.trans (List.Sublist.cons_cons x (List.Sublist.cons_cons y (List.nil_sublist [z]))) hkept
    have hyx' : [y, x].Sublist ys :=
      List.Sublist.trans (List.Sublist.cons_cons y (List.Sublist.cons z (List.Sublist.refl [x]))) hkept'
    exact not_both_orders hnodup hxy' hyx'

/-- Insertion into a sorted prefix that is listed from its last member on. -/
def place (lt : α → α → Except ε Bool) (x : α) : List α → Except ε (List α)
  | [] => .ok [x]
  | y :: ys => do
      let before ← lt x y
      if before then
        let rest ← place lt x ys
        pure (y :: rest)
      else pure (x :: y :: ys)

def placeAll (lt : α → α → Except ε Bool) (sorted : List α) : List α → Except ε (List α)
  | [] => .ok sorted
  | x :: xs => do
      let sorted ← place lt x sorted
      placeAll lt sorted xs

theorem place_perm (h : place lt x ys = .ok zs) : zs.Perm (x :: ys) := by
  induction ys generalizing zs with
  | nil =>
    cases h
    exact List.Perm.refl _
  | cons y ys ih =>
    have ⟨b, _, h⟩ := bind_eq_ok.mp h
    cases b with
    | false =>
      cases h
      exact List.Perm.refl _
    | true =>
      have ⟨rest, hrest, h⟩ := bind_eq_ok.mp h
      rw [pure_eq_ok] at h
      rw [← h]
      exact ((ih hrest).cons y).trans (List.Perm.swap x y ys)

theorem placeAll_perm (h : placeAll lt ys xs = .ok zs) : zs.Perm (xs ++ ys) := by
  induction xs generalizing ys with
  | nil =>
    cases h
    exact List.Perm.refl _
  | cons x xs ih =>
    have ⟨ys', hys, h⟩ := bind_eq_ok.mp h
    exact (ih h).trans (((place_perm hys).append_left xs).trans List.perm_middle)

/-- What was placed keeps its order. -/
theorem place_sublist (h : place lt x ys = .ok zs) : ys.Sublist zs := by
  induction ys generalizing zs with
  | nil => exact List.nil_sublist zs
  | cons y ys ih =>
    have ⟨b, _, h⟩ := bind_eq_ok.mp h
    cases b with
    | false =>
      cases h
      exact List.sublist_cons_self x (y :: ys)
    | true =>
      have ⟨rest, hrest, h⟩ := bind_eq_ok.mp h
      rw [pure_eq_ok] at h
      rw [← h]
      exact (ih hrest).cons_cons y

theorem placeAll_sublist (h : placeAll lt ys xs = .ok zs) : ys.Sublist zs := by
  induction xs generalizing ys with
  | nil =>
    cases h
    exact List.Sublist.refl _
  | cons x xs ih =>
    have ⟨ys', hys, h⟩ := bind_eq_ok.mp h
    exact (place_sublist hys).trans (ih h)

theorem place_returns (h : ∀ y ∈ ys, Answers lt r x y) : ∃ zs, place lt x ys = .ok zs := by
  induction ys with
  | nil => exact ⟨[x], rfl⟩
  | cons y ys ih =>
    have ⟨b, hb, _⟩ := h y List.mem_cons_self
    have ⟨zs, hzs⟩ := ih fun z hz => h z (List.mem_cons_of_mem y hz)
    rw [place, hb]
    cases b with
    | false => exact ⟨x :: y :: ys, rfl⟩
    | true => exact ⟨y :: zs, by rw [hzs]; rfl⟩

theorem placeAll_returns (h : Decides lt (xs ++ ys) r) : ∃ zs, placeAll lt ys xs = .ok zs := by
  induction xs generalizing ys with
  | nil => exact ⟨ys, rfl⟩
  | cons x xs ih =>
    have hx := (List.pairwise_cons.mp h).1
    have ⟨ys', hys⟩ := place_returns fun y (hy : y ∈ ys) => (hx y (by simp [hy])).1
    have hp : (xs ++ ys').Perm (x :: xs ++ ys) :=
      ((place_perm hys).append_left xs).trans List.perm_middle
    have ⟨zs, hzs⟩ := ih (h.perm hp)
    exact ⟨zs, by rw [placeAll, hys]; exact hzs⟩

/-- Listed from the last member on. -/
abbrev Descending (r : α → α → Prop) (xs : List α) : Prop := xs.Pairwise fun y x => ¬r y x

theorem place_descending (hdecides : Decides lt (x :: ys) r) (htotal : StrictTotal r (x :: ys))
    (hys : Descending r ys) (h : place lt x ys = .ok zs) : Descending r zs := by
  induction ys generalizing zs with
  | nil =>
    cases h
    exact List.pairwise_singleton _ x
  | cons y ys ih =>
    have ⟨hy, hys⟩ := List.pairwise_cons.mp hys
    have ⟨b, hb, h⟩ := bind_eq_ok.mp h
    have ⟨b', hb', hr⟩ := ((List.pairwise_cons.mp hdecides).1 y (by simp)).1
    rw [hb, Except.ok.injEq] at hb'
    have hx : x ∈ x :: y :: ys := by simp
    have hym : y ∈ x :: y :: ys := by simp
    cases b with
    | false =>
      cases h
      have hxy : ¬r x y := by
        intro hxy
        have hbefore := hr.mpr hxy
        rw [← hb'] at hbefore
        cases hbefore
      refine List.pairwise_cons.mpr ⟨?_, List.pairwise_cons.mpr ⟨hy, hys⟩⟩
      intro z hz hxz
      rcases List.mem_cons.mp hz with rfl | hz'
      · exact hxy hxz
      · have hzm : z ∈ x :: y :: ys := by simp [hz']
        by_cases hyz : y = z
        · exact hxy (hyz ▸ hxz)
        · rcases htotal.connected y hym z hzm hyz with h | h
          · exact hy z hz' h
          · exact hxy (htotal.trans x hx z hzm y hym hxz h)
    | true =>
      have ⟨rest, hrest, h⟩ := bind_eq_ok.mp h
      rw [pure_eq_ok] at h
      have hxy : r x y := hr.mp (hb'.symm)
      have hsub : List.Sublist (x :: ys) (x :: y :: ys) := (List.sublist_cons_self y ys).cons_cons x
      have hrest' := ih (hdecides.sublist hsub)
        ⟨fun a ha b hb => htotal.asymm a (hsub.subset ha) b (hsub.subset hb),
          fun a ha b hb c hc => htotal.trans a (hsub.subset ha) b (hsub.subset hb) c (hsub.subset hc),
          fun a ha b hb => htotal.connected a (hsub.subset ha) b (hsub.subset hb)⟩ hys hrest
      rw [← h]
      refine List.pairwise_cons.mpr ⟨?_, hrest'⟩
      intro z hz hyz
      rcases List.mem_cons.mp ((place_perm hrest).mem_iff.mp hz) with hzx | hz
      · rw [hzx] at hyz
        exact htotal.asymm x hx y hym hxy hyz
      · exact hy z hz hyz

theorem placeAll_descending (hdecides : Decides lt (xs ++ ys) r) (htotal : StrictTotal r (xs ++ ys))
    (hys : Descending r ys) (h : placeAll lt ys xs = .ok zs) : Descending r zs := by
  induction xs generalizing ys with
  | nil =>
    cases h
    exact hys
  | cons x xs ih =>
    have ⟨ys', hys', h⟩ := bind_eq_ok.mp h
    have hp : (xs ++ ys').Perm (x :: xs ++ ys) :=
      ((place_perm hys').append_left xs).trans List.perm_middle
    have hsub : ∀ a ∈ x :: ys, a ∈ x :: xs ++ ys := by
      intro a ha
      rcases List.mem_cons.mp ha with rfl | ha
      · exact List.mem_cons_self
      · exact List.mem_append_right _ ha
    have hplaced := place_descending
      (hdecides.sublist ((List.sublist_append_right xs ys).cons_cons x))
      ⟨fun a ha b hb => htotal.asymm a (hsub a ha) b (hsub b hb),
        fun a ha b hb c hc => htotal.trans a (hsub a ha) b (hsub b hb) c (hsub c hc),
        fun a ha b hb => htotal.connected a (hsub a ha) b (hsub b hb)⟩ hys hys'
    exact ih (hdecides.perm hp) (htotal.perm hp) hplaced h

theorem place_after {y : α} (h : lt x y = .ok false) :
    place lt x (y :: ys) = .ok (x :: y :: ys) := by
  rw [place, h]
  rfl

/-- Sorting by insertion from the end. -/
def insertion : Sorter where
  run lt xs := (placeAll lt [] xs).map List.reverse
  perm := by
    intro α ε lt xs ys h
    cases hzs : placeAll lt [] xs with
    | error e =>
        rw [hzs] at h
        cases h
    | ok zs =>
        rw [hzs] at h
        cases h
        have hperm := placeAll_perm hzs
        rw [List.append_nil] at hperm
        exact (List.reverse_perm zs).trans hperm
  returns := by
    intro α ε lt xs r h
    have h' : Decides lt (xs ++ []) r := by simpa using h
    have ⟨zs, hzs⟩ := placeAll_returns h'
    exact ⟨zs.reverse, by rw [hzs]; rfl⟩
  ordered := by
    intro α ε lt xs ys r hdecides htotal h
    cases hzs : placeAll lt [] xs with
    | error e =>
        rw [hzs] at h
        cases h
    | ok zs =>
        rw [hzs] at h
        cases h
        rw [List.pairwise_reverse]
        exact placeAll_descending (by simpa using hdecides) (by simpa using htotal)
          List.Pairwise.nil hzs
  keepsRun := by
    intro α ε lt x y z xs ys r hdecides hxy hyz hyx hzy h
    have hfalse : ∀ a b, Answers lt r a b → ¬r a b → lt a b = .ok false := by
      intro a b ⟨c, hc, hr⟩ hab
      cases c with
      | false => exact hc
      | true => exact absurd (hr.mp rfl) hab
    have hx' := (List.pairwise_cons.mp hdecides).1 y (by simp)
    have hy' := (List.pairwise_cons.mp (List.pairwise_cons.mp hdecides).2).1 z (by simp)
    have hx : place lt x [] = .ok [x] := rfl
    have hy : place lt y [x] = .ok [y, x] := place_after (hfalse y x hx'.2 hyx)
    have hz : place lt z [y, x] = .ok [z, y, x] :=
      place_after (hfalse z y hy'.2 hzy)
    have hrun : placeAll lt [] (x :: y :: z :: xs) = placeAll lt [z, y, x] xs := by
      rw [placeAll, hx]
      change placeAll lt [x] (y :: z :: xs) = _
      rw [placeAll, hy]
      change placeAll lt [y, x] (z :: xs) = _
      rw [placeAll, hz]
      rfl
    rw [hrun] at h
    cases hzs : placeAll lt [z, y, x] xs with
    | error e =>
        rw [hzs] at h
        cases h
    | ok zs =>
        rw [hzs] at h
        cases h
        exact (placeAll_sublist hzs).reverse

end Cruxible.ComparisonSorts
