import Cruxible.Fallible
import Mathlib.Data.List.Forall2
import Mathlib.Data.List.Perm.Basic

/-!
# Fallible loops

A loop that computes something fallible from each element and then adds it up is
a fallible map followed by a fold. Maps in a row succeed as one map does, and a
map over nested lists as the maps over each. The orders of the values are those of the
elements.
-/
namespace Cruxible.Fallible

variable {ε α β σ ι : Type}

@[simp] theorem map_ok (f : α → β) (a : α) : (Except.ok a : Except ε α).map f = .ok (f a) := rfl

@[simp] theorem map_error (f : α → β) (e : ε) :
    (Except.error e : Except ε α).map f = .error e := rfl

theorem map_eq_ok {x : Except ε α} {f : α → β} {b : β} :
    x.map f = .ok b ↔ ∃ a, x = .ok a ∧ f a = b := by
  cases x <;> simp

variable {f g : ι → Except ε α} {ys : List α} {xs : List ι} {zs : List β}

theorem mapM_nil_eq_ok : [].mapM f = .ok ys ↔ ys = [] := by
  simp [pure, Except.pure, eq_comm]

theorem mapM_cons_eq_ok {x : ι} :
    (x :: xs).mapM f = .ok ys ↔ ∃ a as, f x = .ok a ∧ xs.mapM f = .ok as ∧ ys = a :: as := by
  rw [List.mapM_cons, bind_eq_ok]
  simp only [bind_eq_ok, pure_eq_ok]
  constructor
  · rintro ⟨a, ha, as, has, rfl⟩
    exact ⟨a, as, ha, has, rfl⟩
  · rintro ⟨a, as, ha, has, rfl⟩
    exact ⟨a, ha, as, has, rfl⟩

/-- A loop whose turns compute first and then add up. -/
theorem foldlM_eq_map {f : σ → ι → Except ε σ} {add : σ → α → σ}
    (hf : ∀ s x, f s x = (g x).map (add s)) (xs : List ι) (s : σ) :
    xs.foldlM f s = (xs.mapM g).map fun ys => ys.foldl add s := by
  induction xs generalizing s with
  | nil => rfl
  | cons x xs ih =>
    rw [List.foldlM_cons, List.mapM_cons, hf]
    cases g x with
    | error e => rfl
    | ok a =>
      have hrest := ih (add s a)
      change xs.foldlM f (add s a) = _
      rw [hrest]
      change _ = Except.map _ (xs.mapM g >>= fun as => pure (a :: as))
      cases xs.mapM g <;> rfl

/-- Two fallible steps for each element, and the one after the other for all. -/
theorem mapM_bind_eq_ok {h : α → Except ε β} :
    xs.mapM (fun x => g x >>= h) = .ok zs ↔ ∃ ys, xs.mapM g = .ok ys ∧ ys.mapM h = .ok zs := by
  induction xs generalizing zs with
  | nil =>
    simp only [mapM_nil_eq_ok]
    constructor
    · rintro rfl
      exact ⟨[], rfl, mapM_nil_eq_ok.mpr rfl⟩
    · rintro ⟨ys, rfl, hzs⟩
      exact mapM_nil_eq_ok.mp hzs
  | cons x xs ih =>
    simp only [mapM_cons_eq_ok, bind_eq_ok, ih]
    constructor
    · rintro ⟨c, cs, ⟨a, ha, hc⟩, ⟨as, has, hcs⟩, rfl⟩
      exact ⟨a :: as, ⟨a, as, ha, has, rfl⟩, mapM_cons_eq_ok.mpr ⟨c, cs, hc, hcs, rfl⟩⟩
    · rintro ⟨_, ⟨a, as, ha, has, rfl⟩, hzs⟩
      obtain ⟨c, cs, hc, hcs, rfl⟩ := mapM_cons_eq_ok.mp hzs
      exact ⟨c, cs, ⟨a, ha, hc⟩, ⟨as, has, hcs⟩, rfl⟩

variable {h : σ → α → Except ε σ} {R : α → β → Prop}

/-- A loop whose turns compute first and then go on, fallibly. -/
theorem foldlM_bind_eq_ok {s t : σ} :
    xs.foldlM (fun s x => g x >>= h s) s = .ok t ↔
      ∃ ys, xs.mapM g = .ok ys ∧ ys.foldlM h s = .ok t := by
  induction xs generalizing s with
  | nil =>
    simp only [mapM_nil_eq_ok]
    constructor
    · intro ht
      exact ⟨[], rfl, ht⟩
    · rintro ⟨ys, rfl, ht⟩
      exact ht
  | cons x xs ih =>
    rw [List.foldlM_cons]
    simp only [bind_eq_ok, mapM_cons_eq_ok, ih]
    constructor
    · rintro ⟨u, ⟨a, ha, hu⟩, ys, hys, ht⟩
      refine ⟨a :: ys, ⟨a, ys, ha, hys, rfl⟩, ?_⟩
      rw [List.foldlM_cons, bind_eq_ok]
      exact ⟨u, hu, ht⟩
    · rintro ⟨_, ⟨a, ys, ha, hys, rfl⟩, ht⟩
      obtain ⟨u, hu, ht⟩ := foldlM_cons_eq_ok.mp ht
      exact ⟨u, ⟨a, ha, hu⟩, ys, hys, ht⟩

theorem mapM_append_eq_ok {ys : List ι} {zs : List α} :
    (xs ++ ys).mapM f = .ok zs ↔
      ∃ as bs, xs.mapM f = .ok as ∧ ys.mapM f = .ok bs ∧ zs = as ++ bs := by
  rw [List.mapM_append, bind_eq_ok]
  simp only [bind_eq_ok, pure_eq_ok]
  constructor
  · rintro ⟨as, has, bs, hbs, rfl⟩
    exact ⟨as, bs, has, hbs, rfl⟩
  · rintro ⟨as, bs, has, hbs, rfl⟩
    exact ⟨as, has, bs, hbs, rfl⟩

theorem mapM_flatMap_eq_ok {f : α → Except ε β} {parts : ι → List α} :
    (xs.flatMap parts).mapM f = .ok zs ↔
      ∃ rows, xs.mapM (fun x => (parts x).mapM f) = .ok rows ∧ zs = rows.flatten := by
  induction xs generalizing zs with
  | nil =>
    simp only [List.flatMap_nil, mapM_nil_eq_ok]
    constructor
    · rintro rfl
      exact ⟨[], rfl, rfl⟩
    · rintro ⟨rows, rfl, rfl⟩
      rfl
  | cons x xs ih =>
    simp only [List.flatMap_cons, mapM_append_eq_ok, mapM_cons_eq_ok, ih]
    constructor
    · rintro ⟨as, _, has, ⟨rows, hrows, rfl⟩, rfl⟩
      exact ⟨as :: rows, ⟨as, rows, has, hrows, rfl⟩, by rw [List.flatten_cons]⟩
    · rintro ⟨_, ⟨as, rows, has, hrows, rfl⟩, rfl⟩
      exact ⟨as, rows.flatten, has, ⟨rows, hrows, rfl⟩, by rw [List.flatten_cons]⟩

/-- Element by element. -/
theorem mapM_eq_ok_iff : xs.mapM f = .ok ys ↔ List.Forall₂ (fun x y => f x = .ok y) xs ys := by
  induction xs generalizing ys with
  | nil => rw [mapM_nil_eq_ok, List.forall₂_nil_left_iff]
  | cons x xs ih =>
    rw [mapM_cons_eq_ok, List.forall₂_cons_left_iff]
    simp only [ih]

theorem mapM_isOk {f : ι → Except ε α} {xs : List ι} (h : ∀ x ∈ xs, ∃ y, f x = .ok y) :
    ∃ ys, xs.mapM f = .ok ys := by
  induction xs with
  | nil => exact ⟨[], rfl⟩
  | cons x xs ih =>
    obtain ⟨y, hy⟩ := h x List.mem_cons_self
    obtain ⟨ys, hys⟩ := ih fun z hz => h z (List.mem_cons_of_mem _ hz)
    exact ⟨y :: ys, mapM_cons_eq_ok.mpr ⟨y, ys, hy, hys, rfl⟩⟩

/-- The same elements in another order. -/
theorem mapM_perm {xs' : List ι} (hxs : xs'.Perm xs) (h : xs.mapM f = .ok ys) :
    ∃ ys', xs'.mapM f = .ok ys' ∧ ys'.Perm ys := by
  obtain ⟨ys', hys', hperm⟩ := List.perm_comp_forall₂ hxs (mapM_eq_ok_iff.mp h)
  exact ⟨ys', mapM_eq_ok_iff.mpr hys', hperm⟩

/-- Every order of the values comes from an order of the elements. -/
theorem mapM_reorder {ys' : List α} (h : xs.mapM f = .ok ys) (hys : ys'.Perm ys) :
    ∃ xs' : List ι, xs'.Perm xs ∧ xs'.mapM f = .ok ys' := by
  have hcomp : Relation.Comp (List.Forall₂ fun x y => f x = .ok y) List.Perm xs ys' :=
    ⟨ys, mapM_eq_ok_iff.mp h, hys.symm⟩
  rw [List.forall₂_comp_perm_eq_perm_comp_forall₂] at hcomp
  obtain ⟨xs', hxs', hall⟩ := hcomp
  exact ⟨xs', hxs'.symm, mapM_eq_ok_iff.mpr hall⟩

/-- A loop over what a fallible map gives. -/
theorem foldlM_of_mapM (hg : xs.mapM g = .ok ys) (s : σ) :
    xs.foldlM (fun s x => g x >>= h s) s = ys.foldlM h s := by
  induction xs generalizing ys s with
  | nil =>
    rw [mapM_nil_eq_ok.mp hg]
    rfl
  | cons x xs ih =>
    obtain ⟨a, as, ha, has, rfl⟩ := mapM_cons_eq_ok.mp hg
    rw [List.foldlM_cons, List.foldlM_cons, ha]
    change (h s a >>= _) = _
    cases h s a with
    | error e => rfl
    | ok t => exact ih has t

/-- A loop that passes over what is not there. -/
theorem foldlM_filterMap {h : σ → Option α → Except ε σ} {next : σ → α → Except ε σ}
    (hnone : ∀ s, h s none = .ok s) (hsome : ∀ s a, h s (some a) = next s a)
    (os : List (Option α)) (s : σ) : os.foldlM h s = (os.filterMap id).foldlM next s := by
  induction os generalizing s with
  | nil => rfl
  | cons o os ih =>
    cases o with
    | none =>
      rw [List.foldlM_cons, hnone, List.filterMap_cons_none rfl]
      exact ih s
    | some a =>
      rw [List.foldlM_cons, hsome]
      change _ = (a :: os.filterMap id).foldlM next s
      rw [List.foldlM_cons]
      cases next s a with
      | error e => rfl
      | ok t => exact ih t

/-- Two fallible maps over one list, the second failing where it has an excuse. -/
theorem mapM_follow {g : ι → Except ε β} {Excused : α → Prop} {e : ε} (h : xs.mapM f = .ok ys)
    (hstep : ∀ x ∈ xs, ∀ y, f x = .ok y →
      (∃ z, g x = .ok z ∧ R y z) ∨ g x = .error e ∧ Excused y) :
    (∃ zs, xs.mapM g = .ok zs ∧ List.Forall₂ R ys zs) ∨
      xs.mapM g = .error e ∧ ∃ y ∈ ys, Excused y := by
  induction xs generalizing ys with
  | nil =>
    rw [mapM_nil_eq_ok.mp h]
    exact .inl ⟨[], rfl, .nil⟩
  | cons x xs ih =>
    obtain ⟨y, ys, hy, hys, rfl⟩ := mapM_cons_eq_ok.mp h
    rcases hstep x List.mem_cons_self y hy with ⟨z, hz, hyz⟩ | ⟨hfail, hexcused⟩
    · rcases ih hys fun w hw => hstep w (List.mem_cons_of_mem _ hw) with
        ⟨zs, hzs, hrest⟩ | ⟨hfail, w, hw, hexcused⟩
      · exact .inl ⟨z :: zs, mapM_cons_eq_ok.mpr ⟨z, zs, hz, hzs, rfl⟩, .cons hyz hrest⟩
      · refine .inr ⟨?_, w, List.mem_cons_of_mem _ hw, hexcused⟩
        rw [List.mapM_cons, hz, hfail]
        rfl
    · refine .inr ⟨?_, y, List.mem_cons_self, hexcused⟩
      rw [List.mapM_cons, hfail]
      rfl

/-- Two fallible maps over one list, and one element of it. -/
theorem mapM_pair {g : ι → Except ε β} (hf : xs.mapM f = .ok ys) (hg : xs.mapM g = .ok zs)
    (h : List.Forall₂ R ys zs) : ∀ x ∈ xs, ∃ y ∈ ys, ∃ z, f x = .ok y ∧ g x = .ok z ∧ R y z := by
  induction xs generalizing ys zs with
  | nil => simp
  | cons x xs ih =>
    obtain ⟨y, ys, hy, hys, rfl⟩ := mapM_cons_eq_ok.mp hf
    obtain ⟨z, zs, hz, hzs, rfl⟩ := mapM_cons_eq_ok.mp hg
    obtain ⟨hyz, hrest⟩ := List.forall₂_cons.mp h
    intro w hw
    rcases List.mem_cons.mp hw with rfl | hw
    · exact ⟨y, List.mem_cons_self, z, hy, hz, hyz⟩
    · obtain ⟨u, hu, hmore⟩ := ih hys hzs hrest w hw
      exact ⟨u, List.mem_cons_of_mem _ hu, hmore⟩

/-- What is known of each value without its element. -/
theorem mapM_map_congr {p : α → β} {q : ι → β} (h : xs.mapM f = .ok ys)
    (hpq : ∀ x ∈ xs, ∀ y, f x = .ok y → p y = q x) : ys.map p = xs.map q := by
  induction xs generalizing ys with
  | nil =>
    rw [mapM_nil_eq_ok.mp h]
    rfl
  | cons x xs ih =>
    obtain ⟨y, ys, hy, hys, rfl⟩ := mapM_cons_eq_ok.mp h
    rw [List.map_cons, List.map_cons, hpq x List.mem_cons_self y hy,
      ih hys fun w hw => hpq w (List.mem_cons_of_mem _ hw)]

end Cruxible.Fallible
