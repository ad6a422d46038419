import Mathlib.Tactic.Common

/-!
# Reasoning about fallible computations

A successful bind has a successful head, and a successful monadic fold carries
whatever each successful turn preserves.
-/
namespace Cruxible.Fallible

variable {ε α β σ ι : Type} {x : Except ε α} {p : α → Except ε Bool}

theorem bind_eq_ok {f : α → Except ε β} {b : β} :
    (x >>= f) = .ok b ↔ ∃ a, x = .ok a ∧ f a = .ok b := by
  cases x with
  | error e | ok a => simp [bind, Except.bind]

theorem pure_eq_ok {a b : α} : (pure a : Except ε α) = .ok b ↔ a = b := by
  simp [pure, Except.pure]

/-- Rewording the error leaves the results alone. -/
theorem mapError_eq_ok {ε' : Type} {f : ε → ε'} {a : α} : x.mapError f = .ok a ↔ x = .ok a := by
  cases x with
  | error e => simp [Except.mapError]
  | ok b => simp [Except.mapError]

/-- A guard: refuse with the given error when the condition holds. -/
def refuseIf (c : Prop) [Decidable c] (e : ε) : Except ε Unit :=
  if c then .error e else .ok ()

@[simp] theorem refuseIf_eq_ok {c : Prop} [Decidable c] {e : ε} {u : Unit} :
    refuseIf c e = .ok u ↔ ¬c := by
  unfold refuseIf
  split_ifs with h <;> simp [h]

theorem refuseIf_bind_eq_ok {c : Prop} [Decidable c] {e : ε} {f : Unit → Except ε β} {b : β} :
    (refuseIf c e >>= f) = .ok b ↔ ¬c ∧ f () = .ok b := by
  rw [bind_eq_ok]
  constructor
  case mp =>
    intro ⟨_, hpass, hrest⟩
    exact ⟨refuseIf_eq_ok.mp hpass, hrest⟩
  case mpr =>
    intro ⟨hpass, hrest⟩
    exact ⟨(), refuseIf_eq_ok.mpr hpass, hrest⟩

theorem foldlM_nil_eq_ok {f : σ → ι → Except ε σ} {s t : σ} :
    ([] : List ι).foldlM f s = .ok t ↔ s = t :=
  pure_eq_ok

theorem foldlM_cons_eq_ok {f : σ → ι → Except ε σ} {s t : σ} {x : ι} {xs : List ι} :
    (x :: xs).foldlM f s = .ok t ↔ ∃ u, f s x = .ok u ∧ xs.foldlM f u = .ok t := by
  rw [List.foldlM_cons, bind_eq_ok]

variable {xs : List ι} {f : ι → Except ε α} {ys : List α}

/-- What every successful turn keeps, a successful fold keeps. -/
theorem foldlM_invariant {f : σ → ι → Except ε σ} (I : σ → Prop) {s t : σ} (hs : I s)
    (hf : ∀ x ∈ xs, ∀ {a b}, I a → f a x = .ok b → I b) (h : xs.foldlM f s = .ok t) : I t := by
  induction xs generalizing s with
  | nil =>
    obtain rfl := foldlM_nil_eq_ok.mp h
    exact hs
  | cons x xs ih =>
    obtain ⟨a, ha, h⟩ := foldlM_cons_eq_ok.mp h
    exact ih (hf x (by simp) hs ha) (fun y hy => hf y (by simp [hy])) h

/-- A projection that every turn commutes with commutes with the fold. -/
theorem foldlM_map {f : σ → ι → Except ε σ} {g : α → ι → Except ε α} (p : σ → α)
    (hf : ∀ s x, (f s x).map p = g (p s) x) (xs : List ι) (s : σ) :
    (xs.foldlM f s).map p = xs.foldlM g (p s) := by
  induction xs generalizing s with
  | nil => rfl
  | cons x xs ih =>
    rw [List.foldlM_cons, List.foldlM_cons, ← hf]
    cases f s x with
    | error e => rfl
    | ok t => exact ih t

/-- If both computations return, they return the same. -/
def Agree (x y : Except ε α) : Prop := ∀ a b, x = .ok a → y = .ok b → a = b

theorem Agree.refl (x : Except ε α) : Agree x x := fun _ _ ha hb =>
  Except.ok.inj (ha.symm.trans hb)

/-- Checks agree, as they return nothing. -/
theorem Agree.checks (x y : Except ε Unit) : Agree x y := fun _ _ _ _ => rfl

/-- Two computations that agree go on with one value. -/
theorem Agree.common {x y : Except ε α} {f g : α → Except ε β} {b c : β} (h : Agree x y)
    (hb : x >>= f = .ok b) (hc : y >>= g = .ok c) : ∃ a, f a = .ok b ∧ g a = .ok c := by
  obtain ⟨a, ha, hb⟩ := bind_eq_ok.mp hb
  obtain ⟨a', ha', hc⟩ := bind_eq_ok.mp hc
  obtain rfl := h a a' ha ha'
  exact ⟨a, hb, hc⟩

theorem Agree.bind {x y : Except ε α} {f g : α → Except ε β} (h : Agree x y)
    (hfg : ∀ a, Agree (f a) (g a)) : Agree (x >>= f) (y >>= g) := by
  intro b c hb hc
  obtain ⟨a, hb, hc⟩ := h.common hb hc
  exact hfg a b c hb hc

theorem Agree.foldlM {f g : σ → ι → Except ε σ} (hfg : ∀ s x, Agree (f s x) (g s x)) (xs : List ι)
    (s : σ) : Agree (xs.foldlM f s) (xs.foldlM g s) := by
  induction xs generalizing s with
  | nil => exact .refl _
  | cons x xs ih =>
    rw [List.foldlM_cons, List.foldlM_cons]
    exact (hfg s x).bind ih

/-- A loop that only checks succeeds when every check does. -/
theorem forM_eq_ok {f : ι → Except ε Unit} {xs : List ι} {u : Unit} :
    forM xs f = .ok u ↔ ∀ x ∈ xs, f x = .ok () := by
  induction xs with
  | nil => simp [pure, Except.pure]
  | cons x xs ih =>
    rw [List.forM_cons, bind_eq_ok, List.forall_mem_cons]
    constructor
    case mp =>
      intro h
      have ⟨_, hx, hxs⟩ := h
      exact ⟨hx, ih.mp hxs⟩
    case mpr =>
      intro h
      exact ⟨(), h.1, ih.mpr h.2⟩

/-- The invariant form over a list of results, for loops written with `mapM`. -/
theorem mapM_ok_mem (h : xs.mapM f = .ok ys) : ∀ y ∈ ys, ∃ x ∈ xs, f x = .ok y := by
  induction xs generalizing ys with
  | nil =>
    obtain rfl : [] = ys := by simpa [pure, Except.pure] using h
    simp
  | cons x xs ih =>
    rw [List.mapM_cons, bind_eq_ok] at h
    obtain ⟨a, ha, h⟩ := h
    obtain ⟨as, has, h⟩ := bind_eq_ok.mp h
    obtain rfl := pure_eq_ok.mp h
    intro y hy
    rcases List.mem_cons.mp hy with rfl | hy
    · exact ⟨x, by simp, ha⟩
    · obtain ⟨z, hz, hzy⟩ := ih has y hy
      exact ⟨z, by simp [hz], hzy⟩

/-- Every element of the list has its result. -/
theorem mapM_ok_each (h : xs.mapM f = .ok ys) : ∀ x ∈ xs, ∃ y ∈ ys, f x = .ok y := by
  induction xs generalizing ys with
  | nil => simp
  | cons x xs ih =>
    rw [List.mapM_cons, bind_eq_ok] at h
    have ⟨a, ha, hrest⟩ := h
    have ⟨as, has, hys⟩ := bind_eq_ok.mp hrest
    rw [pure_eq_ok] at hys
    intro z hz
    rw [← hys]
    rcases List.mem_cons.mp hz with hz | hz
    · exact ⟨a, List.mem_cons_self, hz ▸ ha⟩
    · have ⟨y, hy, hzy⟩ := ih has z hz
      exact ⟨y, List.mem_cons_of_mem a hy, hzy⟩

theorem mapM_ok_length (h : xs.mapM f = .ok ys) : ys.length = xs.length := by
  induction xs generalizing ys with
  | nil =>
    obtain rfl : [] = ys := by simpa [pure, Except.pure] using h
    rfl
  | cons x xs ih =>
    rw [List.mapM_cons, bind_eq_ok] at h
    obtain ⟨a, -, h⟩ := h
    obtain ⟨as, has, h⟩ := bind_eq_ok.mp h
    obtain rfl := pure_eq_ok.mp h
    rw [List.length_cons, ih has, List.length_cons]

/-- What a test decides, with an error counted as no. -/
def passes (p : α → Except ε Bool) (x : α) : Bool :=
  match p x with
  | .ok b => b
  | .error _ => false

theorem filterAuxM_eq_ok {xs acc : List α} :
    xs.filterAuxM p acc = .ok ys ↔
      (∀ x ∈ xs, ∃ b, p x = .ok b) ∧ ys = (xs.filter (passes p)).reverse ++ acc := by
  induction xs generalizing acc with
  | nil =>
    rw [List.filterAuxM, pure_eq_ok]
    simp [eq_comm]
  | cons x xs ih =>
    rw [List.filterAuxM, bind_eq_ok]
    constructor
    · intro ⟨b, hb, hrest⟩
      have ⟨hall, hys⟩ := ih.mp hrest
      constructor
      · exact List.forall_mem_cons.mpr ⟨⟨b, hb⟩, hall⟩
      · rw [hys, List.filter_cons, passes, hb]
        cases b with
        | false => rfl
        | true => simp
    · intro ⟨hall, hys⟩
      have ⟨⟨b, hb⟩, hrest⟩ := List.forall_mem_cons.mp hall
      refine ⟨b, hb, ih.mpr ⟨hrest, ?_⟩⟩
      rw [hys, List.filter_cons, passes, hb]
      cases b with
      | false => rfl
      | true => simp

/-- A filter with a fallible test returns when no test raises. -/
theorem filterM_eq_ok {xs : List α} :
    xs.filterM p = .ok ys ↔ (∀ x ∈ xs, ∃ b, p x = .ok b) ∧ ys = xs.filter (passes p) := by
  rw [List.filterM, bind_eq_ok]
  constructor
  · intro ⟨as, has, hys⟩
    have ⟨hall, heq⟩ := filterAuxM_eq_ok.mp has
    rw [pure_eq_ok] at hys
    refine ⟨hall, ?_⟩
    rw [← hys, heq, List.append_nil, List.reverse_reverse]
  · intro ⟨hall, hys⟩
    refine ⟨(xs.filter (passes p)).reverse, filterAuxM_eq_ok.mpr ⟨hall, ?_⟩, ?_⟩
    · rw [List.append_nil]
    · rw [pure_eq_ok, List.reverse_reverse, hys]

end Cruxible.Fallible
