import Mathlib.Tactic.Common

/-!
# Computations that may raise part way

A computation on a state raises with whatever it has done to the state so far. A
triple has two postconditions: one for the value that is returned and one for the
error that is raised, each about the state that is left.
-/
namespace Cruxible.Attempts

variable {σ ε α β : Type}

/-- A computation that returns or raises, and leaves a state either way. -/
def Attempt (σ ε α : Type) : Type := σ → Except ε α × σ

namespace Attempt

def run (x : Attempt σ ε α) (s : σ) : Except ε α × σ := x s

def ret (a : α) : Attempt σ ε α := fun s => (.ok a, s)

def andThen (x : Attempt σ ε α) (f : α → Attempt σ ε β) : Attempt σ ε β := fun s =>
  match x s with
  | (.ok a, t) => f a t
  | (.error e, t) => (.error e, t)

instance : Monad (Attempt σ ε) where
  pure := ret
  bind := andThen

def raise (e : ε) : Attempt σ ε α := fun s => (.error e, s)

def get : Attempt σ ε σ := fun s => (.ok s, s)

def modify (f : σ → σ) : Attempt σ ε Unit := fun s => (.ok (), f s)

/-- The result of a pure computation. -/
def lift (x : Except ε α) : Attempt σ ε α := fun s => (x, s)

/-- A write that may fail, and then leaves something else. -/
def write (fault : Option (ε × (σ → σ))) (f : σ → σ) : Attempt σ ε Unit := fun s =>
  match fault with
  | none => (.ok (), f s)
  | some (e, left) => (.error e, left s)

/-- A body whose effects are taken back if it raises. -/
def transaction (rollback : σ → σ → σ) (x : Attempt σ ε α) : Attempt σ ε α := fun s =>
  match x s with
  | (.ok a, t) => (.ok a, t)
  | (.error e, t) => (.error e, rollback s t)

/-- Another error is raised in the place of the one that a body raises. -/
def rewordError {ε' : Type} (f : ε → ε') (x : Attempt σ ε α) : Attempt σ ε' α := fun s =>
  match x s with
  | (.ok a, t) => (.ok a, t)
  | (.error e, t) => (.error (f e), t)

/-- `try … finally`: what is done before a body is undone after it, however it ends. -/
def bracketed (enter : σ → σ) (leave : σ → σ → σ) (x : Attempt σ ε α) : Attempt σ ε α := fun s =>
  ((x (enter s)).1, leave s (x (enter s)).2)

end Attempt

open Attempt

/-- From every state of `P` the computation returns into `Q` or raises into `E`. -/
def Triple (P : σ → Prop) (x : Attempt σ ε α) (Q : α → σ → Prop) (E : ε → σ → Prop) : Prop :=
  ∀ s, P s → (∀ a t, x s = (.ok a, t) → Q a t) ∧ ∀ e t, x s = (.error e, t) → E e t

section Rules
variable {P P' : σ → Prop} {Q Q' : α → σ → Prop} {E E' : ε → σ → Prop} {x : Attempt σ ε α}

theorem Triple.consequence (h : Triple P x Q E) (hP : ∀ s, P' s → P s) (hQ : ∀ a s, Q a s → Q' a s)
    (hE : ∀ e s, E e s → E' e s) : Triple P' x Q' E' := by
  intro s hs
  have ⟨hok, herror⟩ := h s (hP s hs)
  exact ⟨fun a t hx => hQ a t (hok a t hx), fun e t hx => hE e t (herror e t hx)⟩

/-- A fact that does not speak of the state is kept. -/
theorem Triple.frame (h : Triple P x Q E) (F : Prop) :
    Triple (fun s => P s ∧ F) x (fun a s => Q a s ∧ F) E := by
  intro s hs
  have ⟨hok, herror⟩ := h s hs.1
  exact ⟨fun a t hx => ⟨hok a t hx, hs.2⟩, herror⟩

theorem triple_ret (a : α) (h : ∀ s, P s → Q a s) : Triple P (pure a : Attempt σ ε α) Q E := by
  intro s hs
  constructor
  · intro b t hx
    have hsame : (Except.ok a, s) = (Except.ok b, t) := hx
    rw [Prod.mk.injEq, Except.ok.injEq] at hsame
    exact hsame.1 ▸ hsame.2 ▸ h s hs
  · intro e t hx
    cases hx

theorem triple_bind {f : α → Attempt σ ε β} {R : β → σ → Prop} (hx : Triple P x Q E)
    (hf : ∀ a, Triple (Q a) (f a) R E) : Triple P (x >>= f) R E := by
  intro s hs
  have ⟨hok, herror⟩ := hx s hs
  have hbind : (x >>= f) s = andThen x f s := rfl
  rw [hbind, andThen]
  cases hrun : x s with
  | mk r t =>
    cases r with
    | ok a => exact hf a t (hok a t hrun)
    | error e =>
      constructor
      · intro b u hu
        cases hu
      · intro e' u hu
        simp only [Prod.mk.injEq, Except.error.injEq] at hu
        exact hu.1 ▸ hu.2 ▸ herror e t hrun

theorem triple_raise (e : ε) (h : ∀ s, P s → E e s) : Triple P (raise e : Attempt σ ε α) Q E := by
  intro s hs
  constructor
  · intro a t hx
    cases hx
  · intro e' t hx
    have hsame : (Except.error e, s) = ((Except.error e', t) : Except ε α × σ) := hx
    rw [Prod.mk.injEq, Except.error.injEq] at hsame
    exact hsame.1 ▸ hsame.2 ▸ h s hs

theorem triple_get {Q : σ → σ → Prop} (h : ∀ s, P s → Q s s) :
    Triple P (get : Attempt σ ε σ) Q E := by
  intro s hs
  constructor
  · intro a t hx
    have hsame : (Except.ok s, s) = ((Except.ok a, t) : Except ε σ × σ) := hx
    rw [Prod.mk.injEq, Except.ok.injEq] at hsame
    exact hsame.1 ▸ hsame.2 ▸ h s hs
  · intro e t hx
    cases hx

theorem triple_lift {x : Except ε α} (hok : ∀ a s, x = .ok a → P s → Q a s)
    (herror : ∀ e s, x = .error e → P s → E e s) : Triple P (lift x) Q E := by
  intro s hs
  constructor
  · intro a t hx
    have hsame : (x, s) = (Except.ok a, t) := hx
    rw [Prod.mk.injEq] at hsame
    exact hsame.2 ▸ hok a s hsame.1 hs
  · intro e t hx
    have hsame : (x, s) = (Except.error e, t) := hx
    rw [Prod.mk.injEq] at hsame
    exact hsame.2 ▸ herror e s hsame.1 hs

theorem triple_modify {Q : Unit → σ → Prop} {f : σ → σ} (h : ∀ s, P s → Q () (f s)) :
    Triple P (modify f : Attempt σ ε Unit) Q E := by
  intro s hs
  constructor
  · intro a t hx
    have hsame : (Except.ok (), f s) = ((Except.ok a, t) : Except ε Unit × σ) := hx
    rw [Prod.mk.injEq] at hsame
    exact hsame.2 ▸ h s hs
  · intro e t hx
    cases hx

theorem triple_write {Q : Unit → σ → Prop} {fault : Option (ε × (σ → σ))} {f : σ → σ}
    (hok : ∀ s, P s → Q () (f s))
    (herror : ∀ e left, fault = some (e, left) → ∀ s, P s → E e (left s)) :
    Triple P (write fault f) Q E := by
  cases fault with
  | none => exact triple_modify hok
  | some failure =>
    intro s hs
    constructor
    · intro a t hx
      cases hx
    · intro e t hx
      have hsame : (Except.error failure.1, failure.2 s) =
          ((Except.error e, t) : Except ε Unit × σ) := hx
      rw [Prod.mk.injEq, Except.error.injEq] at hsame
      have hleft := herror failure.1 failure.2 rfl s hs
      exact hsame.1 ▸ hsame.2 ▸ hleft

/-- What a body has done to a state of `P` before it raised is taken back. -/
theorem triple_transaction {rollback : σ → σ → σ} {G : σ → ε → σ → Prop}
    (hx : ∀ s, P s → Triple (fun t => t = s) x Q (G s))
    (hE : ∀ s e t, P s → G s e t → E e (rollback s t)) : Triple P (transaction rollback x) Q E := by
  intro s hs
  have ⟨hok, herror⟩ := hx s hs s rfl
  unfold transaction
  cases hrun : x s with
  | mk r t =>
    cases r with
    | ok a =>
      constructor
      · intro b u hu
        simp only [Prod.mk.injEq, Except.ok.injEq] at hu
        exact hu.1 ▸ hu.2 ▸ hok a t hrun
      · intro e u hu
        cases hu
    | error e =>
      constructor
      · intro b u hu
        cases hu
      · intro e' u hu
        simp only [Prod.mk.injEq, Except.error.injEq] at hu
        exact hu.1 ▸ hu.2 ▸ hE s e t hs (herror e t hrun)

end Rules

/-- However the computation ends, the state it leaves is related to the one it
started from. -/
def Always (R : σ → σ → Prop) (x : Attempt σ ε α) : Prop := ∀ s, R s (x s).2

section Relations
variable {R S : σ → σ → Prop}

theorem always_ret (hrefl : ∀ s, R s s) (a : α) : Always R (pure a : Attempt σ ε α) := hrefl

theorem always_raise (hrefl : ∀ s, R s s) (e : ε) : Always R (raise e : Attempt σ ε α) := hrefl

theorem always_get (hrefl : ∀ s, R s s) : Always R (get : Attempt σ ε σ) := hrefl

theorem always_lift (hrefl : ∀ s, R s s) (x : Except ε α) : Always R (lift x : Attempt σ ε α) :=
  hrefl

variable {x : Attempt σ ε α}

theorem rewordError_state {ε' : Type} (f : ε → ε') (x : Attempt σ ε α) (s : σ) :
    (rewordError f x s).2 = (x s).2 := by
  unfold rewordError
  split
  case h_1 t hrun => rw [hrun]
  case h_2 t hrun => rw [hrun]

theorem always_rewordError {ε' : Type} {f : ε → ε'} (h : Always R x) :
    Always R (rewordError f x) := fun s => (rewordError_state f x s).symm ▸ h s

theorem always_bind (htrans : ∀ s t u, R s t → R t u → R s u) {f : α → Attempt σ ε β}
    (hx : Always R x) (hf : ∀ a, Always R (f a)) : Always R (x >>= f) := by
  intro s
  have hs := hx s
  have hbind : (x >>= f) s = andThen x f s := rfl
  rw [hbind, andThen]
  cases hrun : x s with
  | mk r t =>
    rw [hrun] at hs
    cases r with
    | ok a => exact htrans s t _ hs (hf a t)
    | error e => exact hs

end Relations

variable {s t : σ} {f : α → Attempt σ ε β} {x : Attempt σ ε α}

/-- A sequence returns when both parts do, the second from where the first returned. -/
theorem bind_eq_ok {u : σ} {b : β} :
    (x >>= f) s = (.ok b, u) ↔ ∃ a t, x s = (.ok a, t) ∧ f a t = (.ok b, u) := by
  have hbind : (x >>= f) s = andThen x f s := rfl
  rw [hbind, andThen]
  cases x s with
  | mk r t =>
    cases r with
    | ok a => simp
    | error e => simp

/-- The cases of a sequence. -/
theorem bind_rule {P : Except ε β × σ → Prop}
    (herror : ∀ e t, x s = (.error e, t) → P (.error e, t))
    (hok : ∀ a t, x s = (.ok a, t) → P (f a t)) : P ((x >>= f) s) := by
  have hbind : (x >>= f) s = andThen x f s := rfl
  rw [hbind, andThen]
  cases hrun : x s with
  | mk r t =>
    cases r with
    | ok a => exact hok a t hrun
    | error e => exact herror e t hrun

theorem get_eq_ok {u : σ} : (get : Attempt σ ε σ) s = (.ok t, u) ↔ s = t ∧ s = u := by
  change ((Except.ok s, s) : Except ε σ × σ) = (.ok t, u) ↔ _
  simp

theorem modify_eq_ok {f : σ → σ} {u : Unit} :
    (modify f : Attempt σ ε Unit) s = (.ok u, t) ↔ f s = t := by
  change ((Except.ok (), f s) : Except ε Unit × σ) = (.ok u, t) ↔ _
  simp

theorem lift_eq_ok {x : Except ε α} {a : α} : lift x s = (.ok a, t) ↔ x = .ok a ∧ s = t := by
  change (x, s) = (.ok a, t) ↔ _
  simp

end Cruxible.Attempts
