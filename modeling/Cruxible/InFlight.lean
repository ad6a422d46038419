import Mathlib.Logic.Function.Basic
import Mathlib.Tactic.Common

/-!
# Requests in flight

A request first reads the store and makes a plan, and later carries the plan out
against the store as it is then. Any number of requests may be in flight. Beside
each plan the world keeps the keys that other requests have written since the
plan was made, and beside the store a log of the plans that were carried out.
Neither is data that a request can see: they say how far a plan may be out of
date. On every key that has not been written since, a plan still describes the
store that it is carried out against.
-/
namespace Cruxible.InFlight

/-- `writes p s` are the keys that carrying `p` out on `s` may change. -/
structure System (σ ρ π κ ε : Type) where
  read : ρ → σ → Except ε π
  commit : π → σ → Except ε σ
  writes : π → σ → List κ

structure Held (π κ : Type) where
  plan : π
  since : List κ := []

/-- A plan that was carried out. -/
structure Commit (σ π κ : Type) where
  request : Nat
  plan : π
  since : List κ
  before : σ
  after : σ

structure World (σ π κ : Type) where
  store : σ
  held : Nat → Option (Held π κ) := fun _ => none
  log : List (Commit σ π κ) := []

inductive Step where
  | read (i : Nat)
  | commit (i : Nat)
  deriving DecidableEq, Repr

variable {σ ρ π κ ε ν : Type}

/-- A store with no request in flight. -/
def idle (s : σ) : World σ π κ := { store := s }

namespace World

def hold (w : World σ π κ) (i : Nat) (h : Option (Held π κ)) : World σ π κ :=
  { w with held := Function.update w.held i h }

/-- The world after the plan of request `i` turned the store into `s`. -/
def carryOut (w : World σ π κ) (i : Nat) (h : Held π κ) (keys : List κ) (s : σ) : World σ π κ where
  store := s
  held := Function.update
    (fun j => (w.held j).map fun other => { other with since := other.since ++ keys }) i none
  log := w.log ++ [{ request := i, plan := h.plan, since := h.since, before := w.store, after := s }]

end World

/-- A refused read or commit ends the request and leaves the store alone. -/
def step (sys : System σ ρ π κ ε) (requests : Nat → ρ) (w : World σ π κ) : Step → World σ π κ
  | .read i =>
      match sys.read (requests i) w.store with
      | .ok p => w.hold i (some { plan := p })
      | .error _ => w.hold i none
  | .commit i =>
      match w.held i with
      | none => w
      | some h =>
          match sys.commit h.plan w.store with
          | .ok s => w.carryOut i h (sys.writes h.plan w.store) s
          | .error _ => w.hold i none

def run (sys : System σ ρ π κ ε) (requests : Nat → ρ) (w : World σ π κ) (schedule : List Step) :
    World σ π κ :=
  schedule.foldl (step sys requests) w

theorem run_append (sys : System σ ρ π κ ε) (requests : Nat → ρ) (w : World σ π κ)
    (earlier later : List Step) :
    run sys requests w (earlier ++ later) =
      run sys requests (run sys requests w earlier) later :=
  List.foldl_append

/-- What a step can do to a world. -/
theorem step_cases (sys : System σ ρ π κ ε) (requests : Nat → ρ) (w : World σ π κ) (x : Step) :
    (∃ i p, sys.read (requests i) w.store = .ok p ∧
      step sys requests w x = w.hold i (some { plan := p })) ∨
    (∃ i, step sys requests w x = w.hold i none) ∨
    step sys requests w x = w ∨
    (∃ i h s, w.held i = some h ∧ sys.commit h.plan w.store = .ok s ∧
      step sys requests w x = w.carryOut i h (sys.writes h.plan w.store) s) := by
  cases x with
  | read i =>
    cases hread : sys.read (requests i) w.store with
    | ok p => exact .inl ⟨i, p, hread, by simp [step, hread]⟩
    | error e => exact .inr (.inl ⟨i, by simp [step, hread]⟩)
  | commit i =>
    cases hheld : w.held i with
    | none => exact .inr (.inr (.inl (by simp [step, hheld])))
    | some h =>
      cases hcommit : sys.commit h.plan w.store with
      | ok s => exact .inr (.inr (.inr ⟨i, h, s, hheld, hcommit, by simp [step, hheld, hcommit]⟩))
      | error e => exact .inr (.inl ⟨i, by simp [step, hheld, hcommit]⟩)

/-- A step adds at most one commit, and moves the store only by it. -/
theorem step_log (sys : System σ ρ π κ ε) (requests : Nat → ρ) (w : World σ π κ) (x : Step) :
    ((step sys requests w x).log = w.log ∧ (step sys requests w x).store = w.store) ∨
    ∃ i h s, w.held i = some h ∧ sys.commit h.plan w.store = .ok s ∧
      (step sys requests w x).log = w.log ++ [⟨i, h.plan, h.since, w.store, s⟩] ∧
      (step sys requests w x).store = s := by
  rcases step_cases sys requests w x with
    ⟨i, p, hread, hx⟩ | ⟨i, hx⟩ | hx | ⟨i, h, s, hheld, hcommit, hx⟩
  · exact .inl (by rw [hx]; exact ⟨rfl, rfl⟩)
  · exact .inl (by rw [hx]; exact ⟨rfl, rfl⟩)
  · exact .inl (by rw [hx]; exact ⟨rfl, rfl⟩)
  · exact .inr ⟨i, h, s, hheld, hcommit, by rw [hx]; exact ⟨rfl, rfl⟩⟩

theorem log_step {sys : System σ ρ π κ ε} {requests : Nat → ρ} {w : World σ π κ}
    {J : Commit σ π κ → Prop} (hlog : ∀ c ∈ w.log, J c)
    (hnew : ∀ i h s, w.held i = some h → sys.commit h.plan w.store = .ok s →
      J ⟨i, h.plan, h.since, w.store, s⟩) (x : Step) : ∀ c ∈ (step sys requests w x).log, J c := by
  intro c hc
  rcases step_log sys requests w x with ⟨hsame, -⟩ | ⟨i, h, s, hi, hs, happend, -⟩
  · exact hlog c (hsame ▸ hc)
  · rcases List.mem_append.mp (happend ▸ hc) with hc | hc
    · exact hlog c hc
    · exact List.mem_singleton.mp hc ▸ hnew i h s hi hs

/-- What is known of every plan in flight: it holds of a plan that is just made, and
the commits of others keep it. -/
theorem held_step {sys : System σ ρ π κ ε} {requests : Nat → ρ} {w : World σ π κ}
    (J : Nat → π → List κ → σ → Prop)
    (hread : ∀ i p, sys.read (requests i) w.store = .ok p → J i p [] w.store)
    (hother : ∀ i p since q s, J i p since w.store → sys.commit q w.store = .ok s →
      J i p (since ++ sys.writes q w.store) s)
    (hheld : ∀ i h, w.held i = some h → J i h.plan h.since w.store) (x : Step) :
    ∀ i h, (step sys requests w x).held i = some h →
      J i h.plan h.since (step sys requests w x).store := by
  rcases step_cases sys requests w x with
    ⟨i, p, hplan, hx⟩ | ⟨i, hx⟩ | hx | ⟨i, h, s, hi, hs, hx⟩
  · rw [hx]
    intro j h hj
    by_cases hji : j = i
    · subst hji
      have hmade : { plan := p } = h := by simpa [World.hold] using hj
      rw [← hmade]
      exact hread j p hplan
    · exact hheld j h (by simpa [World.hold, hji] using hj)
  · rw [hx]
    intro j h hj
    by_cases hji : j = i
    · subst hji
      simp [World.hold] at hj
    · exact hheld j h (by simpa [World.hold, hji] using hj)
  · rw [hx]
    exact hheld
  · rw [hx]
    intro j h' hj
    by_cases hji : j = i
    · subst hji
      simp [World.carryOut] at hj
    · simp only [World.carryOut, Function.update_of_ne hji, Option.map_eq_some_iff] at hj
      have ⟨other, hother', hsame⟩ := hj
      rw [← hsame]
      exact hother j _ _ _ _ (hheld j other hother') hs

/-- A plan was made from some store that agrees with `s` on the keys outside
`since`. -/
def MadeFor (sys : System σ ρ π κ ε) (view : κ → σ → ν) (r : ρ) (p : π) (since : List κ) (s : σ) :
    Prop :=
  ∃ origin, sys.read r origin = .ok p ∧ ∀ k, k ∉ since → view k origin = view k s

/-- Carrying a plan out changes only the keys that it announces. -/
def Framed (sys : System σ ρ π κ ε) (view : κ → σ → ν) : Prop :=
  ∀ p s s', sys.commit p s = .ok s' → ∀ k, k ∉ sys.writes p s → view k s' = view k s

/-- Every plan in flight and every plan in the log was made for the store that
it meets. -/
structure Current (sys : System σ ρ π κ ε) (view : κ → σ → ν) (requests : Nat → ρ)
    (w : World σ π κ) : Prop where
  held : ∀ i h, w.held i = some h → MadeFor sys view (requests i) h.plan h.since w.store
  log : ∀ c ∈ w.log, MadeFor sys view (requests c.request) c.plan c.since c.before ∧
    sys.commit c.plan c.before = .ok c.after

section
variable {sys : System σ ρ π κ ε} {view : κ → σ → ν} {requests : Nat → ρ} {w : World σ π κ}

theorem Current.step (hframe : Framed sys view) (hw : Current sys view requests w) (x : Step) :
    Current sys view requests (step sys requests w x) where
  held := by
    apply held_step (fun i p since s => MadeFor sys view (requests i) p since s) _ _ hw.held
    · intro i p hread
      exact ⟨w.store, hread, fun _ _ => rfl⟩
    · intro i p since q s ⟨origin, hread, hagree⟩ hcommit
      refine ⟨origin, hread, fun k hk => ?_⟩
      have hold : k ∉ since := fun hmem => hk (List.mem_append_left _ hmem)
      have hnew : k ∉ sys.writes q w.store := fun hmem => hk (List.mem_append_right _ hmem)
      exact (hagree k hold).trans (hframe _ _ _ hcommit k hnew).symm
  log := log_step hw.log (fun i h _ hheld hcommit => ⟨hw.held i h hheld, hcommit⟩) x

theorem Current.run (hframe : Framed sys view) (hw : Current sys view requests w)
    (schedule : List Step) : Current sys view requests (run sys requests w schedule) := by
  induction schedule generalizing w with
  | nil => exact hw
  | cons x schedule ih => exact ih (hw.step hframe x)

theorem current_idle (s : σ) : Current sys view requests (idle s) where
  held := by
    intro i h hi
    cases hi
  log := by
    intro c hc
    cases hc

theorem current_run (hframe : Framed sys view) (s : σ) (schedule : List Step) :
    Current sys view requests (InFlight.run sys requests (idle s) schedule) :=
  (current_idle s).run hframe schedule

end

section
variable (sys : System σ ρ π κ ε) (requests : Nat → ρ) {w : World σ π κ}

theorem run_log_mono (schedule : List Step) {c : Commit σ π κ} (hc : c ∈ w.log) :
    c ∈ (run sys requests w schedule).log := by
  induction schedule generalizing w with
  | nil => exact hc
  | cons x schedule ih =>
    apply ih
    rcases step_log sys requests w x with ⟨hsame, -⟩ | ⟨_, _, _, -, -, hnew, -⟩
    · rw [hsame]
      exact hc
    · rw [hnew]
      exact List.mem_append_left _ hc

/-- The invariant rule: what one more commit keeps, a run keeps, as long as every
commit of the run is one of those that keep it. -/
theorem run_log_invariant (P : List (Commit σ π κ) → σ → Prop) (Good : Commit σ π κ → Prop)
    (hstep : ∀ log c, P log c.before → Good c → P (log ++ [c]) c.after) (hw : P w.log w.store)
    (schedule : List Step) (hgood : ∀ c ∈ (run sys requests w schedule).log, Good c) :
    P (run sys requests w schedule).log (run sys requests w schedule).store := by
  induction schedule generalizing w with
  | nil => exact hw
  | cons x schedule ih =>
    apply ih _ hgood
    rcases step_log sys requests w x with ⟨hlog, hstore⟩ | ⟨i, h, s, -, -, hlog, hstore⟩
    · rw [hlog, hstore]
      exact hw
    · have hc : ⟨i, h.plan, h.since, w.store, s⟩ ∈ (step sys requests w x).log := by
        rw [hlog]
        exact List.mem_append_right _ List.mem_cons_self
      rw [hlog, hstore]
      exact hstep _ _ hw (hgood _ (run_log_mono sys requests schedule hc))

/-- The invariant rule with knowledge of the plans in flight: `J` is established
when a plan is made, survives what others commit, and lets the plan keep `I` when
it is carried out in a good way. -/
theorem run_held_invariant (I : σ → Prop) (J : π → List κ → σ → Prop) (Good : Commit σ π κ → Prop)
    (hread : ∀ i s p, I s → sys.read (requests i) s = .ok p → J p [] s)
    (hother : ∀ p since q s s', J p since s → sys.commit q s = .ok s' →
      J p (since ++ sys.writes q s) s')
    (hcommit : ∀ c : Commit σ π κ, I c.before → J c.plan c.since c.before →
      sys.commit c.plan c.before = .ok c.after → Good c → I c.after) (hw : I w.store)
    (hheld : ∀ i h, w.held i = some h → J h.plan h.since w.store) (schedule : List Step)
    (hgood : ∀ c ∈ (run sys requests w schedule).log, Good c) :
    I (run sys requests w schedule).store := by
  induction schedule generalizing w with
  | nil => exact hw
  | cons x schedule ih =>
    have hlast : ∀ c ∈ (step sys requests w x).log, Good c := fun c hc =>
      hgood c (run_log_mono sys requests schedule hc)
    have hnext : ∀ i h, (step sys requests w x).held i = some h →
        J h.plan h.since (step sys requests w x).store :=
      held_step (fun _ => J) (fun i p hp => hread i w.store p hw hp)
        (fun _ p since q s => hother p since q w.store s) hheld x
    refine ih ?_ hnext hgood
    rcases step_log sys requests w x with ⟨-, hsame⟩ | ⟨i, h, s, hi, hs, hnew, hstore⟩
    · rw [hsame]
      exact hw
    · rw [hnew] at hlast
      rw [hstore]
      exact hcommit ⟨i, h.plan, h.since, w.store, s⟩ hw (hheld i h hi) hs
        (hlast _ (List.mem_append_right _ List.mem_cons_self))

/-- What a plan is known to say when it is made, and is kept known by the commits of
others, is known of every plan that was carried out. -/
theorem run_log_held (J : π → List κ → σ → Prop) (hread : ∀ r s p, sys.read r s = .ok p → J p [] s)
    (hother : ∀ p since q s s', J p since s → sys.commit q s = .ok s' →
      J p (since ++ sys.writes q s) s')
    (hheld : ∀ i h, w.held i = some h → J h.plan h.since w.store)
    (hlog : ∀ c ∈ w.log, J c.plan c.since c.before ∧ sys.commit c.plan c.before = .ok c.after)
    (schedule : List Step) : ∀ c ∈ (run sys requests w schedule).log,
      J c.plan c.since c.before ∧ sys.commit c.plan c.before = .ok c.after := by
  induction schedule generalizing w with
  | nil => exact hlog
  | cons x schedule ih =>
    have hnext : ∀ i h, (step sys requests w x).held i = some h →
        J h.plan h.since (step sys requests w x).store :=
      held_step (fun _ => J) (fun i p hp => hread (requests i) w.store p hp)
        (fun _ p since q s => hother p since q w.store s) hheld x
    exact ih hnext (log_step hlog (fun i h _ hi hs => ⟨hheld i h hi, hs⟩) x)

/-- What marks the store for good, and is done only where its mark is missing, is done
once in a run. -/
theorem run_once {ι : Type} (f : π → Option ι) (Marked : ι → σ → Prop) (Good : Commit σ π κ → Prop)
    (hkeep : ∀ c, Good c → ∀ k, Marked k c.before → Marked k c.after)
    (hfirst : ∀ c, Good c → ∀ k, f c.plan = some k → ¬Marked k c.before ∧ Marked k c.after)
    (s : σ) (schedule : List Step)
    (hgood : ∀ c ∈ (run sys requests (idle s) schedule).log, Good c) :
    ((run sys requests (idle s) schedule).log.filterMap fun c => f c.plan).Nodup := by
  have hrun : ((run sys requests (idle s) schedule).log.filterMap fun c => f c.plan).Nodup ∧
      ∀ k ∈ (run sys requests (idle s) schedule).log.filterMap fun c => f c.plan,
        Marked k (run sys requests (idle s) schedule).store := by
    apply run_log_invariant sys requests (fun log s => (log.filterMap fun c => f c.plan).Nodup ∧
      ∀ k ∈ log.filterMap fun c => f c.plan, Marked k s) Good
    · intro log c ⟨hnodup, hmarked⟩ hc
      rw [List.filterMap_append]
      cases hf : f c.plan with
      | none =>
        simp only [List.filterMap_cons, hf, List.filterMap_nil, List.append_nil]
        exact ⟨hnodup, fun k hk => hkeep c hc k (hmarked k hk)⟩
      | some k =>
        have ⟨hbefore, hafter⟩ := hfirst c hc k hf
        simp only [List.filterMap_cons, hf, List.filterMap_nil]
        constructor
        · rw [List.nodup_append]
          refine ⟨hnodup, List.pairwise_singleton _ k, ?_⟩
          intro a ha b hb hab
          rw [List.mem_singleton.mp hb] at hab
          exact hbefore (hab ▸ hmarked a ha)
        · intro a ha
          rcases List.mem_append.mp ha with ha | ha
          · exact hkeep c hc a (hmarked a ha)
          · rw [List.mem_singleton.mp ha]
            exact hafter
    · exact ⟨List.nodup_nil, fun k hk => absurd hk List.not_mem_nil⟩
    · exact hgood
  exact hrun.1

/-- A reflexive and transitive relation that every commit respects holds between
an earlier and a later store of one run. -/
theorem run_related {R : σ → σ → Prop} (hrefl : ∀ s, R s s)
    (htrans : ∀ s t u, R s t → R t u → R s u) (w : World σ π κ) (earlier later : List Step)
    (hlog : ∀ c ∈ (run sys requests w (earlier ++ later)).log, R c.before c.after) :
    R (run sys requests w earlier).store (run sys requests w (earlier ++ later)).store := by
  rw [run_append] at hlog ⊢
  exact run_log_invariant sys requests (fun _ s => R (run sys requests w earlier).store s)
    (fun c => R c.before c.after) (fun _ c hbefore hc => htrans _ _ _ hbefore hc) (hrefl _) later
    hlog

end

end Cruxible.InFlight
