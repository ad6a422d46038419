import Mathlib.Data.List.Basic
import Mathlib.Data.List.Nodup
import Mathlib.Data.List.Perm.Subperm
import Mathlib.Order.Basic
import Mathlib.Tactic.Common

/-!
# Searching level by level under budgets

A search from a root goes level by level along candidate edges, up to a depth and within
a number of nodes and of edges. Where no budget trips it finds every node at its least
distance and every edge at a nearer node; where one does, something was left out.
-/
namespace Cruxible.BudgetedSearch

/-- The far end of an edge is admitted, or not, as a new node. Barred edges are counted
and not followed. -/
structure Search (ν ε : Type) where
  root : ν
  candidates : ν → List ε
  barred : ν → List ε
  far : ν → ε → ν
  admits : ν → Bool
  arrange : List ν → List ν
  arrange_perm : ∀ ns, (arrange ns).Perm ns
  /-- An edge has two ends. -/
  ends : ∀ {n m e}, e ∈ candidates n → e ∈ candidates m → far m e = n ∨ far m e = far n e

structure Budgets where
  maxNodes : Nat
  maxEdges : Nat

structure State (ν ε : Type) where
  returned : List (ν × Nat) := []
  collected : List ε := []
  tallied : List ε := []
  frontier : List ν
  nodeBudget : Bool := false
  edgeBudget : Bool := false

variable {ν ε : Type}

namespace Search

section
variable (q : Search ν ε)

def known (s : State ν ε) : List ν := q.root :: s.returned.map Prod.fst

variable [DecidableEq ν] [DecidableEq ε]

def tallyEdge (n : ν) (s : State ν ε) (e : ε) : State ν ε :=
  if e ∈ s.tallied then s
  else if q.far n e ∈ q.known s ∨ q.admits (q.far n e) = true then
    { s with tallied := s.tallied ++ [e] }
  else s

/-- An edge to a known node needs room for an edge, a new node needs room for both. -/
def tryEdge (b : Budgets) (level : Nat) (n : ν) (s : State ν ε) (e : ε) : State ν ε :=
  if s.edgeBudget = true then s
  else if e ∈ s.collected then s
  else if q.far n e ∈ q.known s then
    if b.maxEdges ≤ s.collected.length then { s with edgeBudget := true }
    else { s with collected := s.collected ++ [e] }
  else if q.admits (q.far n e) = false then s
  else if b.maxNodes ≤ s.returned.length then { s with nodeBudget := true }
  else if b.maxEdges ≤ s.collected.length then { s with edgeBudget := true }
  else
    { s with
      returned := s.returned ++ [(q.far n e, level + 1)]
      collected := s.collected ++ [e]
      frontier := s.frontier ++ [q.far n e] }

def expandNode (b : Budgets) (level : Nat) (s : State ν ε) (n : ν) : State ν ε :=
  if s.edgeBudget = true then s
  else (q.candidates n).foldl (q.tryEdge b level n) ((q.barred n).foldl (q.tallyEdge n) s)

def expandLevel (b : Budgets) (s : State ν ε) (level : Nat) : State ν ε :=
  if s.edgeBudget = true then s
  else (q.arrange s.frontier).foldl (q.expandNode b level) { s with frontier := [] }

def run (b : Budgets) (depth : Nat) : State ν ε :=
  (List.range depth).foldl (q.expandLevel b) { frontier := [q.root] }

omit [DecidableEq ν] [DecidableEq ε] in
/-- There is a walk of the length from the root to the node. -/
inductive Walk : ν → Nat → Prop where
  | root : Walk q.root 0
  | step {n : ν} {k : Nat} {e : ε} : Walk n k → e ∈ q.candidates n →
      q.admits (q.far n e) = true → Walk (q.far n e) (k + 1)

def Least (n : ν) (d : Nat) : Prop := q.Walk n d ∧ ∀ k, k < d → ¬q.Walk n k

def Leads (n : ν) (e : ε) : Prop := q.far n e = q.root ∨ q.admits (q.far n e) = true

/-- The edge is a candidate at a node nearer than the depth. -/
def Within (depth : Nat) (e : ε) : Prop :=
  ∃ n d, d < depth ∧ q.Walk n d ∧ e ∈ q.candidates n ∧ q.Leads n e

def BarredWithin (depth : Nat) (e : ε) : Prop :=
  ∃ n d, d < depth ∧ q.Walk n d ∧ e ∈ q.barred n ∧ q.Leads n e

end

variable {q : Search ν ε} {n : ν} {t : State ν ε} {b : Budgets} {depth : Nat}

theorem Walk.least {k : Nat} (h : q.Walk n k) : ∃ d, d ≤ k ∧ q.Least n d := by
  induction k using Nat.strongRecOn with
  | _ k ih =>
    by_cases hless : ∃ j, j < k ∧ q.Walk n j
    · have ⟨j, hj, hwalk⟩ := hless
      have ⟨d, hd, hleast⟩ := ih j hj hwalk
      exact ⟨d, by omega, hleast⟩
    · exact ⟨k, Nat.le_refl k, h, fun j hj hwalk => hless ⟨j, hj, hwalk⟩⟩

theorem Least.unique {d d' : Nat} (h : q.Least n d) (h' : q.Least n d') : d = d' := by
  by_contra hne
  rcases Nat.lt_or_gt_of_ne hne with hlt | hgt
  · exact h'.2 d hlt h.1
  · exact h.2 d' hgt h'.1

theorem admits_of_walk {k : Nat} (h : q.Walk n k) : n = q.root ∨ q.admits n = true := by
  cases h with
  | root => exact .inl rfl
  | step _ _ hadmits => exact .inr hadmits

section
variable [DecidableEq ν] [DecidableEq ε] {b : Budgets}

/-- What trying an edge comes to. -/
inductive Tried (q : Search ν ε) (b : Budgets) (level : Nat) (n : ν) (s : State ν ε) (e : ε) :
    State ν ε → Prop where
  | stopped : s.edgeBudget = true → Tried q b level n s e s
  | again : e ∈ s.collected → Tried q b level n s e s
  | refused : q.far n e ∉ q.known s → q.admits (q.far n e) = false → Tried q b level n s e s
  | crossed : s.edgeBudget = false → e ∉ s.collected → q.far n e ∈ q.known s →
      s.collected.length < b.maxEdges →
      Tried q b level n s e { s with collected := s.collected ++ [e] }
  | edgeFull : e ∉ s.collected → q.far n e ∈ q.known s ∨ q.admits (q.far n e) = true →
      b.maxEdges ≤ s.collected.length → Tried q b level n s e { s with edgeBudget := true }
  | nodeFull : q.far n e ∉ q.known s → q.admits (q.far n e) = true →
      b.maxNodes ≤ s.returned.length → Tried q b level n s e { s with nodeBudget := true }
  | found : s.edgeBudget = false → e ∉ s.collected → q.far n e ∉ q.known s → q.admits (q.far n e) = true →
      s.returned.length < b.maxNodes → s.collected.length < b.maxEdges →
      Tried q b level n s e
        { s with
          returned := s.returned ++ [(q.far n e, level + 1)]
          collected := s.collected ++ [e]
          frontier := s.frontier ++ [q.far n e] }

theorem tryEdge_tried (q : Search ν ε) (b : Budgets) (level : Nat) (n : ν) (s : State ν ε) (e : ε) :
    Tried q b level n s e (q.tryEdge b level n s e) := by
  unfold tryEdge
  split_ifs with hstop hagain hknown hroom hadmits hnodes hroom
  · exact .stopped hstop
  · exact .again hagain
  · exact .edgeFull hagain (.inl hknown) hroom
  · exact .crossed (by simpa using hstop) hagain hknown (Nat.lt_of_not_le hroom)
  · exact .refused hknown hadmits
  · exact .nodeFull hknown (by simpa using hadmits) hnodes
  · exact .edgeFull hagain (.inr (by simpa using hadmits)) hroom
  · exact .found (by simpa using hstop) hagain hknown (by simpa using hadmits)
      (Nat.lt_of_not_le hnodes) (Nat.lt_of_not_le hroom)

end

/-- What is known, collected, tallied or flagged stays so, and a new node is in the
frontier under the label of the level. -/
structure Grows (q : Search ν ε) (level : Nat) (s t : State ν ε) : Prop where
  known : ∀ x ∈ q.known s, x ∈ q.known t
  collected : ∀ e ∈ s.collected, e ∈ t.collected
  tallied : ∀ e ∈ s.tallied, e ∈ t.tallied
  frontier : ∀ x ∈ s.frontier, x ∈ t.frontier
  fresh : ∀ x ∈ q.known t, x ∈ q.known s ∨ x ∈ t.frontier
  labels : ∀ p ∈ t.returned, p ∈ s.returned ∨ p.2 = level + 1 ∧ p.1 ∉ q.known s
  nodeBudget : s.nodeBudget = true → t.nodeBudget = true
  edgeBudget : s.edgeBudget = true → t.edgeBudget = true

theorem Grows.refl (level : Nat) (s : State ν ε) : Grows q level s s where
  known _ := id
  collected _ := id
  tallied _ := id
  frontier _ := id
  fresh _ := .inl
  labels _ := .inl
  nodeBudget := id
  edgeBudget := id

variable {level : Nat} {s : State ν ε}

theorem Grows.trans {u : State ν ε} (h : Grows q level s t) (h' : Grows q level t u) :
    Grows q level s u where
  known x hx := h'.known x (h.known x hx)
  collected e he := h'.collected e (h.collected e he)
  tallied e he := h'.tallied e (h.tallied e he)
  frontier x hx := h'.frontier x (h.frontier x hx)
  fresh x hx := by
    rcases h'.fresh x hx with hx | hx
    · rcases h.fresh x hx with hx | hx
      · exact .inl hx
      · exact .inr (h'.frontier x hx)
    · exact .inr hx
  labels p hp := by
    rcases h'.labels p hp with hp | ⟨hlevel, hp⟩
    · exact h.labels p hp
    · exact .inr ⟨hlevel, fun hs => hp (h.known p.1 hs)⟩
  nodeBudget hb := h'.nodeBudget (h.nodeBudget hb)
  edgeBudget hb := h'.edgeBudget (h.edgeBudget hb)

theorem grows_foldl {α : Type} {f : State ν ε → α → State ν ε} (hf : ∀ s a, Grows q level s (f s a))
    (as : List α) (s : State ν ε) : Grows q level s (as.foldl f s) := by
  induction as generalizing s with
  | nil => exact Grows.refl level s
  | cons a as ih => exact (hf s a).trans (ih (f s a))

theorem flag_false {x y : Bool} (h : x = true → y = true) (hy : y = false) : x = false := by
  cases x with
  | false => rfl
  | true =>
    rw [h rfl] at hy
    cases hy

/-- What a turn brings about, unless a budget trips, holds of every turn at the end. -/
theorem settled_foldl {α : Type} {f : State ν ε → α → State ν ε} {P : State ν ε → α → Prop}
    (hgrows : ∀ s a, Grows q level s (f s a))
    (hkeeps : ∀ {s t a}, Grows q level s t → P s a → P t a) {as : List α}
    (hsettles : ∀ s, ∀ a ∈ as, (f s a).nodeBudget = false →
      (f s a).edgeBudget = false → P (f s a) a) (hn : (as.foldl f s).nodeBudget = false)
    (he : (as.foldl f s).edgeBudget = false) : ∀ a ∈ as, P (as.foldl f s) a := by
  induction as generalizing s with
  | nil => simp
  | cons a as ih =>
    have hgrow := grows_foldl hgrows as (f s a)
    intro a' ha'
    rcases List.mem_cons.mp ha' with rfl | ha'
    · apply hkeeps hgrow
      exact hsettles s a' List.mem_cons_self (flag_false hgrow.nodeBudget hn)
        (flag_false hgrow.edgeBudget he)
    · exact ih (fun s b hb => hsettles s b (List.mem_cons_of_mem a hb)) hn he a' ha'

theorem mem_known_append {x y : ν} {d : Nat} {cs : List ε} {ns : List ν} :
    x ∈ q.known { s with returned := s.returned ++ [(y, d)], collected := cs, frontier := ns } ↔
      x ∈ q.known s ∨ x = y := by
  simp [Search.known, or_assoc]

section
variable [DecidableEq ν] [DecidableEq ε] {b : Budgets}

omit [DecidableEq ν] [DecidableEq ε] in
theorem Tried.grows {n : ν} {t : State ν ε} {e : ε} (h : Tried q b level n s e t) :
    Grows q level s t := by
  cases h with
  | stopped | again | refused => exact Grows.refl level s
  | crossed => exact { Grows.refl level s with collected := fun e he => List.mem_append_left _ he }
  | edgeFull => exact { Grows.refl level s with edgeBudget := fun _ => rfl }
  | nodeFull => exact { Grows.refl level s with nodeBudget := fun _ => rfl }
  | found =>
    refine ⟨fun x hx => mem_known_append.mpr (.inl hx), fun e he => List.mem_append_left _ he,
      fun _ => id, fun x hx => List.mem_append_left _ hx, ?_, ?_, id, id⟩
    · intro x hx
      rcases mem_known_append.mp hx with hx | hx
      · exact .inl hx
      · exact .inr (by simp [hx])
    · intro p hp
      rcases List.mem_append.mp hp with hp | hp
      · exact .inl hp
      · rw [List.mem_singleton.mp hp]
        exact .inr ⟨rfl, by assumption⟩

theorem tryEdge_grows (level : Nat) (n : ν) (s : State ν ε) (e : ε) :
    Grows q level s (q.tryEdge b level n s e) :=
  (tryEdge_tried q b level n s e).grows

theorem tallyEdge_cases (q : Search ν ε) (n : ν) (s : State ν ε) (e : ε) :
    (q.tallyEdge n s e = s ∧ (e ∈ s.tallied ∨ ¬(q.far n e ∈ q.known s ∨
        q.admits (q.far n e) = true))) ∨
      q.tallyEdge n s e = { s with tallied := s.tallied ++ [e] } ∧ e ∉ s.tallied ∧
        (q.far n e ∈ q.known s ∨ q.admits (q.far n e) = true) := by
  unfold tallyEdge
  split_ifs with hagain hopen
  · exact .inl ⟨rfl, .inl hagain⟩
  · exact .inr ⟨rfl, hagain, hopen⟩
  · exact .inl ⟨rfl, .inr hopen⟩

theorem tallyEdge_grows (level : Nat) (n : ν) (s : State ν ε) (e : ε) :
    Grows q level s (q.tallyEdge n s e) := by
  rcases tallyEdge_cases q n s e with ⟨h, _⟩ | ⟨h, _⟩
  · rw [h]
    exact Grows.refl level s
  · rw [h]
    exact { Grows.refl level s with tallied := fun e he => List.mem_append_left _ he }

theorem expandNode_grows (level : Nat) (s : State ν ε) (n : ν) :
    Grows q level s (q.expandNode b level s n) := by
  unfold expandNode
  split_ifs
  · exact Grows.refl level s
  · exact (grows_foldl (tallyEdge_grows level n) _ s).trans (grows_foldl (tryEdge_grows level n) _ _)

end

/-- What every state of a run to the depth keeps. Where a budget tripped, what it left out
is named. -/
structure Sound (q : Search ν ε) (b : Budgets) (depth : Nat) (s : State ν ε) : Prop where
  distinct : (q.known s).Nodup
  walks : ∀ p ∈ s.returned, q.Walk p.1 p.2 ∧ p.2 ≤ depth
  edges : ∀ e ∈ s.collected, q.Within depth e
  once : s.collected.Nodup
  closed : ∀ e ∈ s.collected, ∀ m, e ∈ q.candidates m → q.far m e ∈ q.known s
  barred : ∀ e ∈ s.tallied, q.BarredWithin depth e
  barredOnce : s.tallied.Nodup
  nodeBudget : s.nodeBudget = true → b.maxNodes ≤ s.returned.length ∧
    ∃ x d, d ≤ depth ∧ q.Walk x d ∧ x ∉ q.known s
  edgeBudget : s.edgeBudget = true → b.maxEdges ≤ s.collected.length ∧
    ∃ e, q.Within depth e ∧ e ∉ s.collected

/-- The nodes of a frontier are known and a level away. -/
def FrontierAt (q : Search ν ε) (level : Nat) (s : State ν ε) : Prop :=
  ∀ x ∈ s.frontier, x ∈ q.known s ∧ q.Walk x level

theorem Sound.walk_of_known (h : Sound q b depth s) {x : ν} (hx : x ∈ q.known s) :
    ∃ k, q.Walk x k := by
  rcases List.mem_cons.mp hx with rfl | hx
  · exact ⟨0, Walk.root⟩
  · have ⟨p, hp, hpx⟩ := List.mem_map.mp hx
    exact ⟨p.2, hpx ▸ (h.walks p hp).1⟩

theorem Sound.leads (h : Sound q b depth s) {e : ε}
    (hopen : q.far n e ∈ q.known s ∨ q.admits (q.far n e) = true) : q.Leads n e := by
  rcases hopen with hknown | hadmits
  · have ⟨k, hwalk⟩ := h.walk_of_known hknown
    exact admits_of_walk hwalk
  · exact .inr hadmits

section
variable {b : Budgets} {depth level : Nat} {n : ν} {s t : State ν ε} {e : ε}

/-- A new edge at a known node keeps the ends of the collected edges known. -/
theorem closed_append {cs : List ε} {known : List ν} (hn : n ∈ known) (he : e ∈ q.candidates n)
    (hfar : q.far n e ∈ known) (hclosed : ∀ e ∈ cs, ∀ m, e ∈ q.candidates m → q.far m e ∈ known) :
    ∀ e' ∈ cs ++ [e], ∀ m, e' ∈ q.candidates m → q.far m e' ∈ known := by
  intro e' he' m hm
  rcases List.mem_append.mp he' with he' | he'
  · exact hclosed e' he' m hm
  · rw [List.mem_singleton.mp he'] at hm ⊢
    rcases q.ends he hm with h | h
    · rw [h]
      exact hn
    · rw [h]
      exact hfar

theorem nodup_append_singleton {α : Type} {xs : List α} {x : α} (h : xs.Nodup) (hx : x ∉ xs) :
    (xs ++ [x]).Nodup :=
  List.nodup_append.mpr ⟨h, List.nodup_singleton x, fun a ha c hc hac =>
    hx (by rw [← List.mem_singleton.mp hc, ← hac]; exact ha)⟩

theorem forall_append_singleton {α : Type} {P : α → Prop} {xs : List α} {x : α}
    (h : ∀ a ∈ xs, P a) (hx : P x) : ∀ a ∈ xs ++ [x], P a := by
  intro a ha
  rcases List.mem_append.mp ha with ha | ha
  · exact h a ha
  · rw [List.mem_singleton.mp ha]
    exact hx

theorem Tried.sound (h : Tried q b level n s e t) (hs : Sound q b depth s)
    (hwalk : q.Walk n level) (hlevel : level < depth) (hn : n ∈ q.known s)
    (he : e ∈ q.candidates n) : Sound q b depth t := by
  cases h with
  | stopped | again | refused => exact hs
  | crossed hrunning hfresh hknown hroom =>
    have hwithin : q.Within depth e := ⟨n, level, hlevel, hwalk, he, hs.leads (.inl hknown)⟩
    exact { hs with
      edges := forall_append_singleton hs.edges hwithin
      once := nodup_append_singleton hs.once hfresh
      closed := closed_append hn he hknown hs.closed
      edgeBudget := by
        intro hb
        rw [hrunning] at hb
        cases hb }
  | edgeFull hfresh hopen hroom =>
    exact { hs with
      edgeBudget := fun _ => ⟨hroom, e, ⟨n, level, hlevel, hwalk, he, hs.leads hopen⟩, hfresh⟩ }
  | nodeFull hunknown hadmits hroom =>
    exact { hs with
      nodeBudget := fun _ => ⟨hroom, q.far n e, level + 1, hlevel, .step hwalk he hadmits,
        hunknown⟩ }
  | found hrunning hfresh hunknown hadmits hnodes hroom =>
    have hwithin : q.Within depth e := ⟨n, level, hlevel, hwalk, he, .inr hadmits⟩
    have hgrow : ∀ x ∈ q.known s, x ∈ q.known s ++ [q.far n e] := fun x =>
      List.mem_append_left _
    have hknown : q.known s ++ [q.far n e] = q.root ::
        (s.returned ++ [(q.far n e, level + 1)]).map Prod.fst := by
      simp [Search.known]
    refine ⟨?_, ?_, forall_append_singleton hs.edges hwithin,
      nodup_append_singleton hs.once hfresh, ?_, hs.barred, hs.barredOnce, ?_, ?_⟩
    · unfold Search.known
      rw [← hknown]
      exact nodup_append_singleton hs.distinct hunknown
    · exact forall_append_singleton hs.walks ⟨.step hwalk he hadmits, hlevel⟩
    · unfold Search.known
      rw [← hknown]
      exact closed_append (hgrow n hn) he (List.mem_append_right _ (List.mem_singleton_self _))
        fun e he m hm => hgrow _ (hs.closed e he m hm)
    · intro hb
      have hfull := (hs.nodeBudget hb).1
      omega
    · intro hb
      rw [hrunning] at hb
      cases hb

/-- What is found at a level is a level further on. -/
theorem Tried.frontierAt (h : Tried q b level n s e t) (hs : FrontierAt q (level + 1) s)
    (hwalk : q.Walk n level) (he : e ∈ q.candidates n) : FrontierAt q (level + 1) t := by
  cases h with
  | stopped | again | refused | crossed | edgeFull | nodeFull => exact hs
  | found _ _ _ hadmits =>
    intro x hx
    rcases List.mem_append.mp hx with hx | hx
    · exact ⟨mem_known_append.mpr (.inl (hs x hx).1), (hs x hx).2⟩
    · rw [List.mem_singleton.mp hx]
      exact ⟨mem_known_append.mpr (.inr rfl), .step hwalk he hadmits⟩

variable [DecidableEq ν] [DecidableEq ε]

theorem tallyEdge_sound (hs : Sound q b depth s) (hwalk : q.Walk n level) (hlevel : level < depth)
    (he : e ∈ q.barred n) : Sound q b depth (q.tallyEdge n s e) := by
  rcases tallyEdge_cases q n s e with ⟨h, _⟩ | ⟨h, hfresh, hopen⟩
  · rw [h]
    exact hs
  · rw [h]
    exact { hs with
      barred := forall_append_singleton hs.barred ⟨n, level, hlevel, hwalk, he, hs.leads hopen⟩
      barredOnce := nodup_append_singleton hs.barredOnce hfresh }

theorem tallyEdge_frontier (q : Search ν ε) (n : ν) (s : State ν ε) (e : ε) :
    (q.tallyEdge n s e).frontier = s.frontier ∧ q.known (q.tallyEdge n s e) = q.known s := by
  rcases tallyEdge_cases q n s e with ⟨h, _⟩ | ⟨h, _⟩
  · rw [h]
    exact ⟨rfl, rfl⟩
  · rw [h]
    exact ⟨rfl, rfl⟩

/-- A state between two turns of a level. -/
structure Midway (q : Search ν ε) (b : Budgets) (depth level : Nat) (s : State ν ε) : Prop where
  sound : Sound q b depth s
  frontierAt : FrontierAt q (level + 1) s

variable {es : List ε}

theorem tallies_midway (hs : Midway q b depth level s) (hwalk : q.Walk n level)
    (hlevel : level < depth) (hes : ∀ e ∈ es, e ∈ q.barred n) :
    Midway q b depth level (es.foldl (q.tallyEdge n) s) := by
  induction es generalizing s with
  | nil => exact hs
  | cons e es ih =>
    apply ih _ fun e' he' => hes e' (List.mem_cons_of_mem e he')
    have ⟨hfrontier, hknown⟩ := tallyEdge_frontier q n s e
    constructor
    case sound => exact tallyEdge_sound hs.sound hwalk hlevel (hes e List.mem_cons_self)
    case frontierAt =>
      unfold FrontierAt
      rw [hfrontier, hknown]
      exact hs.frontierAt

theorem tries_midway (hs : Midway q b depth level s) (hwalk : q.Walk n level)
    (hlevel : level < depth) (hn : n ∈ q.known s) (hes : ∀ e ∈ es, e ∈ q.candidates n) :
    Midway q b depth level (es.foldl (q.tryEdge b level n) s) := by
  induction es generalizing s with
  | nil => exact hs
  | cons e es ih =>
    have htried := tryEdge_tried q b level n s e
    have he := hes e List.mem_cons_self
    exact ih ⟨htried.sound hs.sound hwalk hlevel hn he, htried.frontierAt hs.frontierAt hwalk he⟩
      (htried.grows.known n hn) fun e' he' => hes e' (List.mem_cons_of_mem e he')

theorem expandNode_midway (hs : Midway q b depth level s) (hwalk : q.Walk n level)
    (hlevel : level < depth) (hn : n ∈ q.known s) :
    Midway q b depth level (q.expandNode b level s n) := by
  unfold expandNode
  split_ifs
  · exact hs
  · exact tries_midway (tallies_midway hs hwalk hlevel fun _ => id) hwalk hlevel
      ((grows_foldl (tallyEdge_grows level n) _ s).known n hn) fun _ => id

theorem expandNodes_midway (hs : Midway q b depth level s) (hlevel : level < depth) {ns : List ν}
    (hns : ∀ n ∈ ns, n ∈ q.known s ∧ q.Walk n level) :
    Midway q b depth level (ns.foldl (q.expandNode b level) s) := by
  induction ns generalizing s with
  | nil => exact hs
  | cons n ns ih =>
    have ⟨hn, hwalk⟩ := hns n List.mem_cons_self
    apply ih (expandNode_midway hs hwalk hlevel hn)
    intro m hm
    have ⟨hm', hwalk'⟩ := hns m (List.mem_cons_of_mem n hm)
    exact ⟨(expandNode_grows level s n).known m hm', hwalk'⟩

/-- A level of a run that has not been stopped. -/
theorem expandLevel_sound (hs : Sound q b depth s) (hfrontier : FrontierAt q level s)
    (hlevel : level < depth) :
    Sound q b depth (q.expandLevel b s level) ∧
      ((q.expandLevel b s level).edgeBudget = false →
        FrontierAt q (level + 1) (q.expandLevel b s level)) := by
  unfold expandLevel
  split_ifs with hstop
  · exact ⟨hs, fun h => by rw [hstop] at h; cases h⟩
  · have hstart : Midway q b depth level { s with frontier := [] } :=
      ⟨{ hs with }, fun x hx => by cases hx⟩
    have hnodes : ∀ n ∈ q.arrange s.frontier, n ∈ q.known s ∧ q.Walk n level := fun n hn =>
      hfrontier n ((q.arrange_perm s.frontier).mem_iff.mp hn)
    have hlevels := expandNodes_midway hstart hlevel hnodes
    exact ⟨hlevels.sound, fun _ => hlevels.frontierAt⟩

end

/-- Nothing at the node is left to be done. -/
structure Settled (q : Search ν ε) (s : State ν ε) (n : ν) : Prop where
  collected : ∀ e ∈ q.candidates n, q.Leads n e → e ∈ s.collected
  tallied : ∀ e ∈ q.barred n, q.Leads n e → e ∈ s.tallied

theorem Settled.grows (h : Settled q s n) (hgrows : Grows q level s t) : Settled q t n where
  collected e he hleads := hgrows.collected e (h.collected e he hleads)
  tallied e he hleads := hgrows.tallied e (h.tallied e he hleads)

/-- What a run without a tripped budget has done before it expands a level. -/
structure Complete (q : Search ν ε) (level : Nat) (s : State ν ε) : Prop where
  near : ∀ x k, k ≤ level → q.Walk x k → x ∈ q.known s
  labels : ∀ p ∈ s.returned, q.Least p.1 p.2 ∧ p.2 ≤ level
  frontier : ∀ x, q.Least x level → x ∈ s.frontier
  settled : ∀ n k, k < level → q.Walk n k → Settled q s n

section
variable [DecidableEq ν] [DecidableEq ε] {b : Budgets} {depth level : Nat} {n : ν}
  {s t : State ν ε} {e : ε}

omit [DecidableEq ν] [DecidableEq ε] in
theorem root_mem_known (q : Search ν ε) (s : State ν ε) : q.root ∈ q.known s := List.mem_cons_self

omit [DecidableEq ν] [DecidableEq ε] in
theorem open_of_leads (hleads : q.Leads n e) (s : State ν ε) :
    q.far n e ∈ q.known s ∨ q.admits (q.far n e) = true := by
  rcases hleads with hroot | hadmits
  · exact .inl (hroot ▸ root_mem_known q s)
  · exact .inr hadmits

omit [DecidableEq ν] [DecidableEq ε] in
theorem Tried.settles (h : Tried q b level n s e t) (hn : t.nodeBudget = false)
    (he : t.edgeBudget = false) (hleads : q.Leads n e) : e ∈ t.collected := by
  cases h with
  | stopped hstop =>
    rw [hstop] at he
    cases he
  | again hagain => exact hagain
  | refused hunknown hrefused =>
    rcases open_of_leads hleads s with hopen | hopen
    · exact absurd hopen hunknown
    · rw [hopen] at hrefused
      cases hrefused
  | crossed => exact List.mem_append_right _ (List.mem_singleton_self e)
  | edgeFull => cases he
  | nodeFull => cases hn
  | found => exact List.mem_append_right _ (List.mem_singleton_self e)

theorem tallyEdge_settles (hleads : q.Leads n e) (s : State ν ε) :
    e ∈ (q.tallyEdge n s e).tallied := by
  rcases tallyEdge_cases q n s e with ⟨h, hagain | hclosed⟩ | ⟨h, _⟩
  · rw [h]
    exact hagain
  · exact absurd (open_of_leads hleads s) hclosed
  · rw [h]
    exact List.mem_append_right _ (List.mem_singleton_self e)

theorem tallies_settle (level : Nat) (s : State ν ε) {es : List ε} :
    ∀ e ∈ es, q.Leads n e → e ∈ (es.foldl (q.tallyEdge n) s).tallied := by
  induction es generalizing s with
  | nil => simp
  | cons e es ih =>
    intro e' he' hleads
    rcases List.mem_cons.mp he' with rfl | he'
    · exact (grows_foldl (tallyEdge_grows level n) es _).tallied e' (tallyEdge_settles hleads s)
    · exact ih _ e' he' hleads

theorem expandNode_settles (hn : (q.expandNode b level s n).nodeBudget = false)
    (he : (q.expandNode b level s n).edgeBudget = false) :
    Settled q (q.expandNode b level s n) n := by
  unfold expandNode at hn he ⊢
  split_ifs at hn he ⊢ with hstop
  · rw [hstop] at he
    cases he
  · have hgrows := grows_foldl (tryEdge_grows (q := q) (b := b) level n) (q.candidates n)
      ((q.barred n).foldl (q.tallyEdge n) s)
    constructor
    case collected =>
      exact settled_foldl (P := fun s e => q.Leads n e → e ∈ s.collected)
        (tryEdge_grows level n) (fun hgrows h hleads => hgrows.collected _ (h hleads))
        (fun s e _ hn he => (tryEdge_tried q b level n s e).settles hn he) hn he
    case tallied =>
      intro e he hleads
      exact hgrows.tallied e (tallies_settle level s e he hleads)

theorem expandLevel_complete (hs : Sound q b depth s) (hfrontier : FrontierAt q level s)
    (hcomplete : Complete q level s) (hlevel : level < depth)
    (hn : (q.expandLevel b s level).nodeBudget = false)
    (he : (q.expandLevel b s level).edgeBudget = false) :
    Complete q (level + 1) (q.expandLevel b s level) := by
  have hsound := (expandLevel_sound hs hfrontier hlevel).1
  unfold expandLevel at hn he hsound ⊢
  split_ifs at hn he hsound ⊢ with hstop
  · rw [hstop] at he
    cases he
  generalize ht : (q.arrange s.frontier).foldl (q.expandNode b level) { s with frontier := [] } = t
    at hn he hsound ⊢
  have hgrows : Grows q level { s with frontier := [] } t := by
    rw [← ht]
    exact grows_foldl (expandNode_grows level) _ _
  have hdone : ∀ n ∈ q.arrange s.frontier, Settled q t n := by
    rw [← ht] at hn he ⊢
    exact settled_foldl (expandNode_grows level) (fun hgrows h => h.grows hgrows)
      (fun s n _ hn he => expandNode_settles hn he) hn he
  have hearlier : ∀ n k, k < level → q.Walk n k → Settled q t n := by
    intro n k hk hwalk
    have hsettled := hcomplete.settled n k hk hwalk
    exact ⟨fun e he hleads => hgrows.collected e (hsettled.collected e he hleads),
      fun e he hleads => hgrows.tallied e (hsettled.tallied e he hleads)⟩
  have hhere : ∀ n, q.Walk n level → Settled q t n := by
    intro n hwalk
    have ⟨d, hd, hleast⟩ := hwalk.least
    by_cases heq : d = level
    · rw [heq] at hleast
      exact hdone n ((q.arrange_perm s.frontier).mem_iff.mpr (hcomplete.frontier n hleast))
    · exact hearlier n d (by omega) hleast.1
  have hnear : ∀ x k, k ≤ level + 1 → q.Walk x k → x ∈ q.known t := by
    intro x k hk hwalk
    by_cases hnearer : k ≤ level
    · exact hgrows.known x (hcomplete.near x k hnearer hwalk)
    · cases hwalk with
      | root => exact root_mem_known q t
      | @step n k e hwalk he hadmits =>
        have hlevel : k = level := by omega
        rw [hlevel] at hwalk
        exact hsound.closed e ((hhere n hwalk).collected e he (.inr hadmits)) n he
  refine ⟨hnear, ?_, ?_, ?_⟩
  · intro p hp
    rcases hgrows.labels p hp with hp | ⟨hlabel, hunknown⟩
    · have ⟨hleast, hle⟩ := hcomplete.labels p hp
      exact ⟨hleast, by omega⟩
    · refine ⟨⟨(hsound.walks p hp).1, ?_⟩, by omega⟩
      intro k hk hwalk
      exact hunknown (hcomplete.near p.1 k (by omega) hwalk)
  · intro x hleast
    rcases hgrows.fresh x (hnear x (level + 1) (Nat.le_refl _) hleast.1) with hx | hx
    · rcases List.mem_cons.mp hx with rfl | hx
      · exact absurd Walk.root (hleast.2 0 (by omega))
      · have ⟨p, hp, hpx⟩ := List.mem_map.mp hx
        have ⟨hlabel, hle⟩ := hcomplete.labels p hp
        rw [hpx] at hlabel
        have heq := hlabel.unique hleast
        omega
    · exact hx
  · intro n k hk hwalk
    by_cases hnearer : k < level
    · exact hearlier n k hnearer hwalk
    · have heq : k = level := by omega
      rw [heq] at hwalk
      exact hhere n hwalk

theorem run_succ (q : Search ν ε) (b : Budgets) (depth : Nat) :
    q.run b (depth + 1) = q.expandLevel b (q.run b depth) depth := by
  simp [Search.run, List.range_succ]

theorem flags_of_expandLevel (hn : (q.expandLevel b s level).nodeBudget = false)
    (he : (q.expandLevel b s level).edgeBudget = false) :
    s.nodeBudget = false ∧ s.edgeBudget = false := by
  unfold expandLevel at hn he
  split_ifs at hn he with hstop
  · exact ⟨hn, he⟩
  · have hgrows := grows_foldl (expandNode_grows (q := q) (b := b) level) (q.arrange s.frontier)
      { s with frontier := [] }
    exact ⟨flag_false hgrows.nodeBudget hn, flag_false hgrows.edgeBudget he⟩

theorem run_sound (q : Search ν ε) (b : Budgets) {k : Nat} (hk : k ≤ depth) :
    Sound q b depth (q.run b k) ∧
      ((q.run b k).edgeBudget = false → FrontierAt q k (q.run b k)) := by
  induction k with
  | zero =>
    constructor
    case left =>
      exact ⟨List.nodup_singleton _, nofun, nofun, List.nodup_nil, nofun, nofun, List.nodup_nil,
        nofun, nofun⟩
    case right =>
      intro _ x hx
      rw [List.mem_singleton.mp hx]
      exact ⟨root_mem_known q _, .root⟩
  | succ k ih =>
    have ⟨hsound, hfrontier⟩ := ih (by omega)
    rw [run_succ]
    by_cases hstop : (q.run b k).edgeBudget = true
    · have hsame : q.expandLevel b (q.run b k) k = q.run b k := if_pos hstop
      rw [hsame]
      exact ⟨hsound, fun h => by rw [hstop] at h; cases h⟩
    · exact expandLevel_sound hsound (hfrontier (by simpa using hstop)) (by omega)

/-- A state holds no more than the budgets allow. -/
def Fits (b : Budgets) (s : State ν ε) : Prop :=
  s.returned.length ≤ b.maxNodes ∧ s.collected.length ≤ b.maxEdges

omit [DecidableEq ν] [DecidableEq ε] in
theorem Tried.fits (h : Tried q b level n s e t) (hs : Fits b s) : Fits b t := by
  obtain ⟨hnodes, hedges⟩ := hs
  cases h with
  | stopped | again | refused | edgeFull | nodeFull => exact ⟨hnodes, hedges⟩
  | crossed _ _ _ hroom => exact ⟨hnodes, by simpa [Nat.add_one_le_iff] using hroom⟩
  | found _ _ _ _ hroom hroom' =>
    exact ⟨by simpa [Nat.add_one_le_iff] using hroom, by simpa [Nat.add_one_le_iff] using hroom'⟩

theorem expandNode_fits (level : Nat) (n : ν) (hs : Fits b s) :
    Fits b (q.expandNode b level s n) := by
  unfold expandNode
  split_ifs
  · exact hs
  · refine List.foldlRecOn _ _ (List.foldlRecOn _ _ hs ?_) ?_
    · intro s hs e _
      unfold tallyEdge
      split_ifs <;> exact hs
    · intro s hs e _
      exact (tryEdge_tried q b level n s e).fits hs

theorem run_fits (q : Search ν ε) (b : Budgets) (depth : Nat) : Fits b (q.run b depth) := by
  refine List.foldlRecOn _ _ ⟨Nat.zero_le _, Nat.zero_le _⟩ ?_
  intro s hs level _
  unfold expandLevel
  split_ifs
  · exact hs
  · exact List.foldlRecOn _ _ hs fun s hs n _ => expandNode_fits level n hs

theorem run_complete (q : Search ν ε) (b : Budgets) {k : Nat} (hk : k ≤ depth)
    (hn : (q.run b k).nodeBudget = false) (he : (q.run b k).edgeBudget = false) :
    Complete q k (q.run b k) := by
  induction k with
  | zero =>
    refine ⟨?_, nofun, ?_, fun n k hk => by omega⟩
    · intro x j hj hwalk
      have hzero : j = 0 := by omega
      rw [hzero] at hwalk
      cases hwalk
      exact root_mem_known q _
    · intro x hleast
      cases hleast.1
      exact List.mem_singleton_self _
  | succ k ih =>
    rw [run_succ] at hn he ⊢
    have ⟨hn', he'⟩ := flags_of_expandLevel hn he
    have hk' : k ≤ depth := by omega
    have ⟨hsound, hfrontier⟩ := run_sound q b hk'
    exact expandLevel_complete hsound (hfrontier he') (ih (by omega) hn' he') (by omega) hn he

/-- Whatever the budgets cut off, a node is returned at its least distance. -/
theorem run_least (q : Search ν ε) (b : Budgets) (k : Nat) :
    ∀ p ∈ (q.run b k).returned, q.Least p.1 p.2 := by
  induction k with
  | zero => nofun
  | succ k ih =>
    intro p hp
    have hsound := (run_sound q b k.le_refl).1
    have hsound' := (run_sound q b (k + 1).le_refl).1
    have hfits := (run_fits q b (k + 1)).1
    rw [run_succ, expandLevel] at hp hsound' hfits
    split_ifs at hp hsound' hfits with hstop
    · exact ih p hp
    have hgrows := grows_foldl (expandNode_grows (q := q) (b := b) k)
      (q.arrange (q.run b k).frontier) { q.run b k with frontier := [] }
    rcases hgrows.labels p hp with hp' | ⟨hlabel, hunknown⟩
    · exact ih p hp'
    refine ⟨(hsound'.walks p hp).1, fun j hj hwalk => hunknown ?_⟩
    by_cases hn : (q.run b k).nodeBudget = true
    · have hmore := (List.subperm_of_subset (List.nodup_cons.mpr ⟨hunknown, hsound.distinct⟩)
        (List.cons_subset.mpr ⟨List.mem_cons_of_mem _ (List.mem_map_of_mem hp),
          hgrows.known⟩)).length_le
      have hfull := (hsound.nodeBudget hn).1
      simp only [Search.known, List.length_cons, List.length_map] at hmore
      omega
    · exact (run_complete q b k.le_refl (by simpa using hn) (by simpa using hstop)).near _ j
        (by omega) hwalk

/-- No budget tripped. -/
def Untripped (s : State ν ε) : Prop := s.nodeBudget = false ∧ s.edgeBudget = false

/-- The nodes of an untripped run are those within the depth, at their least distances. -/
theorem returned_iff (h : Untripped (q.run b depth)) {x : ν} {d : Nat} :
    (x, d) ∈ (q.run b depth).returned ↔ x ≠ q.root ∧ d ≤ depth ∧ q.Least x d := by
  have hsound := (run_sound q b (Nat.le_refl depth)).1
  have hcomplete := run_complete q b (Nat.le_refl depth) h.1 h.2
  constructor
  case mp =>
    intro hx
    have ⟨hleast, hle⟩ := hcomplete.labels _ hx
    have hroot := (List.nodup_cons.mp hsound.distinct).1
    exact ⟨fun heq => hroot (List.mem_map.mpr ⟨(x, d), hx, heq⟩), hle, hleast⟩
  case mpr =>
    intro ⟨hroot, hle, hleast⟩
    rcases List.mem_cons.mp (hcomplete.near x d hle hleast.1) with hx | hx
    · exact absurd hx hroot
    · have ⟨⟨y, d'⟩, hp, hpx⟩ := List.mem_map.mp hx
      have hy : y = x := hpx
      have hleast' := (hcomplete.labels _ hp).1
      rw [hy] at hp hleast'
      rw [hleast.unique hleast']
      exact hp

theorem collected_iff (h : Untripped (q.run b depth)) :
    e ∈ (q.run b depth).collected ↔ q.Within depth e := by
  constructor
  case mp => exact (run_sound q b (Nat.le_refl depth)).1.edges e
  case mpr =>
    intro ⟨n, d, hd, hwalk, he, hleads⟩
    have hcomplete := run_complete q b (Nat.le_refl depth) h.1 h.2
    exact (hcomplete.settled n d hd hwalk).collected e he hleads

theorem tallied_iff (h : Untripped (q.run b depth)) :
    e ∈ (q.run b depth).tallied ↔ q.BarredWithin depth e := by
  constructor
  case mp => exact (run_sound q b (Nat.le_refl depth)).1.barred e
  case mpr =>
    intro ⟨n, d, hd, hwalk, he, hleads⟩
    have hcomplete := run_complete q b (Nat.le_refl depth) h.1 h.2
    exact (hcomplete.settled n d hd hwalk).tallied e he hleads

/-- A budget trips exactly when something of an untripped run is missing. -/
theorem tripped_iff {b' : Budgets} (h' : Untripped (q.run b' depth)) :
    ¬Untripped (q.run b depth) ↔
      (∃ p ∈ (q.run b' depth).returned, p ∉ (q.run b depth).returned) ∨
        ∃ e ∈ (q.run b' depth).collected, e ∉ (q.run b depth).collected := by
  have hsound := (run_sound q b (Nat.le_refl depth)).1
  constructor
  case mp =>
    intro htripped
    by_cases hn : (q.run b depth).nodeBudget = true
    · left
      have ⟨_, x, k, hk, hwalk, hunknown⟩ := hsound.nodeBudget hn
      have ⟨d, hd, hleast⟩ := hwalk.least
      have hroot : x ≠ q.root := by
        intro hx
        rw [hx] at hunknown
        exact hunknown (root_mem_known q _)
      refine ⟨(x, d), (returned_iff h').mpr ⟨hroot, by omega, hleast⟩, ?_⟩
      intro hx
      exact hunknown (List.mem_cons_of_mem _ (List.mem_map.mpr ⟨(x, d), hx, rfl⟩))
    · right
      have he : (q.run b depth).edgeBudget = true := by
        by_contra hne
        exact htripped ⟨by simpa using hn, by simpa using hne⟩
      have ⟨_, e, hwithin, hmissing⟩ := hsound.edgeBudget he
      exact ⟨e, (collected_iff h').mpr hwithin, hmissing⟩
  case mpr =>
    intro hmissing h
    rcases hmissing with ⟨⟨x, d⟩, hx, hmissing⟩ | ⟨e, he, hmissing⟩
    · exact hmissing ((returned_iff h).mpr ((returned_iff h').mp hx))
    · exact hmissing ((collected_iff h).mpr ((collected_iff h').mp he))

/-- Budgets for all the nodes and all the edges there are do not trip. -/
theorem untripped_of_room {nodes : List ν} {edges : List ε}
    (hnodes : ∀ n e, e ∈ q.candidates n → q.admits (q.far n e) = true → q.far n e ∈ nodes)
    (hedges : ∀ n e, e ∈ q.candidates n → e ∈ edges) (hn : nodes.length ≤ b.maxNodes)
    (he : edges.length ≤ b.maxEdges) : Untripped (q.run b depth) := by
  have hsound := (run_sound q b (Nat.le_refl depth)).1
  have hplace : ∀ {x : ν} {d : Nat}, x ≠ q.root → q.Walk x d → x ∈ nodes := by
    intro x d hroot hwalk
    cases hwalk with
    | root => exact absurd rfl hroot
    | step _ he hadmits => exact hnodes _ _ he hadmits
  constructor
  case left =>
    by_contra hflag
    have ⟨hfull, x, d, _, hwalk, hunknown⟩ := hsound.nodeBudget (by simpa using hflag)
    have ⟨hroot, hdistinct⟩ := List.nodup_cons.mp hsound.distinct
    have hsub : (x :: (q.run b depth).returned.map Prod.fst) ⊆ nodes := by
      intro y hy
      rcases List.mem_cons.mp hy with rfl | hy
      · exact hplace (fun h => hunknown (h ▸ root_mem_known q _)) hwalk
      · have ⟨p, hp, hpy⟩ := List.mem_map.mp hy
        rw [← hpy]
        exact hplace (fun h => hroot (List.mem_map.mpr ⟨p, hp, h⟩)) (hsound.walks p hp).1
    have hnodup : (x :: (q.run b depth).returned.map Prod.fst).Nodup :=
      List.nodup_cons.mpr ⟨fun hx => hunknown (List.mem_cons_of_mem _ hx), hdistinct⟩
    have hlength := (List.subperm_of_subset hnodup hsub).length_le
    simp only [List.length_cons, List.length_map] at hlength
    omega
  case right =>
    by_contra hflag
    have ⟨hfull, e, ⟨n, d, _, _, hcand, _⟩, hmissing⟩ := hsound.edgeBudget (by simpa using hflag)
    have hsub : (e :: (q.run b depth).collected) ⊆ edges := by
      intro e' he'
      rcases List.mem_cons.mp he' with rfl | he'
      · exact hedges n e' hcand
      · have ⟨n', _, _, _, hcand', _⟩ := hsound.edges e' he'
        exact hedges n' e' hcand'
    have hlength := (List.subperm_of_subset
      (List.nodup_cons.mpr ⟨hmissing, hsound.once⟩) hsub).length_le
    simp only [List.length_cons] at hlength
    omega

end

end Search

end Cruxible.BudgetedSearch
