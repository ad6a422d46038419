import Cruxible.StepPaths

/-!
# Queries for entities

A query for entities keeps the first path to each entity that a step meets, and
its rows are gated by the liveness of all entities on the path that was kept. The
entities on which a step starts are not results of it. What is found lies between
two sets that do not speak of an order: the ends of the live paths through the
steps, and the ends that only live paths lead to.
-/
namespace Cruxible.EntityTraversals
open PythonDict AssertionState Cruxible.Graph PropertyValidation Neighbors QueryEngine QueryCaps
  StepPaths
open Fallible (bind_eq_ok pure_eq_ok refuseIf_eq_ok foldlM_cons_eq_ok)

/-- Paths that make `k` hops from a path of `S`. -/
def After (r : StepRun) (S : TraversalState → Prop) : Nat → TraversalState → Prop
  | 0, t => S t
  | k + 1, t => ∃ s, After r S k s ∧ ∃ c ∈ hops r s, t = follow s c

/-- The paths that a step may go on from. -/
def Inside (r : StepRun) (S : TraversalState → Prop) (t : TraversalState) : Prop :=
  ∃ k < r.step.maxDepth, After r S k t

/-- The paths through a step, from those of `S`. -/
def Through (r : StepRun) (S : TraversalState → Prop) (t : TraversalState) : Prop :=
  ∃ s, Inside r S s ∧ ∃ c ∈ hops r s, r.collects c = true ∧ t = follow s c

def ThroughAll : List StepRun → (TraversalState → Prop) → TraversalState → Prop
  | [], S => S
  | r :: rs, S => ThroughAll rs (Through r S)

/-- Whichever path inside the step has led to `n`, it goes on to `m`. -/
def SurelyNext (r : StepRun) (S : TraversalState → Prop) (accepts : Candidate → Bool)
    (n m : NodeId) : Prop :=
  ∀ s, Inside r S s → s.current.nodeId = n →
    ∃ c ∈ hops r s, accepts c = true ∧ c.neighbor.nodeId = m

def SurelyAfter (r : StepRun) (S : TraversalState → Prop) (N : NodeId → Prop) :
    Nat → NodeId → Prop
  | 0, n => N n
  | k + 1, m => ∃ n, SurelyAfter r S N k n ∧ SurelyNext r S (fun _ => true) n m

/-- The entities that a step cannot miss when it starts on those of `N`: none of the
paths that it may start on ends in them. -/
def SurelyThrough (r : StepRun) (S : TraversalState → Prop) (N : NodeId → Prop) (m : NodeId) :
    Prop :=
  (∀ s, S s → s.current.nodeId ≠ m) ∧
    ∃ k < r.step.maxDepth, ∃ n, SurelyAfter r S N k n ∧ SurelyNext r S r.collects n m

def SurelyThroughAll : List StepRun → (TraversalState → Prop) → (NodeId → Prop) → NodeId → Prop
  | [], _, N => N
  | r :: rs, S, N => SurelyThroughAll rs (Through r S) (SurelyThrough r S N)

variable {S : TraversalState → Prop} {t : TraversalState} {out : List TraversalState × Bool}
  {env : QueryEnv} {q : NamedQuerySchema} {queryName : String} {r : StepRun}
  {S' : TraversalState → Prop} {done : List Queued} {inputs : List TraversalState}
  {declared : Option String} {state : QueryVisibilityState}

theorem through_hop {s : TraversalState} (hs : S s) (hdepth : 0 < r.step.maxDepth) {c : Candidate}
    (hc : c ∈ hops r s) (hcollect : r.collects c = true) : Through r S (follow s c) :=
  ⟨s, ⟨0, hdepth, hs⟩, c, hc, hcollect, rfl⟩

theorem after_mono (h : ∀ s, S s → S' s) {k : Nat} (ht : After r S k t) : After r S' k t := by
  induction k generalizing t with
  | zero => exact h t ht
  | succ k ih =>
    have ⟨s, hs, hhop⟩ := ht
    exact ⟨s, ih hs, hhop⟩

theorem through_mono (h : ∀ s, S s → S' s) (ht : Through r S t) : Through r S' t := by
  have ⟨s, ⟨k, hk, hs⟩, hhop⟩ := ht
  exact ⟨s, ⟨k, hk, after_mono h hs⟩, hhop⟩

section Retain
variable {r : StepRun} (hr : r.retention = false) (item : Queued) (w : Walk) (c : Candidate)

include hr

theorem capReached_entity (states : List TraversalState) : r.capReached states = false := by
  simp [StepRun.capReached, hr]

theorem retain_queue : (r.retain item w c).queue =
    if c.neighbor.nodeId ∈ w.seenExpanded then w.queue
    else w.queue ++ [queuedNext item c] := by
  simp only [StepRun.retain, hr, Bool.false_eq_true, if_false, decide_eq_true_eq, ite_not]
  rfl

theorem mem_queue_retain (done : List Queued) {x : Queued} :
    x ∈ done ++ (r.retain item w c).queue ↔ x ∈ done ++ w.queue ∨
      c.neighbor.nodeId ∉ w.seenExpanded ∧ x = queuedNext item c := by
  rw [retain_queue hr]
  split_ifs with hseen
  · simp [hseen]
  · simp [hseen, or_assoc]

theorem mem_seenExpanded_retain {n : NodeId} : n ∈ (r.retain item w c).seenExpanded ↔
    n ∈ w.seenExpanded ∨ c.neighbor.nodeId ∉ w.seenExpanded ∧ n = c.neighbor.nodeId := by
  simp only [StepRun.retain, hr, Bool.false_eq_true, if_false, decide_eq_true_eq, ite_not]
  split_ifs with hseen
  · simp [hseen]
  · simp [hseen]

theorem mem_nextStates_retain : t ∈ (r.retain item w c).nextStates ↔
    t ∈ w.nextStates ∨
      (r.collects c = true ∧ c.neighbor.nodeId ∉ w.seenResults) ∧ t = follow item.state c := by
  simp only [StepRun.retain, hr, Bool.false_eq_true, if_false, Bool.and_eq_true,
    decide_eq_true_eq]
  split_ifs with hemit
  · rw [List.mem_append, List.mem_singleton]
    exact or_congr_right ⟨fun ht => ⟨hemit, ht⟩, And.right⟩
  · exact ⟨Or.inl, fun ht => ht.resolve_right fun h => hemit h.1⟩

theorem mem_seenResults_retain {n : NodeId} : n ∈ (r.retain item w c).seenResults ↔
    n ∈ w.seenResults ∨
      (r.collects c = true ∧ c.neighbor.nodeId ∉ w.seenResults) ∧ n = c.neighbor.nodeId := by
  simp only [StepRun.retain, hr, Bool.false_eq_true, if_false, Bool.and_eq_true,
    decide_eq_true_eq]
  split_ifs with hemit
  · rw [List.mem_append, List.mem_singleton]
    exact or_congr_right ⟨fun hn => ⟨hemit, hn⟩, And.right⟩
  · exact ⟨Or.inl, fun hn => hn.resolve_right fun h => hemit h.1⟩

end Retain

/-- What the loop over the queue keeps, with the paths that it has already taken. -/
structure Searching (r : StepRun) (inputs : List TraversalState) (done : List Queued) (w : Walk) :
    Prop where
  reached : ∀ x ∈ done ++ w.queue, After r (· ∈ inputs) x.depth x.state
  seeded : ∀ s ∈ inputs, ∃ x ∈ done ++ w.queue, x.state = s ∧ x.depth = 0
  found : ∀ n ∈ w.seenExpanded, ∃ x ∈ done ++ w.queue, x.state.current.nodeId = n
  emitted : ∀ t ∈ w.nextStates, Through r (· ∈ inputs) t
  results : ∀ n ∈ w.seenResults, (∃ s ∈ inputs, s.current.nodeId = n) ∨
    ∃ t ∈ w.nextStates, t.current.nodeId = n

/-- The queue holds paths of depth `d` before paths of depth `d + 1`. -/
structure Levels (d : Nat) (done queue : List Queued) : Prop where
  ordered : (done ++ queue).Pairwise fun x y => x.depth ≤ y.depth
  below : ∀ x ∈ done ++ queue, x.depth ≤ d + 1
  above : ∀ y ∈ queue, d ≤ y.depth

/-- The entity at the other end of a hop at depth `d` has been met, no deeper than
one hop further. -/
def Met (r : StepRun) (done : List Queued) (w : Walk) (d : Nat) (c : Candidate) : Prop :=
  (∃ y ∈ done ++ w.queue, y.state.current.nodeId = c.neighbor.nodeId ∧ y.depth ≤ d + 1) ∧
    (r.collects c = true → c.neighbor.nodeId ∈ w.seenResults)

section Search
variable {r : StepRun} (hr : r.retention = false) {inputs : List TraversalState}
  {done : List Queued} {w : Walk}

include hr

variable {c : Candidate}

theorem Met.retain {d : Nat} (h : Met r done w d c) (item : Queued) (c' : Candidate) :
    Met r done (r.retain item w c') d c := by
  have ⟨⟨y, hy, hnode, hdepth⟩, hcollect⟩ := h
  constructor
  · exact ⟨y, (mem_queue_retain hr item w c' done).mpr (.inl hy), hnode, hdepth⟩
  · intro hc
    exact (mem_seenResults_retain hr item w c').mpr (.inl (hcollect hc))

variable {item : Queued}

theorem Searching.retain (h : Searching r inputs done w) (hitem : item ∈ done)
    (hdeep : item.depth < r.step.maxDepth) (hc : c ∈ hops r item.state) :
    Searching r inputs done (r.retain item w c) := by
  have hreached := h.reached item (List.mem_append_left _ hitem)
  have hold : ∀ x ∈ done ++ w.queue, x ∈ done ++ (r.retain item w c).queue :=
    fun x hx => (mem_queue_retain hr item w c done).mpr (.inl hx)
  constructor
  case reached =>
      intro x hx
      rcases (mem_queue_retain hr item w c done).mp hx with hx | ⟨_, hx⟩
      · exact h.reached x hx
      · rw [hx]
        exact ⟨item.state, hreached, c, hc, rfl⟩
  case seeded =>
      intro s hs
      have ⟨x, hx, hstate⟩ := h.seeded s hs
      exact ⟨x, hold x hx, hstate⟩
  case found =>
      intro n hn
      rcases (mem_seenExpanded_retain hr item w c).mp hn with hn | ⟨hfresh, hn⟩
      · have ⟨x, hx, hnode⟩ := h.found n hn
        exact ⟨x, hold x hx, hnode⟩
      · exact ⟨queuedNext item c, (mem_queue_retain hr item w c done).mpr (.inr ⟨hfresh, rfl⟩),
          hn.symm⟩
  case emitted =>
      intro t ht
      rcases (mem_nextStates_retain hr item w c).mp ht with ht | ⟨hemit, ht⟩
      · exact h.emitted t ht
      · exact ⟨item.state, ⟨item.depth, hdeep, hreached⟩, c, hc, hemit.1, ht⟩
  case results =>
      intro n hn
      rcases (mem_seenResults_retain hr item w c).mp hn with hn | ⟨hemit, hn⟩
      · rcases h.results n hn with hs | ⟨t, ht, hnode⟩
        · exact .inl hs
        · exact .inr ⟨t, (mem_nextStates_retain hr item w c).mpr (.inl ht), hnode⟩
      · exact .inr ⟨follow item.state c,
          (mem_nextStates_retain hr item w c).mpr (.inr ⟨hemit, rfl⟩), hn.symm⟩

theorem Levels.retain (h : Levels item.depth done w.queue) (c : Candidate) :
    Levels item.depth done (r.retain item w c).queue := by
  constructor
  case ordered =>
      rw [retain_queue hr]
      split_ifs
      · exact h.ordered
      · rw [← List.append_assoc, List.pairwise_append]
        refine ⟨h.ordered, List.pairwise_singleton _ _, ?_⟩
        intro x hx y hy
        rw [List.mem_singleton.mp hy]
        exact h.below x hx
  case below =>
      intro x hx
      rcases (mem_queue_retain hr item w c done).mp hx with hx | ⟨_, hx⟩
      · exact h.below x hx
      · rw [hx]
        exact Nat.le_refl _
  case above =>
      intro y hy
      rw [retain_queue hr] at hy
      split_ifs at hy
      · exact h.above y hy
      · rcases List.mem_append.mp hy with hy | hy
        · exact h.above y hy
        · rw [List.mem_singleton.mp hy]
          exact Nat.le_succ _

theorem met_retain (h : Searching r inputs done w) (hlevels : Levels item.depth done w.queue)
    (c : Candidate) : Met r done (r.retain item w c) item.depth c := by
  constructor
  · by_cases hseen : c.neighbor.nodeId ∈ w.seenExpanded
    · have ⟨x, hx, hnode⟩ := h.found _ hseen
      exact ⟨x, (mem_queue_retain hr item w c done).mpr (.inl hx), hnode, hlevels.below x hx⟩
    · exact ⟨queuedNext item c, (mem_queue_retain hr item w c done).mpr (.inr ⟨hseen, rfl⟩), rfl,
        Nat.le_refl _⟩
  · intro hcollect
    by_cases hold : c.neighbor.nodeId ∈ w.seenResults
    · exact (mem_seenResults_retain hr item w c).mpr (.inl hold)
    · exact (mem_seenResults_retain hr item w c).mpr (.inr ⟨⟨hcollect, hold⟩, rfl⟩)

theorem searching_hops (hitem : item ∈ done) (hdeep : item.depth < r.step.maxDepth)
    {cs : List Candidate} (hcs : ∀ c ∈ cs, c ∈ hops r item.state) {met : List Candidate}
    (h : Searching r inputs done w) (hlevels : Levels item.depth done w.queue)
    (hmet : ∀ c ∈ met, Met r done w item.depth c) :
    Searching r inputs done (cs.foldl (r.retain item) w) ∧
      Levels item.depth done (cs.foldl (r.retain item) w).queue ∧
      ∀ c ∈ met ++ cs, Met r done (cs.foldl (r.retain item) w) item.depth c := by
  induction cs generalizing w met with
  | nil =>
    rw [List.append_nil]
    exact ⟨h, hlevels, hmet⟩
  | cons c cs ih =>
    have hnext : ∀ x ∈ met ++ [c], Met r done (r.retain item w c) item.depth x := by
      intro x hx
      rcases List.mem_append.mp hx with hx | hx
      · exact (hmet x hx).retain hr item c
      · rw [List.mem_singleton.mp hx]
        exact met_retain hr h hlevels c
    have hrest := ih (fun x hx => hcs x (List.mem_cons_of_mem c hx))
      (h.retain hr hitem hdeep (hcs c List.mem_cons_self)) (hlevels.retain hr c) hnext
    rw [List.append_assoc, List.singleton_append] at hrest
    exact hrest

end Search

/-- The paths that have been taken have met the ends of their hops. -/
def Closed (r : StepRun) (done : List Queued) (w : Walk) : Prop :=
  ∀ x ∈ done, x.depth < r.step.maxDepth → ∀ c ∈ hops r x.state, Met r done w x.depth c

/-- The invariant of the loop over the queue. -/
structure Loop (r : StepRun) (inputs : List TraversalState) (done : List Queued) (w : Walk) :
    Prop where
  searching : Searching r inputs done w
  closed : Closed r done w
  levels : ∀ x rest, w.queue = x :: rest → Levels x.depth done w.queue
  calm : w.raised = none

theorem Levels.next {d : Nat} {rest : List Queued} {x : Queued} (h : Levels d done (x :: rest)) :
    Levels x.depth done (x :: rest) := by
  have hx : d ≤ x.depth := h.above x List.mem_cons_self
  have hordered := (List.pairwise_append.mp h.ordered).2.1
  constructor
  case ordered => exact h.ordered
  case below =>
      intro y hy
      have hy := h.below y hy
      omega
  case above =>
      intro y hy
      rcases List.mem_cons.mp hy with hy | hy
      · rw [hy]
      · exact (List.pairwise_cons.mp hordered).1 y hy

section Search
variable {r : StepRun} (hr : r.retention = false) {inputs : List TraversalState}
  {done : List Queued} {w : Walk} {item : Queued} {rest : List Queued}

theorem Loop.pop (h : Loop r inputs done w) (hq : w.queue = item :: rest) :
    Searching r inputs (done ++ [item]) { w with queue := rest } ∧
      Levels item.depth (done ++ [item]) rest ∧
      ∀ x ∈ done, x.depth < r.step.maxDepth → ∀ c ∈ hops r x.state,
        Met r (done ++ [item]) { w with queue := rest } x.depth c := by
  have hsame : (done ++ [item]) ++ rest = done ++ w.queue := by
    rw [hq, List.append_assoc, List.singleton_append]
  have hlevels := h.levels item rest hq
  have hs := h.searching
  refine ⟨⟨?_, ?_, ?_, hs.emitted, hs.results⟩, ⟨?_, ?_, ?_⟩, ?_⟩
  · rw [hsame]
    exact hs.reached
  · rw [hsame]
    exact hs.seeded
  · rw [hsame]
    exact hs.found
  · rw [hsame]
    exact hlevels.ordered
  · rw [hsame]
    exact hlevels.below
  · intro y hy
    exact hlevels.above y (hq ▸ List.mem_cons_of_mem item hy)
  · intro x hx hdeep c hc
    have hmet := h.closed x hx hdeep c hc
    unfold Met at hmet ⊢
    rw [hsame]
    exact hmet

include hr

theorem Loop.expand (h : Loop r inputs done w) (hq : w.queue = item :: rest)
    (hcalm : (r.expand { w with queue := rest } item).raised = none) :
    Loop r inputs (done ++ [item]) (r.expand { w with queue := rest } item) := by
  have ⟨hsearching, hlevels, hclosed⟩ := h.pop hq
  have hitem : item ∈ done ++ [item] := List.mem_append_right _ List.mem_cons_self
  have hpopped : ({ w with queue := rest } : Walk).raised = none := h.calm
  by_cases hdeep : item.depth < r.step.maxDepth
  · have hquiet := calm_of_expand (capReached_entity hr) item hpopped hdeep hcalm
    rw [expand_calm (capReached_entity hr) item hpopped hdeep hquiet] at hcalm ⊢
    have hnone : ∀ c ∈ ([] : List Candidate),
        Met r (done ++ [item]) { w with queue := rest } item.depth c := fun c hc => by cases hc
    have ⟨hsearching', hlevels', hmet⟩ := searching_hops hr hitem hdeep (fun c hc => hc)
      hsearching hlevels hnone
    refine ⟨hsearching', ?_, ?_, hcalm⟩
    · intro x hx hxdeep c hc
      rcases List.mem_append.mp hx with hx | hx
      · exact List.foldlRecOn (motive := fun w => Met r (done ++ [item]) w x.depth c) _ _
          (hclosed x hx hxdeep c hc) fun w hw c' _ => hw.retain hr item c'
      · rw [List.mem_singleton.mp hx] at hc ⊢
        exact hmet c hc
    · intro x rest' hx
      rw [hx] at hlevels' ⊢
      exact hlevels'.next
  · rw [expand_deep _ (Nat.not_lt.mp hdeep)]
    refine ⟨hsearching, ?_, ?_, h.calm⟩
    · intro x hx hxdeep c hc
      rcases List.mem_append.mp hx with hx | hx
      · exact hclosed x hx hxdeep c hc
      · rw [List.mem_singleton.mp hx] at hxdeep
        exact absurd hxdeep hdeep
    · intro x rest' hx
      change rest = x :: rest' at hx
      change Levels x.depth (done ++ [item]) rest
      rw [hx] at hlevels ⊢
      exact hlevels.next

end Search

theorem Loop.walk (hr : r.retention = false) {w : Walk} (h : Loop r inputs done w) {fuel : Nat}
    (hcalm : (r.walk fuel w).raised = none) : ∃ done', Loop r inputs done' (r.walk fuel w) := by
  induction fuel generalizing done w with
  | zero => exact ⟨done, h⟩
  | succ fuel ih =>
    rw [StepRun.walk] at hcalm ⊢
    cases hq : w.queue with
    | nil => exact ⟨done, h⟩
    | cons item rest =>
      rw [hq] at hcalm
      have hnext := raised_of_walk (capReached_entity hr) hcalm
      exact ih (h.expand hr hq hnext) hcalm

theorem loop_seed (hr : r.retention = false) (inputs : List TraversalState) :
    Loop r inputs [] (r.seed inputs) := by
  have hqueue : ∀ x, x ∈ (r.seed inputs).queue ↔ x.depth = 0 ∧ (x.root, x.state) ∈ r.indexedStates inputs := by
    intro x
    simp only [StepRun.seed, List.mem_map]
    constructor
    · rintro ⟨p, hp, hx⟩
      rw [← hx]
      exact ⟨rfl, hp⟩
    · rintro ⟨hdepth, hx⟩
      refine ⟨(x.root, x.state), hx, ?_⟩
      cases x
      simp only [Queued.mk.injEq, true_and]
      exact hdepth.symm
  have hseen : ∀ n, n ∈ (r.seed inputs).seenExpanded ↔ ∃ s ∈ inputs, s.current.nodeId = n := by
    intro n
    simp [StepRun.seed, hr]
  refine ⟨⟨?_, ?_, ?_, ?_, ?_⟩, ?_, ?_, rfl⟩
  · intro x hx
    obtain ⟨hdepth, hmem⟩ := (hqueue x).mp hx
    rw [hdepth]
    exact exists_mem_indexedStates.mp ⟨x.root, hmem⟩
  · intro s hs
    obtain ⟨i, hi⟩ := exists_mem_indexedStates (r := r).mpr hs
    exact ⟨{ root := i, state := s, depth := 0 }, (hqueue _).mpr ⟨rfl, hi⟩, rfl, rfl⟩
  · intro n hn
    obtain ⟨s, hs, hnode⟩ := (hseen n).mp hn
    obtain ⟨i, hi⟩ := exists_mem_indexedStates (r := r).mpr hs
    exact ⟨{ root := i, state := s, depth := 0 }, (hqueue _).mpr ⟨rfl, hi⟩, hnode⟩
  · exact fun t ht => by cases ht
  · intro n hn
    exact .inl ((hseen n).mp hn)
  · exact fun x hx => by cases hx
  · intro x rest hx
    have hzero : ∀ y ∈ (r.seed inputs).queue, y.depth = 0 := fun y hy => ((hqueue y).mp hy).1
    have hx0 := hzero x (hx ▸ List.mem_cons_self)
    rw [hx0]
    refine ⟨?_, ?_, fun y _ => Nat.zero_le _⟩
    · rw [List.nil_append]
      apply List.pairwise_of_forall_mem_list
      intro y hy z _
      rw [hzero y hy]
      exact Nat.zero_le _
    · intro y hy
      rw [hzero y hy]
      exact Nat.zero_le _

theorem searched (hr : r.retention = false)
    (hcalm : (r.walk (r.fuel inputs) (r.seed inputs)).raised = none) :
    ∃ done, Searching r inputs done (r.walk (r.fuel inputs) (r.seed inputs)) ∧
      Closed r done (r.walk (r.fuel inputs) (r.seed inputs)) ∧
      ∀ x, x ∈ done ↔ x ∈ done ++ (r.walk (r.fuel inputs) (r.seed inputs)).queue := by
  have ⟨done, h⟩ := (loop_seed hr inputs).walk hr hcalm
  refine ⟨done, h.searching, h.closed, ?_⟩
  rw [run_queue_nil]
  simp

variable {N : NodeId → Prop} {entry : EntityInstance} {g : EntityGraph} {params : Params}

theorem met_of_surelyAfter {w : Walk} (hS : ∀ s ∈ inputs, S s)
    (hN : ∀ n, N n → ∃ s ∈ inputs, s.current.nodeId = n) (h : Searching r inputs done w)
    (hclosed : Closed r done w) (hdone : ∀ x, x ∈ done ↔ x ∈ done ++ w.queue) {k : Nat}
    (hk : k ≤ r.step.maxDepth) {n : NodeId} (hn : SurelyAfter r S N k n) :
    ∃ x ∈ done, x.state.current.nodeId = n ∧ x.depth ≤ k := by
  induction k generalizing n with
  | zero =>
    have ⟨s, hs, hnode⟩ := hN n hn
    have ⟨x, hx, hstate, hdepth⟩ := h.seeded s hs
    exact ⟨x, (hdone x).mpr hx, hstate ▸ hnode, hdepth ▸ Nat.le_refl _⟩
  | succ k ih =>
    have ⟨m, hm, hnext⟩ := hn
    have ⟨x, hx, hnode, hdepth⟩ := ih (by omega) hm
    have hdeep : x.depth < r.step.maxDepth := by omega
    have hinside : Inside r S x.state :=
      ⟨x.depth, hdeep, after_mono hS (h.reached x ((hdone x).mp hx))⟩
    have ⟨c, hc, _, hend⟩ := hnext x.state hinside hnode
    have ⟨⟨y, hy, hynode, hydepth⟩, _⟩ := hclosed x hx hdeep c hc
    exact ⟨y, (hdone y).mpr hy, hynode.trans hend, by omega⟩

theorem step_between (hr : r.retention = false) (hrequired : r.step.required = true)
    (hS : ∀ s ∈ inputs, S s) (hN : ∀ n, N n → ∃ s ∈ inputs, s.current.nodeId = n)
    (hrun : r.execute inputs = .ok out) :
    (∀ t ∈ out.1, Through r S t) ∧
      ∀ m, SurelyThrough r S N m → ∃ t ∈ out.1, t.current.nodeId = m := by
  have hwalk : r.run inputs = r.walk (r.fuel inputs) (r.seed inputs) := by
    simp [StepRun.run, StepRun.finish, hrequired]
  rw [StepRun.execute, hwalk] at hrun
  cases hcalm : (r.walk (r.fuel inputs) (r.seed inputs)).raised with
  | some e =>
    rw [hcalm] at hrun
    cases hrun
  | none =>
    rw [hcalm] at hrun
    have hout := Except.ok.inj hrun
    obtain ⟨done, h, hclosed, hdone⟩ := searched hr hcalm
    rw [← hout]
    constructor
    · exact fun t ht => through_mono hS (h.emitted t ht)
    · rintro m ⟨hnew, k, hk, n, hn, hnext⟩
      obtain ⟨x, hx, hnode, hdepth⟩ :=
        met_of_surelyAfter hS hN h hclosed hdone (Nat.le_of_lt hk) hn
      have hdeep : x.depth < r.step.maxDepth := by omega
      have hinside : Inside r S x.state :=
        ⟨x.depth, hdeep, after_mono hS (h.reached x ((hdone x).mp hx))⟩
      obtain ⟨c, hc, hcollect, hend⟩ := hnext x.state hinside hnode
      obtain ⟨_, hresult⟩ := hclosed x hx hdeep c hc
      rcases h.results _ (hresult hcollect) with ⟨s, hs, hsnode⟩ | ⟨t, ht, htnode⟩
      · exact absurd (hsnode.trans hend) (hnew s (hS s hs))
      · exact ⟨t, ht, htnode.trans hend⟩

theorem traverse_between (hretention : q.requiresPathRetention = false)
    (hrequired : ∀ step ∈ q.traversal, step.required = true)
    (h : traverse env g queryName q params declared entry = .ok out) :
    ∃ rs, stepRuns env g queryName q params declared = .ok rs ∧
      (∀ t ∈ out.1, ThroughAll rs (· = startAt entry) t) ∧
      ∀ n, SurelyThroughAll rs (· = startAt entry) (· = entry.nodeId) n →
        ∃ t ∈ out.1, t.current.nodeId = n := by
  have hsteps : ∀ s ∈ q.traversal.zipIdx, s.1.required = true := by
    intro s hs
    exact hrequired s.1 (List.fst_mem_of_mem_zipIdx hs)
  unfold QueryEngine.traverse at h
  unfold stepRuns
  have hstart : ∀ s ∈ [startAt entry], (· = startAt entry) s := fun s hs => List.mem_singleton.mp hs
  have hnode : ∀ n, (· = entry.nodeId) n → ∃ s ∈ [startAt entry], s.current.nodeId = n :=
    fun n hn => ⟨startAt entry, List.mem_cons_self, hn.symm⟩
  change q.traversal.zipIdx.foldlM (m := Except CoreError) _ ([startAt entry], false) =
    Except.ok out at h
  generalize (· = startAt entry) = S at hstart ⊢
  generalize (· = entry.nodeId) = N at hnode ⊢
  generalize [startAt entry] = inputs at h hstart hnode
  generalize false = cut at h
  generalize q.traversal.zipIdx = steps at h hsteps ⊢
  induction steps generalizing inputs cut S N with
  | nil =>
    have hout : (inputs, cut) = out := by simpa [pure, Except.pure] using h
    refine ⟨[], rfl, ?_, ?_⟩
    · rw [← hout]
      exact hstart
    · rw [← hout]
      exact hnode
  | cons s steps ih =>
    have ⟨next, hnext, hrest⟩ := foldlM_cons_eq_ok.mp h
    have ⟨r, hr, hexecute⟩ := bind_eq_ok.mp hnext
    have ⟨found, hfound, hpair⟩ := bind_eq_ok.mp hexecute
    rw [pure_eq_ok] at hpair
    have ⟨hstep, hkeep⟩ := stepRun_step hr
    have hreq : r.step.required = true := hstep ▸ hsteps s List.mem_cons_self
    have ⟨hthrough, hsurely⟩ := step_between (hkeep.trans hretention) hreq hstart hnode hfound
    rw [← hpair] at hrest
    have hlater := fun x hx => hsteps x (List.mem_cons_of_mem s hx)
    have ⟨rs, hrs, hall, hsure⟩ := ih _ _ _ hthrough hsurely _ hrest hlater
    refine ⟨r :: rs, ?_, hall, hsure⟩
    rw [List.mapM_cons, bind_eq_ok]
    refine ⟨r, hr, ?_⟩
    rw [bind_eq_ok]
    exact ⟨rs, hrs, rfl⟩

def AllLive (now : Timestamp) (t : TraversalState) : Prop :=
  ∀ e ∈ t.entities, e.metadata.isLive now = true

/-- The entity visibility of a query that reads live entities. -/
def ReadsLive (q : NamedQuerySchema) : Prop :=
  q.relationshipState ≠ .all ∧ q.relationshipState ≠ .notLive

theorem anchorInScope_live (h : state ≠ .all ∧ state ≠ .notLive) (m : EntityMetadata)
    (now : Timestamp) : anchorInScope m now state = m.isLive now := by
  have hall : (state == .all) = false := by simpa using h.1
  have hnot : (state == .notLive) = false := by simpa using h.2
  rw [anchorInScope, hall, hnot]
  rfl

theorem entityMatches_live (h : state ≠ .all ∧ state ≠ .notLive) (m : EntityMetadata)
    (now : Timestamp) : entityMatchesQueryState m now state = m.isLive now := by
  cases state with
  | all => exact absurd rfl h.1
  | notLive => exact absurd rfl h.2
  | live => rfl
  | accepted => rfl
  | pending => rfl
  | reviewable => rfl

/-- The row of a kept path. -/
def rowOf (t : TraversalState) : QueryRowContext where
  shape := .entity
  entry := t.entry
  result := t.current
  entities := t.entities
  path := t.path

theorem mem_foundRows (hshape : q.resultShape = .entity) (hlive : ReadsLive q)
    {states : List TraversalState} (hends : ∀ t ∈ states, t.current ∈ t.entities)
    {row : QueryRowContext} :
    row ∈ foundRows env q states ↔
      ∃ t ∈ dedupeStates q.dedupe states, AllLive env.now t ∧ row = rowOf t := by
  have hdedupe : ∀ t ∈ dedupeStates q.dedupe states, t ∈ states := by
    intro t ht
    unfold dedupeStates at ht
    cases hd : q.dedupe with
    | none =>
      rw [hd] at ht
      exact ht
    | entity | path =>
      rw [hd] at ht
      exact mem_eraseDupsBy ht
  have hentity : (QueryResultShape.entity == .relationship) = false := rfl
  rw [foundRows, hshape, filterContextsByEntityState, if_neg hlive.1, List.mem_filter,
    buildResultContexts, List.mem_map]
  simp only [hentity, Bool.false_and, Bool.not_false, List.filter_true, Bool.false_or,
    Bool.and_eq_true, List.all_eq_true, anchorInScope_live hlive, entityMatches_live hlive]
  constructor
  · rintro ⟨⟨t, ht, hrow⟩, _, hanchors⟩
    rw [← hrow] at hanchors
    exact ⟨t, ht, hanchors, hrow.symm⟩
  · rintro ⟨t, ht, hanchors, hrow⟩
    refine ⟨⟨t, ht, hrow.symm⟩, ?_, ?_⟩
    · rw [hrow]
      exact hanchors _ (hends t (hdedupe t ht))
    · rw [hrow]
      exact hanchors

theorem ThroughAll.ends {rs : List StepRun} (hS : ∀ s, S s → s.current ∈ s.entities)
    (h : ThroughAll rs S t) : t.current ∈ t.entities := by
  induction rs generalizing S with
  | nil => exact hS t h
  | cons r rs ih =>
    refine ih ?_ h
    rintro s ⟨x, _, c, _, _, hs⟩
    rw [hs]
    exact List.mem_append_right _ List.mem_cons_self

/-- What the rows of a query for entities are, between two sets: a live path leads to
each of them, and an entity that the steps cannot miss is among them when only live
paths lead to it. -/
structure FindsLive (now : Timestamp) (rs : List StepRun) (entry : EntityInstance)
    (rows : List QueryRowContext) : Prop where
  sound : ∀ row ∈ rows, ∃ t, ThroughAll rs (· = startAt entry) t ∧ AllLive now t ∧
    t.current = row.result
  complete : ∀ n, SurelyThroughAll rs (· = startAt entry) (· = entry.nodeId) n →
    (∀ t, ThroughAll rs (· = startAt entry) t → t.current.nodeId = n → AllLive now t) →
    ∃ row ∈ rows, row.result.nodeId = n

theorem entity_options {u : Unit} (h : validateEffectiveQueryOptions env queryName q = .ok u)
    (hshape : q.resultShape = .entity) :
    q.dedupe = .entity ∧ (∀ step ∈ q.traversal, step.required = true) ∧ q.maxPaths = none ∧
      q.maxPathsPerResult = none := by
  unfold validateEffectiveQueryOptions at h
  have ⟨_, hdedupe, h⟩ := bind_eq_ok.mp h
  have ⟨_, hrequired, h⟩ := bind_eq_ok.mp h
  have ⟨_, hbudgets, _⟩ := bind_eq_ok.mp h
  rw [refuseIf_eq_ok] at hdedupe hrequired hbudgets
  refine ⟨?_, ?_, ?_, ?_⟩
  · by_contra hd
    exact hdedupe ⟨hshape, hd⟩
  · intro step hstep
    by_contra hr
    refine hrequired ⟨hshape, List.any_eq_true.mpr ⟨step, hstep, ?_⟩⟩
    simpa using hr
  · by_contra hm
    exact hbudgets ⟨hshape, .inl (Option.isSome_iff_ne_none.mpr hm)⟩
  · by_contra hm
    exact hbudgets ⟨hshape, .inr (Option.isSome_iff_ne_none.mpr hm)⟩

theorem foundRows_between {u : Unit}
    (hvalid : validateEffectiveQueryOptions env queryName q = .ok u)
    (hshape : q.resultShape = .entity) (hlive : ReadsLive q)
    (h : traverse env g queryName q params declared entry = .ok out) :
    ∃ rs, stepRuns env g queryName q params declared = .ok rs ∧
      FindsLive env.now rs entry (foundRows env q out.1) := by
  have ⟨hdedupe, hrequired, _, _⟩ := entity_options hvalid hshape
  have hretention : q.requiresPathRetention = false := by
    simp [NamedQuerySchema.requiresPathRetention, hshape, hdedupe]
  have ⟨rs, hrs, hthrough, hsurely⟩ := traverse_between hretention hrequired h
  have hends : ∀ t ∈ out.1, t.current ∈ t.entities := by
    intro t ht
    refine (hthrough t ht).ends ?_
    intro s hs
    rw [hs]
    exact List.mem_cons_self
  have hdedupes : dedupeStates q.dedupe out.1 =
      out.1.eraseDupsBy fun s t => s.current.nodeId = t.current.nodeId := by
    rw [hdedupe]
    rfl
  refine ⟨rs, hrs, ?_, ?_⟩
  · intro row hrow
    have ⟨t, ht, hall, hrowOf⟩ := (mem_foundRows hshape hlive hends).mp hrow
    rw [hdedupes] at ht
    exact ⟨t, hthrough t (mem_eraseDupsBy ht), hall, hrowOf ▸ rfl⟩
  · intro n hn honly
    have ⟨t, ht, hnode⟩ := hsurely n hn
    have ⟨k, hk, hsame⟩ := exists_mem_eraseDupsBy
      (p := fun s t : TraversalState => s.current.nodeId = t.current.nodeId) (by simp) ht
    have hknode : k.current.nodeId = n := (of_decide_eq_true hsame).symm.trans hnode
    have hkall := honly k (hthrough k (mem_eraseDupsBy hk)) hknode
    refine ⟨rowOf k, (mem_foundRows hshape hlive hends).mpr ⟨k, ?_, hkall, rfl⟩, hknode⟩
    rw [hdedupes]
    exact hk

/-- Under live visibility, the rows that a query for entities finds lie between two
sets of entities. The query returns some of these rows, all of them when it has
neither `include` nor `limit`. -/
theorem entity_query_finds_between {env : QueryEnv} {g : EntityGraph} {queryName : String}
    {q : NamedQuerySchema} {params : Params} {result : QueryResult}
    (hq : env.namedQueries.get? queryName = some q) (hmode : q.mode = .traversal)
    (hshape : q.resultShape = .entity) (hlive : ReadsLive q)
    (hrun : executeQuery env g queryName params = .ok result) :
    ∃ declared entryPoint entry rs rows,
      resolveDeclaredEntityReturnType env queryName q = .ok declared ∧
      q.entryPoint = some entryPoint ∧ resolveEntryEntity env g entryPoint params = .ok entry ∧
      stepRuns env g queryName q params declared = .ok rs ∧ FindsLive env.now rs entry rows ∧
      (∀ row ∈ result.results, row ∈ rows) ∧
      (q.includes = [] → q.limit = none → ∀ row ∈ rows, row ∈ result.results) := by
  have hdefinition : executeQueryDefinition env g queryName q params = .ok result := by
    unfold executeQuery at hrun
    rw [hq] at hrun
    exact hrun
  have ⟨declared, entryPoint, entry, reached, rows, hvalid, hdeclared, hentryPoint, hentry,
    htraverse, hrows, hresult⟩ := executeQueryDefinition_traversal hmode hdefinition
  have ⟨rs, hrs, hfinds⟩ := foundRows_between hvalid hshape hlive htraverse
  have ⟨_, _, hpaths, hper⟩ := entity_options hvalid hshape
  have hbudget : (applyPathBudgets q.maxPaths q.maxPathsPerResult reached.2 rows).1 = rows := by
    rw [applyPathBudgets, if_pos ⟨Option.isNone_iff_eq_none.mpr hpaths,
      Option.isNone_iff_eq_none.mpr hper⟩]
  rw [hbudget] at hresult
  have ⟨hincluded, hall⟩ := resultRows_found hrows
  have ⟨hlimited, hevery⟩ := limitResults_mem hresult
  refine ⟨declared, entryPoint, entry, rs, foundRows env q reached.1, hdeclared, hentryPoint,
    hentry, hrs, hfinds, ?_, ?_⟩
  · exact fun row hrow => hincluded row (hlimited row hrow)
  · exact fun hincludes hlimit row hrow => hevery hlimit row (hall hincludes row hrow)

def service (id : String) (status : EntityLifecycleStatus) : EntityInstance where
  entityType := "Service"
  entityId := id
  metadata := { lifecycle := some { status := status } }

def dependsOn (key : Nat) (source target : String) : EdgeData where
  fromNode := makeNodeId "Service" source
  toNode := makeNodeId "Service" target
  key := key
  relationshipType := "depends_on"
  claimId := source ++ target
  properties := ∅
  metadata := {}

def serviceGraph (services : List EntityInstance) (edges : List EdgeData) : EntityGraph where
  nodes := Dict.ofList (services.map fun e => (e.nodeId, e))
  edges := edges

/-- The services two dependencies away. -/
def secondHop : NamedQuerySchema where
  entryPoint := some "Service"
  traversal := [{ relationshipTypes := ["depends_on"] }, { relationshipTypes := ["depends_on"] }]
  returns := "Service"
  resultShape := .entity
  dedupe := .entity

def serviceEnv : QueryEnv where
  entityTypes := Dict.ofList [("Service",
    { properties := Dict.ofList [("id", { type := .string, primaryKey := true })] })]
  relationships := [({ name := "depends_on", fromEntity := "Service", toEntity := "Service" }, none)]
  namedQueries := Dict.ofList [("second_hop", secondHop)]
  text := fun v => match v with
    | .str s => s
    | _ => ""

def serviceParams : Params := Dict.ofList [("id", .str "r")]

def behind (g : EntityGraph) : Except CoreError QueryResult :=
  executeQuery serviceEnv g "second_hop" serviceParams

def names (result : Except CoreError QueryResult) : Option (List String) :=
  result.toOption.map fun r => r.results.map fun row => row.result.entityId

/-- `r` depends on `a`, and `a` on `b`. -/
def chain : EntityGraph :=
  serviceGraph [service "r" .live, service "a" .live, service "b" .live]
    [dependsOn 0 "r" "a", dependsOn 1 "a" "b"]

/-- The service behind a chain of dependencies is found. -/
theorem chain_end_is_found : ∃ result rs rows, behind chain = .ok result ∧
    FindsLive 0 rs (service "r" .live) rows ∧ (∀ row ∈ rows, row ∈ result.results) ∧
    result.results.map (fun row => row.result.entityId) = ["b"] := by
  have hnames : names (behind chain) = some ["b"] := by decide +kernel
  cases hrun : behind chain with
  | error e =>
      rw [hrun] at hnames
      cases hnames
  | ok result =>
      have ⟨declared, entryPoint, entry, rs, rows, _, hentryPoint, hentry, _, hfinds, _, hall⟩ :=
        entity_query_finds_between (q := secondHop) rfl rfl rfl ⟨by decide, by decide⟩ hrun
      have hservice : resolveEntryEntity serviceEnv chain "Service" serviceParams =
          .ok (service "r" .live) := by decide +kernel
      have hpoint : "Service" = entryPoint := Option.some.inj hentryPoint
      rw [← hpoint, hservice] at hentry
      rw [Except.ok.inj hentry]
      rw [hrun] at hnames
      exact ⟨result, rs, rows, rfl, hfinds, hall rfl rfl, Option.some.inj hnames⟩

/-- `r` depends on `b` as well. -/
def triangle : EntityGraph :=
  serviceGraph [service "r" .live, service "a" .live, service "b" .live]
    [dependsOn 0 "r" "a", dependsOn 1 "r" "b", dependsOn 2 "a" "b"]

/-- Two ways to `v`, one over a retired service. -/
def detour (edges : List EdgeData) : EntityGraph :=
  serviceGraph [service "r" .live, service "d" .retired, service "l" .live, service "v" .live] edges

def retiredFirst : List EdgeData :=
  [dependsOn 0 "r" "d", dependsOn 1 "r" "l", dependsOn 2 "d" "v", dependsOn 3 "l" "v"]

def liveFirst : List EdgeData :=
  [dependsOn 1 "r" "l", dependsOn 0 "r" "d", dependsOn 2 "d" "v", dependsOn 3 "l" "v"]

/-- The run of a step of the query. -/
def hopRun (g : EntityGraph) (collect : Option String) : StepRun where
  env := serviceEnv
  graph := g
  queryName := "second_hop"
  params := serviceParams
  relationshipState := .live
  step := { relationshipTypes := ["depends_on"] }
  refs := [("depends_on", .outgoing)]
  collectEntityType := collect
  retention := false
  stable := false
  maxPaths := none

/-- An entity on which the second step starts is not found by it, and which path is
found first decides whether an entity is. -/
theorem live_end_is_missed :
    ¬ (∀ (env : QueryEnv) (g : EntityGraph) (queryName : String) (q : NamedQuerySchema)
      (params : Params) (result : QueryResult) (declared : Option String) (entryPoint : String)
      (entry : EntityInstance) (rs : List StepRun),
      env.namedQueries.get? queryName = some q → q.mode = .traversal → q.resultShape = .entity →
      ReadsLive q → q.includes = [] → q.limit = none →
      resolveDeclaredEntityReturnType env queryName q = .ok declared →
      q.entryPoint = some entryPoint → resolveEntryEntity env g entryPoint params = .ok entry →
      stepRuns env g queryName q params declared = .ok rs →
      executeQuery env g queryName params = .ok result →
      ∀ n, (∃ row ∈ result.results, row.result.nodeId = n) ↔
        ∃ t, ThroughAll rs (· = startAt entry) t ∧ AllLive env.now t ∧ t.current.nodeId = n) ∧
    retiredFirst.Perm liveFirst ∧ names (behind (detour retiredFirst)) = some [] ∧
    names (behind (detour liveFirst)) = some ["v"] := by
  have hperm : retiredFirst.Perm liveFirst := .swap _ _ _
  have hretired : names (behind (detour retiredFirst)) = some [] := by decide +kernel
  have hlive : names (behind (detour liveFirst)) = some ["v"] := by decide +kernel
  refine ⟨?_, hperm, hretired, hlive⟩
  intro hall
  have hnames : names (behind triangle) = some [] := by decide +kernel
  have hentry : resolveEntryEntity serviceEnv triangle "Service" serviceParams =
      .ok (service "r" .live) := by decide +kernel
  have hhops : ((hops (hopRun triangle none) (startAt (service "r" .live))).any fun c =>
      c.neighbor = service "a" .live &&
        (hops (hopRun triangle (some "Service")) (follow (startAt (service "r" .live)) c)).any
          fun c' => c'.neighbor = service "b" .live) = true := by decide +kernel
  cases hrun : behind triangle with
  | error e =>
      rw [hrun] at hnames
      cases hnames
  | ok result =>
      have hends := (hall serviceEnv triangle "second_hop" secondHop serviceParams result
        (some "Service") "Service" (service "r" .live)
        [hopRun triangle none, hopRun triangle (some "Service")] rfl rfl rfl
        ⟨by decide, by decide⟩ rfl rfl rfl rfl hentry rfl hrun (makeNodeId "Service" "b")).mpr
      have ⟨c, hc, hrest⟩ := List.any_eq_true.mp hhops
      rw [Bool.and_eq_true, decide_eq_true_eq] at hrest
      have ⟨c', hc', hb⟩ := List.any_eq_true.mp hrest.2
      rw [decide_eq_true_eq] at hb
      have hcollect : (hopRun triangle (some "Service")).collects c' = true := by
        simp [StepRun.collects, hopRun, hb, service]
      have hfirst : Through (hopRun triangle none) (· = startAt (service "r" .live))
          (follow (startAt (service "r" .live)) c) :=
        through_hop (S := (· = startAt (service "r" .live))) rfl (by decide) hc rfl
      have hsecond : ThroughAll [hopRun triangle none, hopRun triangle (some "Service")]
          (· = startAt (service "r" .live))
          (follow (follow (startAt (service "r" .live)) c) c') :=
        through_hop hfirst (by decide) hc' hcollect
      have ⟨row, hrow, _⟩ := hends ⟨_, hsecond, ?_, ?_⟩
      · rw [hrun] at hnames
        have hnone : result.results = [] := List.map_eq_nil_iff.mp (Option.some.inj hnames)
        rw [hnone] at hrow
        cases hrow
      · intro e he
        have hthree : e = service "r" .live ∨ e = c.neighbor ∨ e = c'.neighbor := by
          simpa [follow, startAt] using he
        rw [hrest.1, hb] at hthree
        rcases hthree with he | he | he
        · rw [he]
          rfl
        · rw [he]
          rfl
        · rw [he]
          rfl
      · rw [follow_current, hb]
        rfl

end Cruxible.EntityTraversals
