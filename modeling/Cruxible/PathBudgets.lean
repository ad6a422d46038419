import Cruxible.EntityTraversals
import Mathlib.Data.List.Flatten
import Mathlib.Data.List.Perm.Basic
import Mathlib.Data.List.Perm.Subperm

/-!
# What `max_paths` reports

A step that retains paths and is not cut off yields, in some order, every extension
of every path it starts on. A capped step that reports no cut has left out of its
queue only paths that are not followed further, so it yields the paths of the step
without the cap; what it yields when it reports a cut are some of them. The cap
also fixes the order in which edges are looked at.
-/
namespace Cruxible.PathBudgets
open PythonDict AssertionState Cruxible.Graph PropertyValidation Neighbors QueryEngine QueryCaps
  StepPaths
open Fallible (bind_eq_ok pure_eq_ok refuseIf_eq_ok filterM_eq_ok passes foldlM_cons_eq_ok)

section Loop
variable (r : StepRun) {w : Walk}

theorem queueWeight_nil_of_zero (h : queueWeight r w.queue = 0) : w.queue = [] := by
  have hnil := walk_queue_nil r (Nat.le_of_eq h)
  exact hnil

theorem walk_of_nil (h : w.queue = []) (fuel : Nat) : r.walk fuel w = w := by
  cases fuel with
  | zero => rfl
  | succ fuel => rw [StepRun.walk, h]

variable {item : Queued} {rest : List Queued}

/-- An expansion makes less work ahead than it takes away. -/
theorem queueWeight_next (h : w.queue = item :: rest) :
    queueWeight r (r.expand { w with queue := rest } item).queue < queueWeight r w.queue := by
  rw [h]
  exact queueWeight_expand r item { w with queue := rest }

theorem walk_enough {fuel k : Nat} (h : queueWeight r w.queue ≤ fuel)
    (hk : queueWeight r w.queue ≤ k) : r.walk fuel w = r.walk k w := by
  induction fuel generalizing k w with
  | zero =>
    have hnil := queueWeight_nil_of_zero r (Nat.le_zero.mp h)
    rw [walk_of_nil r hnil, walk_of_nil r hnil]
  | succ fuel ih =>
    cases hq : w.queue with
    | nil => rw [walk_of_nil r hq, walk_of_nil r hq]
    | cons item rest =>
      have hpop := queueWeight_next r hq
      cases k with
      | zero => omega
      | succ k =>
        rw [StepRun.walk, StepRun.walk, hq]
        exact ih (by omega) (by omega)

def settle (w : Walk) : Walk := r.walk (queueWeight r w.queue) w

theorem settle_nil (h : w.queue = []) : settle r w = w := walk_of_nil r h _

theorem settle_cons (h : w.queue = item :: rest) :
    settle r w = settle r (r.expand { w with queue := rest } item) := by
  have hpop := queueWeight_next r h
  cases hweight : queueWeight r w.queue with
  | zero => omega
  | succ k =>
    have hk : queueWeight r (r.expand { w with queue := rest } item).queue ≤ k := by omega
    rw [settle, hweight, StepRun.walk, h]
    exact walk_enough r hk (Nat.le_refl _)

/-- A path that is not followed further is dropped. -/
theorem settle_deep (h : w.queue = item :: rest) (hdeep : ¬item.depth < r.step.maxDepth) :
    settle r w = settle r { w with queue := rest } := by
  rw [settle_cons r h, expand_deep _ (Nat.not_lt.mp hdeep)]

theorem run_eq_settle (states : List TraversalState) :
    r.run states = r.finish states (settle r (r.seed states)) := by
  have hnil := run_queue_nil r states
  have hsame : r.walk (r.fuel states) (r.seed states) = settle r (r.seed states) := by
    have hlen : (r.indexedStates states).length = states.length := by
      unfold StepRun.indexedStates
      split_ifs
      · rw [(sortedBy_perm _ _).length_eq]
        simp
      · simp
    apply walk_enough
    · simp [StepRun.seed, queueWeight, StepRun.fuel, hlen, Function.comp_def]
    · exact Nat.le_refl _
  rw [StepRun.run, hsame]

end Loop

/-- The paths on a queue that are followed further. -/
def shallow (r : StepRun) (queue : List Queued) : List Queued :=
  queue.filter fun x => x.depth < r.step.maxDepth

/-- The uncapped run `f` beside the capped run `b`. -/
structure Tied (r : StepRun) (f b : Walk) : Prop where
  next : b.nextStates = f.nextStates
  roots : b.producedRoots = f.producedRoots
  raised : b.raised = f.raised
  queue : shallow r b.queue = shallow r f.queue

/-- As long as the capped run reports no cut. -/
def Uncut (r : StepRun) (f b : Walk) : Prop := b.truncated = true ∨ Tied r f b

section Truncated
variable {r : StepRun} {w : Walk} (h : w.truncated = true)
include h

theorem truncated_consider (item : Queued) (d : Direction) (c : Candidate) :
    (r.consider item d w c).truncated = true := by
  unfold StepRun.consider
  split_ifs
  · exact h
  · rfl
  · cases r.admits d item.state c with
    | error e => exact h
    | ok b =>
      cases b with
      | false => exact h
      | true =>
        change (r.retain item w c).truncated = true
        unfold StepRun.retain
        dsimp only
        split_ifs <;> simp [h]

theorem truncated_considerRef (item : Queued) (ref : String × Direction) :
    (r.considerRef item w ref).truncated = true := by
  unfold StepRun.considerRef
  split_ifs
  · exact h
  · rfl
  · exact List.foldlRecOn (motive := fun w : Walk => w.truncated = true) _ _ h
      fun w hw c _ => truncated_consider hw item ref.2 c

theorem truncated_expand (item : Queued) : (r.expand w item).truncated = true := by
  unfold StepRun.expand
  split_ifs
  · exact h
  · rfl
  · exact List.foldlRecOn (motive := fun w : Walk => w.truncated = true) _ _ h
      fun w hw ref _ => truncated_considerRef hw item ref

theorem truncated_walk (fuel : Nat) : (r.walk fuel w).truncated = true := by
  induction fuel generalizing w with
  | zero => exact h
  | succ fuel ih =>
    rw [StepRun.walk]
    cases hq : w.queue with
    | nil => exact h
    | cons item rest =>
      have hpop : ({ w with queue := rest } : Walk).truncated = true := h
      exact ih (truncated_expand hpop item)

theorem truncated_preserve (input : Nat × TraversalState) :
    (r.preserve w input).truncated = true := by
  unfold StepRun.preserve
  split_ifs
  · exact h
  · rfl
  · exact h

end Truncated

section Lockstep
variable {r : StepRun} (hr : r.retention = true) {m : Nat} {f b : Walk}

include hr

theorem Uncut.retain (h : Tied r f b) (item : Queued) (c : Candidate) :
    Uncut r ((uncapped r).retain item f c) ((capped r m).retain item b c) := by
  have hru : (uncapped r).retention = true := hr
  have hrc : (capped r m).retention = true := hr
  have hstep : (capped r m).step = r.step := rfl
  have hnext := h.next
  have hroots := h.roots
  have hqueue := h.queue
  simp only [StepRun.retain, hru, hrc, capReached_uncapped, if_true, Bool.false_eq_true, if_false,
    hstep]
  split_ifs with hfull
  · by_cases hdeep : item.depth + 1 < r.step.maxDepth
    · exact .inl (by simp [hdeep])
    · refine .inr ⟨by simp [hnext], by simp [hroots], h.raised, ?_⟩
      simp only [shallow] at hqueue ⊢
      rw [hqueue, List.filter_append, List.filter_cons_of_neg (by simpa using hdeep),
        List.filter_nil, List.append_nil]
  · refine .inr ⟨by simp [hnext], by simp [hroots], h.raised, ?_⟩
    simp only [shallow, List.filter_append] at hqueue ⊢
    rw [hqueue]

theorem Uncut.consider (h : Uncut r f b) (item : Queued) (d : Direction) (c : Candidate) :
    Uncut r ((uncapped r).consider item d f c) ((capped r m).consider item d b c) := by
  rcases h with h | h
  · exact .inl (truncated_consider h item d c)
  · have hadmits : (capped r m).admits d item.state c = (uncapped r).admits d item.state c := rfl
    simp only [StepRun.consider, h.raised, hadmits, capReached_uncapped, Bool.false_eq_true,
      if_false]
    split_ifs with hraised hfull
    · exact .inr h
    · exact .inl rfl
    · cases (uncapped r).admits d item.state c with
      | error e => exact .inr ⟨h.next, h.roots, rfl, rfl⟩
      | ok passed =>
        cases passed with
        | false => exact .inr h
        | true => exact Uncut.retain hr h item c

theorem Uncut.considerRef (h : Uncut r f b) (item : Queued) (ref : String × Direction) :
    Uncut r ((uncapped r).considerRef item f ref) ((capped r m).considerRef item b ref) := by
  rcases h with h | h
  · exact .inl (truncated_considerRef h item ref)
  · simp only [StepRun.considerRef, h.raised, capReached_uncapped, Bool.false_eq_true, if_false]
    split_ifs with hraised hfull
    · exact .inr h
    · exact .inl rfl
    · exact List.foldl_rel (r := Uncut r) (.inr h)
        (fun c _ _ _ huncut => Uncut.consider hr huncut item ref.2 c)

theorem Uncut.expand (h : Uncut r f b) (item : Queued) :
    Uncut r ((uncapped r).expand f item) ((capped r m).expand b item) := by
  rcases h with h | h
  · exact .inl (truncated_expand h item)
  · have hdepth : (capped r m).step.maxDepth = (uncapped r).step.maxDepth := rfl
    simp only [StepRun.expand, hdepth, capReached_uncapped, Bool.false_eq_true, if_false]
    split_ifs with hdeep hfull
    · exact .inr h
    · exact .inl rfl
    · exact List.foldl_rel (r := Uncut r) (.inr h)
        (fun ref _ _ _ huncut => Uncut.considerRef hr huncut item ref)

end Lockstep

theorem queueWeight_tail (r : StepRun) (item : Queued) (rest : List Queued) :
    queueWeight r rest + 1 ≤ queueWeight r (item :: rest) := by
  have hpos : 1 ≤ StepRun.pathsBelow r.fanOut (r.step.maxDepth - item.depth) := by
    cases r.step.maxDepth - item.depth with
    | zero => exact Nat.le_refl 1
    | succ k =>
      rw [StepRun.pathsBelow]
      omega
  simp only [queueWeight, List.map_cons, List.sum_cons]
  omega

variable {r : StepRun} {inputs : List TraversalState} {env : QueryEnv} {q : NamedQuerySchema}
  {queryName : String}

theorem shallow_cons_deep {x : Queued} (h : ¬x.depth < r.step.maxDepth) (queue : List Queued) :
    shallow r (x :: queue) = shallow r queue :=
  List.filter_cons_of_neg (by simpa using h)

theorem shallow_cons {x : Queued} (h : x.depth < r.step.maxDepth) (queue : List Queued) :
    shallow r (x :: queue) = x :: shallow r queue :=
  List.filter_cons_of_pos (by simpa using h)

/-- A path that is not followed further is taken from one of the queues, or the same
path from both. -/
theorem Tied.settle {r : StepRun} (hr : r.retention = true) {m : Nat} {f b : Walk}
    (h : Tied r f b) : Uncut r (settle (uncapped r) f) (settle (capped r m) b) := by
  induction hn : queueWeight r f.queue + queueWeight r b.queue using Nat.strong_induction_on
    generalizing f b with
  | _ n ih =>
    have hqueue := h.queue
    have hdeep : ∀ x fr, f.queue = x :: fr → ¬x.depth < r.step.maxDepth →
        Uncut r (PathBudgets.settle (uncapped r) f) (PathBudgets.settle (capped r m) b) := by
      intro x fr hf hx
      have hweight := queueWeight_tail r x fr
      rw [hf, shallow_cons_deep hx] at hqueue
      rw [settle_deep (uncapped r) hf hx]
      refine ih _ ?_ (b := b) (f := { f with queue := fr })
        ⟨h.next, h.roots, h.raised, hqueue⟩ rfl
      rw [← hn, hf]
      exact Nat.add_lt_add_right hweight _
    cases hb : b.queue with
    | nil =>
      cases hf : f.queue with
      | nil =>
        rw [settle_nil _ hf, settle_nil _ hb]
        exact .inr h
      | cons x fr =>
        refine hdeep x fr hf fun hx => ?_
        rw [hb, hf, shallow_cons hx] at hqueue
        cases hqueue
    | cons y br =>
      by_cases hy : y.depth < r.step.maxDepth
      · cases hf : f.queue with
        | nil =>
          rw [hb, hf, shallow_cons hy] at hqueue
          cases hqueue
        | cons x fr =>
          have hweight := queueWeight_tail r x fr
          by_cases hx : x.depth < r.step.maxDepth
          · rw [hb, hf, shallow_cons hy, shallow_cons hx, List.cons.injEq] at hqueue
            have hpop : Tied r { f with queue := fr } { b with queue := br } :=
              ⟨h.next, h.roots, h.raised, hqueue.2⟩
            have hexpand := Uncut.expand hr (m := m) (.inr hpop) x
            rw [settle_cons (uncapped r) hf, settle_cons (capped r m) hb, hqueue.1]
            rcases hexpand with hcut | htied
            · exact .inl (truncated_walk hcut _)
            · have hleft := queueWeight_expand (uncapped r) x { f with queue := fr }
              have hright := queueWeight_expand (capped r m) x { b with queue := br }
              refine ih _ ?_ htied rfl
              rw [← hn, hf, hb, hqueue.1]
              change _ + 1 ≤ queueWeight r (x :: fr) at hleft
              change _ + 1 ≤ queueWeight r (x :: br) at hright
              change queueWeight (uncapped r) _ + queueWeight (capped r m) _ < _
              omega
          · exact hdeep x fr hf hx
      · have hweight := queueWeight_tail r y br
        rw [hb, shallow_cons_deep hy] at hqueue
        rw [settle_deep (capped r m) hb hy]
        refine ih _ ?_ (b := { b with queue := br }) (f := f)
          ⟨h.next, h.roots, h.raised, hqueue⟩ rfl
        rw [← hn, hb]
        exact Nat.add_lt_add_left hweight _

theorem Uncut.preserve {m : Nat} {f b : Walk} (h : Uncut r f b) (input : Nat × TraversalState) :
    Uncut r ((uncapped r).preserve f input) ((capped r m).preserve b input) := by
  rcases h with h | h
  · exact .inl (truncated_preserve h input)
  · have hnext := h.next
    simp only [StepRun.preserve, h.roots, capReached_uncapped, Bool.false_eq_true, if_false]
    split_ifs with hroot hfull
    · exact .inr h
    · exact .inl rfl
    · exact .inr ⟨by simp [hnext], rfl, h.raised, h.queue⟩

/-- A capped step that reports no cut yields what the step yields without the cap. -/
theorem run_uncut (hr : r.retention = true) (m : Nat) (states : List TraversalState) :
    Uncut r ((uncapped r).run states) ((capped r m).run states) := by
  have hseed : Tied r ((uncapped r).seed states) ((capped r m).seed states) :=
    ⟨rfl, rfl, rfl, rfl⟩
  have hsettled := hseed.settle hr (m := m)
  rw [run_eq_settle, run_eq_settle]
  rcases hsettled with hcut | htied
  · refine .inl ?_
    unfold StepRun.finish
    split_ifs
    · exact hcut
    · exact List.foldlRecOn (motive := fun w : Walk => w.truncated = true) _ _ hcut
        fun w hw input _ => truncated_preserve hw input
  · have hstep : (capped r m).step = (uncapped r).step := rfl
    have hindexed : (capped r m).indexedStates states = (uncapped r).indexedStates states := rfl
    unfold StepRun.finish
    rw [htied.raised, hstep, hindexed]
    split_ifs
    · exact .inr htied
    · exact List.foldl_rel (r := Uncut r) (.inr htied)
        (fun input _ _ _ huncut => huncut.preserve input)

/-- The extensions of a path by one to `k` hops. -/
def below (r : StepRun) : Nat → TraversalState → List TraversalState
  | 0, _ => []
  | k + 1, s => (hops r s).flatMap fun c => follow s c :: below r k (follow s c)

/-- No test raises on the way to them. -/
def CalmBelow (r : StepRun) : Nat → TraversalState → Prop
  | 0, _ => True
  | k + 1, s => Calm r s ∧ ∀ c ∈ hops r s, CalmBelow r k (follow s c)

/-- The paths that a step makes of one path. -/
def extensions (r : StepRun) (s : TraversalState) : List TraversalState :=
  if r.step.required || !(below r r.step.maxDepth s).isEmpty then below r r.step.maxDepth s
  else [s]

/-- The extensions of a path on the queue. -/
def ahead (r : StepRun) (x : Queued) : List TraversalState :=
  below r (r.step.maxDepth - x.depth) x.state

/-- A path is followed along its hops. -/
def followHops (r : StepRun) (item : Queued) (w : Walk) : Walk :=
  { w with
    nextStates := w.nextStates ++ (hops r item.state).map (follow item.state)
    producedRoots := w.producedRoots ++ (hops r item.state).map fun _ => item.root
    queue := w.queue ++ (hops r item.state).map (queuedNext item) }

@[simp] theorem followHops_nextStates (r : StepRun) (item : Queued) (w : Walk) :
    (followHops r item w).nextStates =
      w.nextStates ++ (hops r item.state).map (follow item.state) := rfl

@[simp] theorem followHops_queue (r : StepRun) (item : Queued) (w : Walk) :
    (followHops r item w).queue = w.queue ++ (hops r item.state).map (queuedNext item) := rfl

@[simp] theorem followHops_producedRoots (r : StepRun) (item : Queued) (w : Walk) :
    (followHops r item w).producedRoots =
      w.producedRoots ++ (hops r item.state).map fun _ => item.root := rfl

section Retention
variable {r : StepRun} (hr : r.retention = true)
  (hcap : ∀ states, r.capReached states = false)

include hr hcap

theorem foldl_retain (item : Queued) (cs : List Candidate) (w : Walk) :
    cs.foldl (r.retain item) w =
      { w with
        nextStates := w.nextStates ++ cs.map (follow item.state)
        producedRoots := w.producedRoots ++ cs.map fun _ => item.root
        queue := w.queue ++ cs.map (queuedNext item) } := by
  induction cs generalizing w with
  | nil => simp
  | cons c cs ih =>
    have hone : r.retain item w c =
        { w with
          nextStates := w.nextStates ++ [follow item.state c]
          producedRoots := w.producedRoots ++ [item.root]
          queue := w.queue ++ [queuedNext item c] } := by
      simp only [StepRun.retain, hr, hcap, if_true, Bool.false_eq_true, if_false]
      rfl
    rw [List.foldl_cons, hone, ih]
    simp

variable {w : Walk}

theorem expand_hops {item : Queued} (hw : w.raised = none) (hdeep : item.depth < r.step.maxDepth)
    (hcalm : Calm r item.state) : r.expand w item = followHops r item w := by
  rw [expand_calm hcap item hw hdeep hcalm, foldl_retain hr hcap]
  rfl

theorem settle_calm (hw : w.raised = none)
    (hcalm : ∀ x ∈ w.queue, CalmBelow r (r.step.maxDepth - x.depth) x.state) :
    (settle r w).raised = none ∧
      (settle r w).nextStates.Perm (w.nextStates ++ w.queue.flatMap (ahead r)) ∧
      ∀ i, i ∈ (settle r w).producedRoots ↔
        i ∈ w.producedRoots ∨ ∃ x ∈ w.queue, x.root = i ∧ ahead r x ≠ [] := by
  induction hn : queueWeight r w.queue using Nat.strong_induction_on generalizing w with
  | _ n ih =>
    cases hq : w.queue with
    | nil =>
      rw [settle_nil r hq]
      simp [hw]
    | cons item rest =>
      have hweight := queueWeight_next r hq
      rw [hn] at hweight
      have hpop : ({ w with queue := rest } : Walk).raised = none := hw
      have hrest : ∀ x ∈ rest, CalmBelow r (r.step.maxDepth - x.depth) x.state :=
        fun x hx => hcalm x (hq ▸ List.mem_cons_of_mem item hx)
      by_cases hdeep : item.depth < r.step.maxDepth
      · have ⟨k, hk⟩ : ∃ k, r.step.maxDepth - item.depth = k + 1 :=
          ⟨r.step.maxDepth - item.depth - 1, by omega⟩
        have hnext : r.step.maxDepth - (item.depth + 1) = k := by omega
        have hitem := hcalm item (hq ▸ List.mem_cons_self)
        rw [hk, CalmBelow] at hitem
        have hahead : ahead r item =
            (hops r item.state).flatMap fun c => follow item.state c ::
              ahead r (queuedNext item c) := by
          unfold ahead
          rw [hk, below]
          simp only [queuedNext, hnext]
        rw [settle_cons r hq]
        rw [expand_hops hr hcap hpop hdeep hitem.1] at hweight ⊢
        have hqueued : ∀ x ∈ rest ++ (hops r item.state).map (queuedNext item),
            CalmBelow r (r.step.maxDepth - x.depth) x.state := by
          intro x hx
          rcases List.mem_append.mp hx with hx | hx
          · exact hrest x hx
          · have ⟨c, hc, hxc⟩ := List.mem_map.mp hx
            rw [← hxc, queuedNext, hnext]
            exact hitem.2 c hc
        have hfollowed : (followHops r item { w with queue := rest }).raised = none := hw
        have ⟨hraised, hperm, hroots⟩ :=
          ih _ hweight hfollowed hqueued rfl
        refine ⟨hraised, hperm.trans ?_, ?_⟩
        · have hsplit := List.map_append_flatMap_perm (hops r item.state) (follow item.state)
            fun c => ahead r (queuedNext item c)
          rw [← hahead] at hsplit
          have hmap : ((hops r item.state).map (queuedNext item)).flatMap (ahead r) =
              (hops r item.state).flatMap fun c => ahead r (queuedNext item c) := by
            rw [List.flatMap_map]
          rw [followHops_nextStates, followHops_queue, List.flatMap_append, hmap,
            List.flatMap_cons, List.append_assoc]
          apply List.Perm.append_left
          have hswap : ((hops r item.state).map (follow item.state) ++
              (rest.flatMap (ahead r) ++
                (hops r item.state).flatMap fun c => ahead r (queuedNext item c))).Perm
              ((hops r item.state).map (follow item.state) ++
                ((hops r item.state).flatMap (fun c => ahead r (queuedNext item c)) ++
                  rest.flatMap (ahead r))) :=
            List.perm_append_comm.append_left _
          refine hswap.trans ?_
          rw [← List.append_assoc]
          exact hsplit.append_right _
        · intro i
          rw [hroots i, followHops_producedRoots, followHops_queue]
          have hempty : ahead r item ≠ [] ↔ ∃ c, c ∈ hops r item.state := by
            rw [hahead]
            cases hops r item.state with
            | nil => simp
            | cons c cs => simp
          constructor
          · rintro (hi | ⟨x, hx, hroot, hne⟩)
            · rcases List.mem_append.mp hi with hi | hi
              · exact .inl hi
              · have ⟨c, hc, hroot⟩ := List.mem_map.mp hi
                exact .inr ⟨item, List.mem_cons_self, hroot, hempty.mpr ⟨c, hc⟩⟩
            · rcases List.mem_append.mp hx with hx | hx
              · exact .inr ⟨x, List.mem_cons_of_mem item hx, hroot, hne⟩
              · have ⟨c, hc, hxc⟩ := List.mem_map.mp hx
                refine .inr ⟨item, List.mem_cons_self, ?_, hempty.mpr ⟨c, hc⟩⟩
                rw [← hroot, ← hxc]
                rfl
          · rintro (hi | ⟨x, hx, hroot, hne⟩)
            · exact .inl (List.mem_append_left _ hi)
            · rcases List.mem_cons.mp hx with hx | hx
              · rw [hx] at hroot hne
                have ⟨c, hc⟩ := hempty.mp hne
                exact .inl (List.mem_append_right _ (List.mem_map.mpr ⟨c, hc, hroot⟩))
              · exact .inr ⟨x, List.mem_append_left _ hx, hroot, hne⟩
      · have hzero : r.step.maxDepth - item.depth = 0 := by omega
        have hahead : ahead r item = [] := by
          unfold ahead
          rw [hzero, below]
        have htail := queueWeight_tail r item rest
        rw [← hq, hn] at htail
        rw [settle_deep r hq hdeep]
        have ⟨hraised, hperm, hroots⟩ := ih _ (Nat.lt_of_succ_le htail)
          (w := { w with queue := rest }) hpop hrest rfl
        refine ⟨hraised, ?_, ?_⟩
        · rw [List.flatMap_cons, hahead, List.nil_append]
          exact hperm
        · intro i
          rw [hroots i]
          simp [hahead]

theorem calm_of_settle (hw : w.raised = none) (hcalm : (settle r w).raised = none) :
    ∀ x ∈ w.queue, CalmBelow r (r.step.maxDepth - x.depth) x.state := by
  induction hn : queueWeight r w.queue using Nat.strong_induction_on generalizing w with
  | _ n ih =>
    cases hq : w.queue with
    | nil => exact fun x hx => by cases hx
    | cons item rest =>
      have hweight := queueWeight_next r hq
      rw [hn] at hweight
      have hpop : ({ w with queue := rest } : Walk).raised = none := hw
      by_cases hdeep : item.depth < r.step.maxDepth
      · have ⟨k, hk⟩ : ∃ k, r.step.maxDepth - item.depth = k + 1 :=
          ⟨r.step.maxDepth - item.depth - 1, by omega⟩
        have hnext : r.step.maxDepth - (item.depth + 1) = k := by omega
        rw [settle_cons r hq] at hcalm
        have hquiet := calm_of_expand hcap item hpop hdeep (raised_of_walk hcap hcalm)
        rw [expand_hops hr hcap hpop hdeep hquiet] at hweight hcalm
        have hfollowed : (followHops r item { w with queue := rest }).raised = none := hw
        have hlater := ih _ hweight hfollowed hcalm rfl
        intro x hx
        rcases List.mem_cons.mp hx with hx | hx
        · rw [hx, hk, CalmBelow]
          refine ⟨hquiet, ?_⟩
          intro c hc
          have hchild := hlater (queuedNext item c)
            (List.mem_append_right _ (List.mem_map_of_mem hc))
          rw [queuedNext, hnext] at hchild
          exact hchild
        · exact hlater x (List.mem_append_left _ hx)
      · have htail := queueWeight_tail r item rest
        rw [← hq, hn] at htail
        rw [settle_deep r hq hdeep] at hcalm
        have hlater := ih _ (Nat.lt_of_succ_le htail) (w := { w with queue := rest }) hpop hcalm rfl
        intro x hx
        rcases List.mem_cons.mp hx with hx | hx
        · have hzero : r.step.maxDepth - x.depth = 0 := by
            rw [hx]
            omega
          rw [hzero]
          trivial
        · exact hlater x hx

end Retention

variable {states : List TraversalState}

theorem seed_calm (h : ∀ s ∈ states, CalmBelow r r.step.maxDepth s) :
    ∀ x ∈ (r.seed states).queue, CalmBelow r (r.step.maxDepth - x.depth) x.state := by
  intro x hx
  have ⟨p, hp, hxp⟩ := List.mem_map.mp hx
  rw [← hxp]
  exact h p.2 (exists_mem_indexedStates.mp ⟨p.1, hp⟩)

theorem flatMap_ahead_seed (r : StepRun) (states : List TraversalState) :
    (r.seed states).queue.flatMap (ahead r) =
      (r.indexedStates states).flatMap fun p => below r r.step.maxDepth p.2 := by
  unfold StepRun.seed
  rw [List.flatMap_map]
  rfl

section Retention
variable {r : StepRun} (hr : r.retention = true)
  (hcap : ∀ states, r.capReached states = false)

include hcap

theorem foldl_preserve (inputs : List (Nat × TraversalState)) (w : Walk) :
    inputs.foldl r.preserve w =
      { w with nextStates := w.nextStates ++
          (inputs.filter fun p => p.1 ∉ w.producedRoots).map Prod.snd } := by
  induction inputs generalizing w with
  | nil => simp
  | cons p inputs ih =>
    rw [List.foldl_cons, ih, StepRun.preserve]
    by_cases hroot : p.1 ∈ w.producedRoots
    · rw [if_pos hroot, List.filter_cons_of_neg (by simpa using hroot)]
    · rw [if_neg hroot, hcap, List.filter_cons_of_pos (by simpa using hroot)]
      simp

theorem finish_raised (states : List TraversalState) (w : Walk) :
    (r.finish states w).raised = w.raised := by
  unfold StepRun.finish
  split_ifs
  · rfl
  · rw [foldl_preserve hcap]

include hr

theorem run_calm (h : ∀ s ∈ states, CalmBelow r r.step.maxDepth s) :
    (r.run states).raised = none ∧
      (r.run states).nextStates.Perm (states.flatMap (extensions r)) := by
  obtain ⟨hraised, hperm, hroots⟩ := settle_calm hr hcap rfl (seed_calm h)
  rw [flatMap_ahead_seed] at hperm
  change (settle r (r.seed states)).nextStates.Perm
    ([] ++ (r.indexedStates states).flatMap _) at hperm
  rw [List.nil_append] at hperm
  have hinputs := (map_indexedStates_perm r states).flatMap_right (extensions r)
  rw [List.flatMap_map] at hinputs
  rw [run_eq_settle]
  by_cases hrequired : r.step.required = true
  · have hfinish : r.finish states (settle r (r.seed states)) = settle r (r.seed states) := by
      simp [StepRun.finish, hrequired]
    have hextensions : (fun p : Nat × TraversalState => extensions r p.2) =
        fun p => below r r.step.maxDepth p.2 := by
      funext p
      simp [extensions, hrequired]
    rw [hextensions] at hinputs
    rw [hfinish]
    exact ⟨hraised, hperm.trans hinputs⟩
  · have hoptional : r.step.required = false := by simpa using hrequired
    have hfinish : r.finish states (settle r (r.seed states)) =
        (r.indexedStates states).foldl r.preserve (settle r (r.seed states)) := by
      simp [StepRun.finish, hoptional, hraised]
    have hproduced : ∀ p ∈ r.indexedStates states,
        (p.1 ∉ (settle r (r.seed states)).producedRoots) ↔
          below r r.step.maxDepth p.2 = [] := by
      intro p hp
      rw [hroots, ← not_iff_not, Decidable.not_not]
      constructor
      · rintro (hroot | ⟨x, hx, hroot, hne⟩)
        · cases hroot
        · obtain ⟨p', hp', hxp⟩ := List.mem_map.mp hx
          rw [← hxp] at hroot hne
          have hfirst := mem_indexedStates.mp hp'
          have hsecond := mem_indexedStates.mp hp
          change p'.1 = p.1 at hroot
          rw [hroot, hsecond, Option.some.injEq] at hfirst
          rw [hfirst]
          exact hne
      · intro hne
        exact .inr ⟨_, List.mem_map_of_mem hp, rfl, hne⟩
    have hkept : ((r.indexedStates states).filter fun p =>
        p.1 ∉ (settle r (r.seed states)).producedRoots).map Prod.snd =
          (r.indexedStates states).flatMap fun p =>
            if (below r r.step.maxDepth p.2).isEmpty then [p.2] else [] := by
      have hfilter : ((r.indexedStates states).filter fun p =>
          p.1 ∉ (settle r (r.seed states)).producedRoots) =
            (r.indexedStates states).filter fun p => (below r r.step.maxDepth p.2).isEmpty := by
        apply List.filter_congr
        intro p hp
        rw [Bool.eq_iff_iff, decide_eq_true_iff, hproduced p hp, List.isEmpty_iff]
      rw [hfilter]
      induction r.indexedStates states with
      | nil => rfl
      | cons p ps ih =>
        rw [List.flatMap_cons, List.filter_cons, ← ih]
        split_ifs <;> simp
    have hextensions : (fun p : Nat × TraversalState => extensions r p.2) =
        fun p => below r r.step.maxDepth p.2 ++
          if (below r r.step.maxDepth p.2).isEmpty then [p.2] else [] := by
      funext p
      unfold extensions
      cases hb : below r r.step.maxDepth p.2 with
      | nil => simp [hoptional]
      | cons t ts => simp
    rw [hfinish, foldl_preserve hcap]
    refine ⟨hraised, ?_⟩
    change ((settle r (r.seed states)).nextStates ++ _).Perm _
    rw [hkept]
    rw [hextensions] at hinputs
    exact (hperm.append_right _).trans ((List.flatMap_append_perm _ _ _).trans hinputs)

theorem calm_of_run (h : (r.run states).raised = none) :
    ∀ s ∈ states, CalmBelow r r.step.maxDepth s := by
  rw [run_eq_settle, finish_raised hcap] at h
  intro s hs
  have ⟨i, hi⟩ := exists_mem_indexedStates (r := r).mpr hs
  exact calm_of_settle hr hcap rfl h _ (List.mem_map_of_mem hi)

end Retention

/-- The same step in the order in which the graph lists its edges. -/
def unordered (r : StepRun) : StepRun := { r with stable := false, maxPaths := none }

theorem candidates_unordered (r : StepRun) (s : TraversalState) (ref : String × Direction) :
    (r.candidates s ref).Perm ((unordered r).candidates s ref) := by
  have hplain : (unordered r).candidates s ref =
      iterStepRelationships r.graph s.current ref.1 ref.2 r.step.aliasName := by
    simp [StepRun.candidates, unordered]
  rw [hplain, StepRun.candidates]
  split_ifs
  · exact sortedBy_perm _ _
  · exact .refl _

theorem hops_unordered (r : StepRun) (s : TraversalState) :
    (hops r s).Perm (hops (unordered r) s) := by
  unfold hops
  exact List.Perm.flatMap_left _ fun ref _ => (candidates_unordered r s ref).filter _

theorem calm_unordered (r : StepRun) (s : TraversalState) : Calm r s ↔ Calm (unordered r) s := by
  refine forall_congr' fun ref => forall_congr' fun href => ?_
  exact forall_congr' fun c => imp_congr_left (candidates_unordered r s ref).mem_iff

theorem below_unordered (r : StepRun) (k : Nat) (s : TraversalState) :
    (below r k s).Perm (below (unordered r) k s) := by
  induction k generalizing s with
  | zero => exact .refl _
  | succ k ih =>
    rw [below, below]
    exact (hops_unordered r s).flatMap fun c _ => (ih (follow s c)).cons _

theorem calmBelow_unordered (r : StepRun) (k : Nat) (s : TraversalState) :
    CalmBelow r k s ↔ CalmBelow (unordered r) k s := by
  induction k generalizing s with
  | zero => exact Iff.rfl
  | succ k ih =>
    rw [CalmBelow, CalmBelow, calm_unordered]
    refine and_congr_right fun _ => forall_congr' fun c => ?_
    rw [(hops_unordered r s).mem_iff, ih]

theorem extensions_unordered (r : StepRun) (s : TraversalState) :
    (extensions r s).Perm (extensions (unordered r) s) := by
  have hperm := below_unordered r r.step.maxDepth s
  have hempty : (below r r.step.maxDepth s).isEmpty =
      (below (unordered r) r.step.maxDepth s).isEmpty := hperm.isEmpty_eq
  unfold extensions
  change (if r.step.required || !(below r r.step.maxDepth s).isEmpty then _ else _ :
    List TraversalState).Perm (if r.step.required ||
      !(below (unordered r) r.step.maxDepth s).isEmpty then _ else _)
  rw [hempty]
  split_ifs
  · exact hperm
  · exact .refl _

theorem capReached_uncut (hm : r.maxPaths = none) (states : List TraversalState) :
    r.capReached states = false := by
  simp [StepRun.capReached, hm]

theorem flatMap_subperm {α β : Type} {xs ys : List α} (f : α → List β) (h : xs.Subperm ys) :
    (xs.flatMap f).Subperm (ys.flatMap f) := by
  have ⟨zs, hperm, hsub⟩ := h
  exact (hperm.flatMap_right f).symm.subperm.trans (hsub.flatMap f).subperm

theorem execute_ok {out : List TraversalState × Bool} (h : r.execute states = .ok out) :
    (r.run states).raised = none ∧ (r.run states).nextStates = out.1 ∧
      (r.run states).truncated = out.2 := by
  unfold StepRun.execute at h
  cases hraised : (r.run states).raised with
  | some e =>
    rw [hraised] at h
    cases h
  | none =>
    rw [hraised] at h
    have hout := Except.ok.inj h
    rw [← hout]
    exact ⟨rfl, rfl, rfl⟩

theorem execute_of_run (h : (r.run states).raised = none) :
    r.execute states = .ok ((r.run states).nextStates, (r.run states).truncated) := by
  unfold StepRun.execute
  rw [h]

theorem unordered_calm (hr : r.retention = true) (h : ∀ s ∈ inputs, CalmBelow r r.step.maxDepth s) :
    ((unordered r).run inputs).raised = none ∧
      ((unordered r).run inputs).nextStates.Perm (inputs.flatMap (extensions r)) := by
  have hcalm : ∀ s ∈ inputs, CalmBelow (unordered r) (unordered r).step.maxDepth s :=
    fun s hs => (calmBelow_unordered r _ s).mp (h s hs)
  have ⟨hraised, hperm⟩ := run_calm (r := unordered r) hr (capReached_uncut rfl) hcalm
  refine ⟨hraised, hperm.trans ?_⟩
  exact List.Perm.flatMap_left _ fun s _ => (extensions_unordered r s).symm

theorem uncapped_calm (hr : r.retention = true) (h : ∀ s ∈ inputs, CalmBelow r r.step.maxDepth s) :
    ((uncapped r).run inputs).nextStates.Perm (inputs.flatMap (extensions r)) :=
  (run_calm (r := uncapped r) hr (capReached_uncut rfl)
    (fun s hs => (calmBelow_unordered (uncapped r) _ s).mpr
      ((calmBelow_unordered r _ s).mp (h s hs)))).2.trans
    (List.Perm.flatMap_left _ fun s _ =>
      (extensions_unordered (uncapped r) s).trans (extensions_unordered r s).symm)

section Budget
variable {r : StepRun} (hr : r.retention = true) {m : Nat} (hm : r.maxPaths = some m)
  {inputs inputs' : List TraversalState} {out : List TraversalState × Bool}

include hm

theorem capped_self : capped r m = r := by
  simp [capped, ← hm]

include hr

theorem execute_length (h : r.execute inputs = .ok out) : out.1.length ≤ m := by
  have ⟨_, hnext, _⟩ := execute_ok h
  have hkept := run_kept hr m inputs
  rw [capped_self hm] at hkept
  rw [← hnext]
  cases hkept with
  | below room same =>
    rw [same]
    exact Nat.le_of_lt room
  | cut full kept quiet =>
    rw [kept]
    exact List.length_take_le _ _

/-- A step that reports no cut yields what it yields without the cap. -/
theorem step_whole (hinputs : inputs.Perm inputs') (h : r.execute inputs = .ok (out.1, false)) :
    ∃ out', (unordered r).execute inputs' = .ok out' ∧ out.1.Perm out'.1 := by
  have ⟨hraised, hnext, hcut⟩ := execute_ok h
  have huncut := run_uncut hr m inputs
  rw [capped_self hm] at huncut
  rcases huncut with hcut' | htied
  · rw [hcut] at hcut'
    cases hcut'
  · have hquiet : ((uncapped r).run inputs).raised = none := htied.raised ▸ hraised
    have hcalm : ∀ s ∈ inputs, CalmBelow r r.step.maxDepth s := by
      intro s hs
      have hs' := calm_of_run (r := uncapped r) hr (capReached_uncut rfl) hquiet s hs
      exact (calmBelow_unordered r _ s).mpr ((calmBelow_unordered (uncapped r) _ s).mp hs')
    have hcalm' : ∀ s ∈ inputs', CalmBelow r r.step.maxDepth s :=
      fun s hs => hcalm s (hinputs.mem_iff.mpr hs)
    have ⟨hraised', hperm'⟩ := unordered_calm hr hcalm'
    have hperm := uncapped_calm hr hcalm
    refine ⟨_, execute_of_run hraised', ?_⟩
    rw [← hnext, htied.next]
    exact hperm.trans ((hinputs.flatMap_right _).trans hperm'.symm)

/-- A step under the cap yields some of the paths that it yields without it. -/
theorem step_part (hinputs : inputs.Subperm inputs') (h : r.execute inputs = .ok out)
    {out' : List TraversalState × Bool} (h' : (unordered r).execute inputs' = .ok out') :
    out.1.Subperm out'.1 := by
  have ⟨_, hnext, _⟩ := execute_ok h
  have ⟨hraised', hnext', _⟩ := execute_ok h'
  have hcalm' : ∀ s ∈ inputs', CalmBelow r r.step.maxDepth s := by
    intro s hs
    have hs' := calm_of_run (r := unordered r) hr (capReached_uncut rfl) hraised' s hs
    exact (calmBelow_unordered r _ s).mpr hs'
  have hcalm : ∀ s ∈ inputs, CalmBelow r r.step.maxDepth s :=
    fun s hs => hcalm' s (hinputs.subset hs)
  have hkept := run_kept hr m inputs
  rw [capped_self hm] at hkept
  have hsub : out.1.Sublist ((uncapped r).run inputs).nextStates := by
    rw [← hnext]
    cases hkept with
    | below room same =>
      rw [same]
    | cut full kept quiet =>
      rw [kept]
      exact List.take_sublist _ _
  have hperm := uncapped_calm hr hcalm
  have ⟨_, hperm'⟩ := unordered_calm hr hcalm'
  rw [hnext'] at hperm'
  exact hsub.subperm.trans (hperm.subperm.trans
    ((flatMap_subperm _ hinputs).trans hperm'.symm.subperm))

end Budget

/-- The query without `max_paths`. -/
def unbudgeted (q : NamedQuerySchema) : NamedQuerySchema := { q with maxPaths := none }

variable {params : Params}

theorem stepRun_unbudgeted {g : EntityGraph} {declared : Option String} {step : TraversalStep}
    {index : Nat} (h : stepRun env g queryName q params q.maxPaths declared step index = .ok r) :
    stepRun env g queryName (unbudgeted q) params (unbudgeted q).maxPaths declared step index =
      .ok (unordered r) := by
  unfold stepRun at h ⊢
  rw [bind_eq_ok] at h ⊢
  have ⟨collect, hcollect, h⟩ := h
  have ⟨refs, hrefs, hr⟩ := bind_eq_ok.mp h
  rw [pure_eq_ok] at hr
  refine ⟨collect, hcollect, ?_⟩
  rw [bind_eq_ok]
  refine ⟨refs, hrefs, ?_⟩
  have hstable : ((unbudgeted q).requiresPathRetention && (unbudgeted q).maxPaths.isSome) =
      false := Bool.and_false _
  rw [pure_eq_ok, ← hr, hstable]
  rfl

/-- One turn of the loop over the steps. -/
def turn (env : QueryEnv) (g : EntityGraph) (queryName : String) (q : NamedQuerySchema)
    (params : Params) (declared : Option String) (acc : List TraversalState × Bool)
    (s : TraversalStep × Nat) : Except CoreError (List TraversalState × Bool) := do
  let r ← stepRun env g queryName q params q.maxPaths declared s.1 s.2
  let out ← r.execute acc.1
  pure (out.1, acc.2 || out.2)

section Query
variable {env : QueryEnv} {g : EntityGraph} {queryName : String} {q : NamedQuerySchema}
  {params : Params} {declared : Option String} {acc : List TraversalState × Bool}
  {states states' : List TraversalState} {rows : List QueryRowContext} {s : TraversalStep × Nat}

theorem turn_ok {next : List TraversalState × Bool}
    (h : turn env g queryName q params declared acc s = .ok next) :
    ∃ r out, stepRun env g queryName q params q.maxPaths declared s.1 s.2 = .ok r ∧
      r.retention = q.requiresPathRetention ∧ r.maxPaths = q.maxPaths ∧
      r.execute acc.1 = .ok out ∧ next = (out.1, acc.2 || out.2) := by
  unfold turn at h
  have ⟨r, hr, h⟩ := bind_eq_ok.mp h
  have ⟨out, hout, hnext⟩ := bind_eq_ok.mp h
  rw [pure_eq_ok] at hnext
  have ⟨hretention, hcap⟩ := stepRun_ok env g queryName q params hr
  exact ⟨r, out, hr, hretention, hcap, hout, hnext.symm⟩

variable {out : List TraversalState × Bool}

theorem turn_unbudgeted (hr : stepRun env g queryName q params q.maxPaths declared s.1 s.2 = .ok r)
    (hout : (unordered r).execute acc.1 = .ok out) :
    turn env g queryName (unbudgeted q) params declared acc s = .ok (out.1, acc.2 || out.2) := by
  unfold turn
  rw [bind_eq_ok]
  refine ⟨unordered r, stepRun_unbudgeted hr, ?_⟩
  rw [bind_eq_ok]
  exact ⟨out, hout, rfl⟩

theorem foldlM_budget (hretention : q.requiresPathRetention = true) {m : Nat}
    (hm : q.maxPaths = some m) {steps : List (TraversalStep × Nat)}
    (h : steps.foldlM (turn env g queryName q params declared) acc = .ok out) :
    (acc.1.length ≤ m → out.1.length ≤ m) ∧
      (out.2 = false → acc.2 = false ∧ ∀ acc', acc.1.Perm acc'.1 → ∃ out',
        steps.foldlM (turn env g queryName (unbudgeted q) params declared) acc' = .ok out' ∧
          out.1.Perm out'.1) ∧
      ∀ acc' out', acc.1.Subperm acc'.1 →
        steps.foldlM (turn env g queryName (unbudgeted q) params declared) acc' = .ok out' →
          out.1.Subperm out'.1 := by
  induction steps generalizing acc with
  | nil =>
    have hout : acc = out := by simpa [pure, Except.pure] using h
    rw [← hout]
    refine ⟨fun hlen => hlen, fun hcut => ⟨hcut, fun acc' hperm => ⟨acc', rfl, hperm⟩⟩, ?_⟩
    intro acc' out' hsub h'
    have hout' : acc' = out' := by simpa [pure, Except.pure] using h'
    rw [← hout']
    exact hsub
  | cons s steps ih =>
    have ⟨next, hnext, hrest⟩ := foldlM_cons_eq_ok.mp h
    have ⟨r, found, hr, hkeep, hcap, hfound, hpair⟩ := turn_ok hnext
    have hrm : r.maxPaths = some m := hcap.trans hm
    have hrr : r.retention = true := hkeep.trans hretention
    have ⟨hlength, hwhole, hpart⟩ := ih hrest
    rw [hpair] at hlength hwhole hpart
    have hfew : found.1.length ≤ m := execute_length hrr hrm hfound
    refine ⟨fun _ => hlength hfew, ?_, ?_⟩
    · intro hcut
      have ⟨hnocut, hagain⟩ := hwhole hcut
      rw [Bool.or_eq_false_iff] at hnocut
      refine ⟨hnocut.1, ?_⟩
      intro acc' hperm
      have hfound' : r.execute acc.1 = .ok (found.1, false) := by
        rw [hfound, ← hnocut.2]
      have ⟨out', hout', hsame⟩ := step_whole hrr hrm hperm hfound'
      have ⟨last, hlast, hends⟩ := hagain (out'.1, acc'.2 || out'.2) hsame
      refine ⟨last, ?_, hends⟩
      rw [List.foldlM_cons, bind_eq_ok]
      exact ⟨_, turn_unbudgeted hr hout', hlast⟩
    · intro acc' out' hsub h'
      rw [List.foldlM_cons, bind_eq_ok] at h'
      have ⟨next', hnext', hrest'⟩ := h'
      have ⟨r', found', hr', _, _, hfound', hpair'⟩ := turn_ok hnext'
      rw [stepRun_unbudgeted hr, Except.ok.injEq] at hr'
      rw [← hr'] at hfound'
      rw [hpair'] at hrest'
      have hsome : found.1.Subperm found'.1 := step_part hrr hrm hsub hfound hfound'
      exact hpart (found'.1, acc'.2 || found'.2) out' hsome hrest'

theorem traverse_budget (hretention : q.requiresPathRetention = true) {m : Nat}
    (hm : q.maxPaths = some m) (hpos : 1 ≤ m) {entry : EntityInstance}
    (h : traverse env g queryName q params declared entry = .ok out) :
    out.1.length ≤ m ∧
      (out.2 = false → ∃ out',
        traverse env g queryName (unbudgeted q) params declared entry = .ok out' ∧
          out.1.Perm out'.1) ∧
      ∀ out', traverse env g queryName (unbudgeted q) params declared entry = .ok out' →
        out.1.Subperm out'.1 := by
  have hfold : q.traversal.zipIdx.foldlM (turn env g queryName q params declared)
      ([startAt entry], false) = .ok out := h
  have ⟨hlength, hwhole, hpart⟩ := foldlM_budget hretention hm hfold
  refine ⟨hlength hpos, ?_, ?_⟩
  · intro hcut
    exact (hwhole hcut).2 ([startAt entry], false) (.refl _)
  · intro out' h'
    exact hpart ([startAt entry], false) out' (.refl _) h'

/-- No two of the paths that are kept are the same for `dedupe`. -/
def Distinct (q : NamedQuerySchema) (states : List TraversalState) : Prop :=
  q.dedupe = .none ∨ q.dedupe = .path ∧ (states.map fun s => pathIdentity s.path).Nodup

theorem eraseDupsBy_nodup {α β : Type} [DecidableEq β] (key : α → β) {xs : List α}
    (h : (xs.map key).Nodup) : xs.eraseDupsBy (fun a b => key a = key b) = xs := by
  induction xs with
  | nil => rfl
  | cons x xs ih =>
    rw [List.map_cons, List.nodup_cons] at h
    have hkeep : (xs.filter fun y => decide (key y = key x) = false) = xs := by
      rw [List.filter_eq_self]
      intro y hy
      have hne : key y ≠ key x := fun heq => h.1 (heq ▸ List.mem_map_of_mem hy)
      simpa using hne
    rw [List.eraseDupsBy_cons, hkeep, ih h.2]

theorem Distinct.dedupe (h : Distinct q states) : dedupeStates q.dedupe states = states := by
  rcases h with h | ⟨h, hnodup⟩
  · rw [h]
    rfl
  · rw [h]
    exact eraseDupsBy_nodup (fun s : TraversalState => pathIdentity s.path) hnodup

theorem Distinct.subperm (h : Distinct q states') (hsub : states.Subperm states') :
    Distinct q states := by
  rcases h with h | ⟨h, hnodup⟩
  · exact .inl h
  · have ⟨zs, hperm, hsublist⟩ := hsub
    have hzs := hnodup.sublist (hsublist.map _)
    exact .inr ⟨h, (hperm.map _).nodup_iff.mp hzs⟩

theorem foundRows_distinct (h : Distinct q states) :
    foundRows env q states = filterContextsByEntityState env.now q.relationshipState q.resultShape
      (buildResultContexts q.resultShape states) := by
  rw [foundRows, h.dedupe]

theorem foundRows_subperm (env : QueryEnv) (h : Distinct q states') (hsub : states.Subperm states') :
    (foundRows env q states).Subperm (foundRows env q states') := by
  have ⟨zs, hperm, hsublist⟩ := hsub
  rw [foundRows_distinct h, foundRows_distinct (h.subperm hsub)]
  have hbuilt : (buildResultContexts q.resultShape states).Subperm
      (buildResultContexts q.resultShape states') :=
    ⟨_, (hperm.filter _).map _, (hsublist.filter _).map _⟩
  have ⟨ys, hyperm, hysub⟩ := hbuilt
  unfold filterContextsByEntityState
  split_ifs
  · exact hbuilt
  · exact ⟨_, hyperm.filter _, hysub.filter _⟩

theorem validate_ok (queryName : String) :
    validateResultContextReturnTypes queryName declared rows = .ok () ↔
      ∀ t, declared = some t → ∀ c ∈ rows, c.result.entityType = t := by
  unfold validateResultContextReturnTypes
  cases declared with
  | none => simp
  | some t =>
    cases hfind : rows.find? fun c => c.result.entityType ≠ t with
    | none =>
      have hall := List.find?_eq_none.mp hfind
      constructor
      · intro _ t' ht c hc
        rw [← Option.some.inj ht]
        simpa using hall c hc
      · intro _
        dsimp only
        rw [hfind]
    | some c =>
      have hc := List.find?_some hfind
      have hmem := List.mem_of_find?_eq_some hfind
      constructor
      · intro h
        dsimp only at h
        rw [hfind] at h
        cases h
      · intro hall
        exact absurd (hall t rfl c hmem) (by simpa using hc)

theorem resultRows_ok :
    resultRows env g queryName q params declared states = .ok rows ↔
      (∀ t, declared = some t → ∀ c ∈ foundRows env q states, c.result.entityType = t) ∧
      (∀ c ∈ foundRows env q states, ∃ b, evaluateIncludes params g c q.includes = .ok b) ∧
      rows = (foundRows env q states).filter
        (passes fun row => evaluateIncludes params g row q.includes) := by
  unfold resultRows
  change (validateResultContextReturnTypes queryName declared (foundRows env q states) >>= fun _ =>
    applyIncludes params g q.includes (foundRows env q states)) = _ ↔ _
  rw [bind_eq_ok, ← validate_ok queryName]
  constructor
  · rintro ⟨u, hvalid, hrows⟩
    have ⟨hall, hfilter⟩ := filterM_eq_ok.mp hrows
    exact ⟨hvalid, hall, hfilter⟩
  · rintro ⟨hvalid, hall, hfilter⟩
    exact ⟨(), hvalid, filterM_eq_ok.mpr ⟨hall, hfilter⟩⟩

theorem foundRows_perm (env : QueryEnv) (h : Distinct q states') (hperm : states.Perm states') :
    (foundRows env q states).Perm (foundRows env q states') := by
  have hsub := foundRows_subperm env h hperm.subperm
  have hback := foundRows_subperm env (h.subperm hperm.subperm) hperm.symm.subperm
  exact hsub.antisymm hback

theorem resultRows_perm (h : Distinct q states) (hperm : states.Perm states')
    (hrows : resultRows env g queryName q params declared states = .ok rows) :
    ∃ rows', resultRows env g queryName (unbudgeted q) params declared states' = .ok rows' ∧
      rows.Perm rows' := by
  have hdistinct : Distinct q states' := h.subperm hperm.symm.subperm
  have hfound := foundRows_perm env hdistinct hperm
  have ⟨htypes, hincludes, hfilter⟩ := resultRows_ok.mp hrows
  refine ⟨_, resultRows_ok.mpr ⟨?_, ?_, rfl⟩, ?_⟩
  · exact fun t ht c hc => htypes t ht c (hfound.mem_iff.mpr hc)
  · exact fun c hc => hincludes c (hfound.mem_iff.mpr hc)
  · rw [hfilter]
    exact hfound.filter _

theorem resultRows_subperm (h : Distinct q states') (hsub : states.Subperm states')
    {rows' : List QueryRowContext}
    (hrows : resultRows env g queryName q params declared states = .ok rows)
    (hrows' : resultRows env g queryName (unbudgeted q) params declared states' = .ok rows') :
    rows.Subperm rows' := by
  have hfound := foundRows_subperm env h hsub
  have ⟨_, _, hfilter⟩ := resultRows_ok.mp hrows
  have ⟨_, _, hfilter'⟩ := resultRows_ok.mp hrows'
  rw [hfilter, hfilter']
  exact hfound.filter _

/-- Paths that stand for the same under `dedupe: path`. -/
def SameEdges (s t : TraversalState) : Prop := pathIdentity s.path = pathIdentity t.path

theorem exists_kept (hsub : states.Subperm states') {s : TraversalState}
    (hs : s ∈ dedupeStates .path states) : ∃ t ∈ dedupeStates .path states', SameEdges s t := by
  have hmem : s ∈ states' := hsub.subset (mem_eraseDupsBy hs)
  have ⟨t, ht, hsame⟩ := exists_mem_eraseDupsBy
    (p := fun s t : TraversalState => pathIdentity s.path = pathIdentity t.path) (by simp) hmem
  have hkey : pathIdentity s.path = pathIdentity t.path := of_decide_eq_true hsame
  exact ⟨t, ht, hkey⟩

end Query

theorem retention_of_budget (hvalid : validateEffectiveQueryOptions env queryName q = .ok ())
    (hm : q.maxPaths.isSome = true) : q.requiresPathRetention = true := by
  have hshape : q.resultShape ≠ .entity := by
    intro hshape
    have ⟨_, _, hnone, _⟩ := EntityTraversals.entity_options hvalid hshape
    rw [hnone] at hm
    cases hm
  unfold NamedQuerySchema.requiresPathRetention
  cases hs : q.resultShape with
  | entity => exact absurd hs hshape
  | path => rfl
  | relationship => rfl

theorem max_paths_reported {rows : List QueryRowContext} {truncated : Bool}
    (hm : q.maxPaths.isSome = true) {result : QueryResult}
    (h : limitResults params q (applyPathBudgets q.maxPaths q.maxPathsPerResult truncated rows).1
      (applyPathBudgets q.maxPaths q.maxPathsPerResult truncated rows).2 = .ok result) :
    "max_paths" ∈ result.truncationReasons ↔ truncated = true := by
  unfold limitResults at h
  have ⟨sorted, _, hresult⟩ := bind_eq_ok.mp h
  rw [pure_eq_ok] at hresult
  have hnone : ¬(q.maxPaths.isNone ∧ q.maxPathsPerResult.isNone) := by
    intro hboth
    rw [Option.isNone_iff_eq_none.mp hboth.1] at hm
    cases hm
  rw [← hresult, applyPathBudgets, if_neg hnone]
  have hlimit : "max_paths" ∉
      (if q.limit.any fun l => l < sorted.length then ["limit"] else [] : List String) := by
    split_ifs <;> simp
  have hper : ∀ c : Prop, [Decidable c] →
      "max_paths" ∉ (if c then ["max_paths_per_result"] else [] : List String) := by
    intro c _
    split_ifs <;> simp
  simp only [List.mem_append, hlimit, hper, or_false]
  cases truncated <;> simp

theorem validate_unbudgeted (h : validateEffectiveQueryOptions env queryName q = .ok ()) :
    validateEffectiveQueryOptions env queryName (unbudgeted q) = .ok () := by
  unfold validateEffectiveQueryOptions at h ⊢
  rw [bind_eq_ok] at h ⊢
  have ⟨_, hdedupe, h⟩ := h
  refine ⟨(), hdedupe, ?_⟩
  rw [bind_eq_ok] at h ⊢
  have ⟨_, hrequired, h⟩ := h
  refine ⟨(), hrequired, ?_⟩
  rw [bind_eq_ok] at h ⊢
  have ⟨_, hbudgets, h⟩ := h
  rw [refuseIf_eq_ok] at hbudgets
  refine ⟨(), refuseIf_eq_ok.mpr ?_, h⟩
  rintro ⟨hshape, hsome | hsome⟩
  · cases hsome
  · exact hbudgets ⟨hshape, .inr hsome⟩

/-- What the paths and rows under the cap are, beside those without it. -/
structure Honest (env : QueryEnv) (g : EntityGraph) (queryName : String) (q : NamedQuerySchema)
    (params : Params) (declared : Option String) (entry : EntityInstance) (m : Nat)
    (reached : List TraversalState × Bool) (rows : List QueryRowContext) : Prop where
  few : reached.1.length ≤ m
  whole : reached.2 = false → ∃ reached',
    traverse env g queryName (unbudgeted q) params declared entry = .ok reached' ∧
      reached.1.Perm reached'.1 ∧ (Distinct q reached.1 → ∃ rows',
        resultRows env g queryName (unbudgeted q) params declared reached'.1 = .ok rows' ∧
          rows.Perm rows')
  part : ∀ reached',
    traverse env g queryName (unbudgeted q) params declared entry = .ok reached' →
      reached.1.Subperm reached'.1 ∧ ∀ rows',
        resultRows env g queryName (unbudgeted q) params declared reached'.1 = .ok rows' →
          Distinct q reached'.1 → rows.Subperm rows'
  kept : ∀ reached',
    traverse env g queryName (unbudgeted q) params declared entry = .ok reached' →
      ∀ s ∈ dedupeStates .path reached.1, ∃ t ∈ dedupeStates .path reached'.1, SameEdges s t

/-- `max_paths` is honest about the paths of a query, and about the rows that they
give before the budget of each result, the order and the limit. A collection query
does not know it. -/
theorem max_paths_is_honest {env : QueryEnv} {g : EntityGraph} {queryName : String}
    {q : NamedQuerySchema} {params : Params} {m : Nat} {result : QueryResult}
    (hm : q.maxPaths = some m) (hpos : 1 ≤ m)
    (hrun : executeQueryDefinition env g queryName q params = .ok result) :
    (q.mode = .collection →
      executeQueryDefinition env g queryName (unbudgeted q) params = .ok result) ∧
    (q.mode = .traversal → ∃ declared entryPoint entry reached rows,
      resolveDeclaredEntityReturnType env queryName q = .ok declared ∧
      q.entryPoint = some entryPoint ∧ resolveEntryEntity env g entryPoint params = .ok entry ∧
      traverse env g queryName q params declared entry = .ok reached ∧
      resultRows env g queryName q params declared reached.1 = .ok rows ∧
      limitResults params q (applyPathBudgets q.maxPaths q.maxPathsPerResult reached.2 rows).1
        (applyPathBudgets q.maxPaths q.maxPathsPerResult reached.2 rows).2 = .ok result ∧
      ("max_paths" ∈ result.truncationReasons ↔ reached.2 = true) ∧
      Honest env g queryName q params declared entry m reached rows) := by
  constructor
  · intro hmode
    have hmode' : (unbudgeted q).mode = .collection := hmode
    unfold executeQueryDefinition at hrun ⊢
    rw [bind_eq_ok] at hrun ⊢
    have ⟨_, hvalid, hrun⟩ := hrun
    refine ⟨(), validate_unbudgeted hvalid, ?_⟩
    rw [bind_eq_ok] at hrun ⊢
    have ⟨declared, hdeclared, hrun⟩ := hrun
    refine ⟨declared, hdeclared, ?_⟩
    rw [hmode] at hrun
    rw [hmode']
    exact hrun
  · intro hmode
    have ⟨declared, entryPoint, entry, reached, rows, hvalid, hdeclared, hentryPoint, hentry,
      htraverse, hrows, hresult⟩ := executeQueryDefinition_traversal hmode hrun
    have hsome : q.maxPaths.isSome = true := by simp [hm]
    have hretention := retention_of_budget hvalid hsome
    have ⟨hfew, hwhole, hpart⟩ := traverse_budget hretention hm hpos htraverse
    refine ⟨declared, entryPoint, entry, reached, rows, hdeclared, hentryPoint, hentry, htraverse,
      hrows, hresult, max_paths_reported hsome hresult, ⟨hfew, ?_, ?_, ?_⟩⟩
    · intro hcut
      have ⟨reached', hreached', hperm⟩ := hwhole hcut
      exact ⟨reached', hreached', hperm, fun h => resultRows_perm h hperm hrows⟩
    · intro reached' hreached'
      have hsub := hpart reached' hreached'
      exact ⟨hsub, fun rows' hrows' h => resultRows_subperm h hsub hrows hrows'⟩
    · intro reached' hreached' s hs
      exact exists_kept (hpart reached' hreached') hs

open EntityTraversals (service dependsOn serviceGraph serviceEnv serviceParams)

/-- The paths of two dependencies, one for each service at the end. -/
def pathToEach (maxPaths : Option Nat) : NamedQuerySchema where
  entryPoint := some "Service"
  traversal := [{ relationshipTypes := ["depends_on"] }, { relationshipTypes := ["depends_on"] }]
  returns := "Service"
  dedupe := .entity
  maxPaths := maxPaths

/-- The first two paths of at most two dependencies. -/
def firstTwoPaths (maxPaths : Option Nat) : NamedQuerySchema where
  entryPoint := some "Service"
  traversal := [{ relationshipTypes := ["depends_on"], maxDepth := 2 }]
  returns := "Service"
  limit := some 2
  maxPaths := maxPaths

def pathsFrom (q : NamedQuerySchema) (edges : List EdgeData) : Except CoreError QueryResult :=
  executeQueryDefinition serviceEnv
    (serviceGraph [service "r" .live, service "a" .live, service "b" .live, service "v" .live]
      edges) "paths" q serviceParams

/-- The claim ids along the rows, and what is said to be missing. -/
def reported (result : Except CoreError QueryResult) : Option (List (List String) × List String) :=
  result.toOption.map fun r =>
    (r.results.map fun row => row.path.map QueryPathSegment.claimId, r.truncationReasons)

/-- Two ways to `v`, the later one in the order of names inserted first. -/
def diamond : List EdgeData :=
  [dependsOn 0 "r" "b", dependsOn 1 "r" "a", dependsOn 2 "b" "v", dependsOn 3 "a" "v"]

/-- `r` depends on `a` and `b`, and `a` on `v`. -/
def fork : List EdgeData := [dependsOn 0 "r" "a", dependsOn 1 "r" "b", dependsOn 2 "a" "v"]

/-- The two steps of a diamond under a cap with room. -/
theorem diamond_is_whole : ∃ result, pathsFrom { pathToEach (some 9) with dedupe := .path } diamond =
    .ok result ∧ ∃ entry reached rows, Honest serviceEnv
      (serviceGraph [service "r" .live, service "a" .live, service "b" .live, service "v" .live]
        diamond) "paths" { pathToEach (some 9) with dedupe := .path } serviceParams
      (some "Service") entry 9 reached rows ∧ reached.2 = false := by
  have hreported : reported (pathsFrom { pathToEach (some 9) with dedupe := .path } diamond) =
      some ([["ra", "av"], ["rb", "bv"]], []) := by decide +kernel
  cases hrun : pathsFrom { pathToEach (some 9) with dedupe := .path } diamond with
  | error e =>
      rw [hrun] at hreported
      cases hreported
  | ok result =>
      have ⟨declared, _, entry, reached, rows, hdeclared, _, _, _, _, _, hcut, hhonest⟩ :=
        (max_paths_is_honest (m := 9) rfl (by decide) hrun).2 rfl
      have hservice : some "Service" = declared := Except.ok.inj hdeclared
      rw [← hservice] at hhonest
      refine ⟨result, rfl, entry, reached, rows, hhonest, ?_⟩
      rw [hrun] at hreported
      have hreasons : result.truncationReasons = [] :=
        (Prod.mk.inj (Option.some.inj hreported)).2
      rw [hreasons] at hcut
      cases hr : reached.2 with
      | false => rfl
      | true => exact absurd (hcut.mpr hr) List.not_mem_nil

/-- Without a reported cut another path may stand for an entity, and with one a limit
may let a row through that it cuts from the complete result. -/
theorem max_paths_changes_rows :
    ¬ (∀ (env : QueryEnv) (g : EntityGraph) (queryName : String) (q : NamedQuerySchema)
      (params : Params) (m : Nat) (result result' : QueryResult), q.maxPaths = some m → 1 ≤ m →
      executeQueryDefinition env g queryName q params = .ok result →
      executeQueryDefinition env g queryName (unbudgeted q) params = .ok result' →
      ("max_paths" ∉ result.truncationReasons → result.results = result'.results) ∧
      ("max_paths" ∈ result.truncationReasons →
        ∀ row ∈ result.results, row ∈ result'.results)) ∧
    reported (pathsFrom (firstTwoPaths (some 2)) fork) =
      some ([["ra"], ["rb"]], ["max_paths"]) ∧
    reported (pathsFrom (firstTwoPaths none) fork) = some ([["ra"], ["ra", "av"]], ["limit"]) := by
  have hcapped : reported (pathsFrom (firstTwoPaths (some 2)) fork) =
      some ([["ra"], ["rb"]], ["max_paths"]) := by decide +kernel
  have hfull : reported (pathsFrom (firstTwoPaths none) fork) =
      some ([["ra"], ["ra", "av"]], ["limit"]) := by decide +kernel
  refine ⟨?_, hcapped, hfull⟩
  intro hall
  have hover : reported (pathsFrom (pathToEach (some 9)) diamond) =
      some ([["ra", "av"]], []) := by decide +kernel
  have hplain : reported (pathsFrom (pathToEach none) diamond) =
      some ([["rb", "bv"]], []) := by decide +kernel
  cases hrun : pathsFrom (pathToEach (some 9)) diamond with
  | error e =>
      rw [hrun] at hover
      cases hover
  | ok result =>
      cases hrun' : pathsFrom (pathToEach none) diamond with
      | error e =>
          rw [hrun'] at hplain
          cases hplain
      | ok result' =>
          rw [hrun] at hover
          rw [hrun'] at hplain
          have ⟨hrows, hreasons⟩ := Prod.mk.inj (Option.some.inj hover)
          have ⟨hrows', _⟩ := Prod.mk.inj (Option.some.inj hplain)
          have hsame := (hall _ _ _ _ _ 9 result result' rfl (by decide) hrun hrun').1 (by
            rw [hreasons]
            exact List.not_mem_nil)
          rw [hsame, hrows'] at hrows
          exact absurd hrows (by decide)

end Cruxible.PathBudgets
