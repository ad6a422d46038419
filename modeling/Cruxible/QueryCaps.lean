import Cruxible.QueryEngine
import Mathlib.Tactic.Ring

/-!
# What the caps of a query leave

The queue of a step runs empty on the fuel it is given. A step under `max_paths`
yields the first paths of the same step without the cap: the two runs agree until
the cap is reached, and from then on the capped one neither adds a path nor raises.
-/
namespace Cruxible.QueryCaps
open PythonDict AssertionState Cruxible.Graph PropertyValidation Neighbors QueryEngine
open Fallible (bind_eq_ok pure_eq_ok)

def queueWeight (r : StepRun) (queue : List Queued) : Nat :=
  (queue.map fun item => StepRun.pathsBelow r.fanOut (r.step.maxDepth - item.depth)).sum

theorem length_candidates_le (r : StepRun) (state : TraversalState) (ref : String × Direction) :
    (r.candidates state ref).length ≤ 2 * r.graph.edges.length := by
  have hfound : (iterStepRelationships r.graph state.current ref.1 ref.2
      r.step.aliasName).length ≤ 2 * r.graph.edges.length := by
    rw [iterStepRelationships, List.length_map]
    exact length_getNeighborRelationships_le _ _ _ _ _
  unfold StepRun.candidates
  split_ifs with hs
  · rw [(sortedBy_perm _ _).length_eq]
    exact hfound
  · exact hfound

theorem queueWeight_retain (r : StepRun) (item : Queued) (w : Walk) (c : Candidate) :
    queueWeight r (r.retain item w c).queue ≤ queueWeight r w.queue +
      StepRun.pathsBelow r.fanOut (r.step.maxDepth - (item.depth + 1)) := by
  unfold StepRun.retain queueWeight
  dsimp only
  split_ifs <;> simp

theorem queueWeight_consider (r : StepRun) (item : Queued) (d : Direction) (w : Walk)
    (c : Candidate) : queueWeight r (r.consider item d w c).queue ≤ queueWeight r w.queue +
      StepRun.pathsBelow r.fanOut (r.step.maxDepth - (item.depth + 1)) := by
  unfold StepRun.consider
  split_ifs with hraised hcap
  · omega
  · simp [Walk.cutOff, queueWeight]
  · cases r.admits d item.state c with
    | error e => simp [queueWeight]
    | ok passed =>
      cases passed with
      | false => simp
      | true => exact queueWeight_retain r item w c

theorem queueWeight_considerRef (r : StepRun) (item : Queued) (w : Walk)
    (ref : String × Direction) : queueWeight r (r.considerRef item w ref).queue ≤
      queueWeight r w.queue + (2 * r.graph.edges.length) *
        StepRun.pathsBelow r.fanOut (r.step.maxDepth - (item.depth + 1)) := by
  have hfold : ∀ (cs : List Candidate) (w : Walk),
      queueWeight r (cs.foldl (r.consider item ref.2) w).queue ≤ queueWeight r w.queue +
        cs.length * StepRun.pathsBelow r.fanOut (r.step.maxDepth - (item.depth + 1)) := by
    intro cs
    induction cs with
    | nil => simp
    | cons c cs ih =>
      intro w
      have hone := queueWeight_consider r item ref.2 w c
      have hrest := ih (r.consider item ref.2 w c)
      rw [List.foldl_cons, List.length_cons, Nat.add_mul]
      omega
  unfold StepRun.considerRef
  split_ifs with hraised hcap
  · omega
  · simp [Walk.cutOff, queueWeight]
  · have hall := hfold (r.candidates item.state ref) w
    have hlen := Nat.mul_le_mul_right
      (StepRun.pathsBelow r.fanOut (r.step.maxDepth - (item.depth + 1)))
      (length_candidates_le r item.state ref)
    omega

/-- Popping a path frees more than its continuations take. -/
theorem queueWeight_expand (r : StepRun) (item : Queued) (w : Walk) :
    queueWeight r (r.expand w item).queue + 1 ≤ queueWeight r (item :: w.queue) := by
  have hfold : ∀ (refs : List (String × Direction)) (w : Walk),
      queueWeight r (refs.foldl (r.considerRef item) w).queue ≤ queueWeight r w.queue +
        refs.length * (2 * r.graph.edges.length) *
          StepRun.pathsBelow r.fanOut (r.step.maxDepth - (item.depth + 1)) := by
    intro refs
    induction refs with
    | nil => simp
    | cons ref refs ih =>
      intro w
      have hone := queueWeight_considerRef r item w ref
      have hrest := ih (r.considerRef item w ref)
      rw [List.foldl_cons, List.length_cons, Nat.add_mul, Nat.add_mul, Nat.one_mul]
      omega
  have hpos : ∀ k, 1 ≤ StepRun.pathsBelow r.fanOut k := by
    intro k
    cases k with
    | zero | succ k => simp [StepRun.pathsBelow]
  have hcons : queueWeight r (item :: w.queue) =
      StepRun.pathsBelow r.fanOut (r.step.maxDepth - item.depth) + queueWeight r w.queue := by
    simp [queueWeight]
  rw [hcons]
  have hthis := hpos (r.step.maxDepth - item.depth)
  unfold StepRun.expand
  split_ifs with hdepth hcap
  · omega
  · simp only [Walk.cutOff, queueWeight, List.map_nil, List.sum_nil]
    omega
  · obtain ⟨k, hk⟩ : ∃ k, r.step.maxDepth - item.depth = k + 1 :=
      ⟨r.step.maxDepth - item.depth - 1, by omega⟩
    have hnext : r.step.maxDepth - (item.depth + 1) = k := by omega
    have hall := hfold r.refs w
    rw [hnext] at hall
    rw [hk, StepRun.pathsBelow]
    have hfan : r.refs.length * (2 * r.graph.edges.length) * StepRun.pathsBelow r.fanOut k =
        r.fanOut * StepRun.pathsBelow r.fanOut k := rfl
    omega

theorem walk_queue_nil (r : StepRun) {fuel : Nat} {w : Walk} (h : queueWeight r w.queue ≤ fuel) :
    (r.walk fuel w).queue = [] := by
  induction fuel generalizing w with
  | zero =>
    cases hq : w.queue with
    | nil => exact hq
    | cons item rest =>
      have hexpand := queueWeight_expand r item { w with queue := rest }
      rw [hq] at h
      simp only at hexpand
      omega
  | succ fuel ih =>
    rw [StepRun.walk]
    cases hq : w.queue with
    | nil => exact hq
    | cons item rest =>
      apply ih
      have hexpand := queueWeight_expand r item { w with queue := rest }
      rw [hq] at h
      simp only at hexpand
      omega

theorem run_queue_nil (r : StepRun) (states : List TraversalState) :
    (r.walk (r.fuel states) (r.seed states)).queue = [] := by
  apply walk_queue_nil
  have hlen : (r.indexedStates states).length = states.length := by
    unfold StepRun.indexedStates
    split_ifs
    · rw [(sortedBy_perm _ _).length_eq]
      simp
    · simp
  simp [StepRun.seed, queueWeight, StepRun.fuel, hlen, Function.comp_def]

/-- The uncapped run against the run with cap `m`. -/
inductive Kept (m : Nat) (f b : Walk) : Prop where
  /-- Below the cap they are the same. -/
  | below (room : f.nextStates.length < m) (same : b = { f with truncated := b.truncated })
  /-- Then the capped one keeps the first `m` paths. -/
  | cut (full : m ≤ f.nextStates.length) (kept : b.nextStates = f.nextStates.take m)
      (quiet : b.raised = none)

/-- What the loops of an uncapped step do to the paths found so far: they add. -/
theorem retain_extends (r : StepRun) (item : Queued) (w : Walk) (c : Candidate) :
    w.nextStates <+: (r.retain item w c).nextStates := by
  unfold StepRun.retain
  dsimp only
  split_ifs <;> simp

theorem consider_extends (r : StepRun) (item : Queued) (d : Direction) (w : Walk)
    (c : Candidate) : w.nextStates <+: (r.consider item d w c).nextStates := by
  unfold StepRun.consider
  split_ifs with hraised hcap
  · exact List.prefix_rfl
  · exact List.prefix_rfl
  · cases r.admits d item.state c with
    | error e => exact List.prefix_rfl
    | ok passed =>
      cases passed with
      | false => exact List.prefix_rfl
      | true => exact retain_extends r item w c

theorem foldl_extends {ι : Type} {f : Walk → ι → Walk}
    (hf : ∀ w x, w.nextStates <+: (f w x).nextStates) (xs : List ι) (w : Walk) :
    w.nextStates <+: (xs.foldl f w).nextStates := by
  induction xs generalizing w with
  | nil => exact List.prefix_rfl
  | cons x xs ih => exact (hf w x).trans (ih (f w x))

theorem considerRef_extends (r : StepRun) (item : Queued) (w : Walk) (ref : String × Direction) :
    w.nextStates <+: (r.considerRef item w ref).nextStates := by
  unfold StepRun.considerRef
  split_ifs with hraised hcap
  · exact List.prefix_rfl
  · exact List.prefix_rfl
  · exact foldl_extends (consider_extends r item ref.2) _ w

theorem expand_extends (r : StepRun) (w : Walk) (item : Queued) :
    w.nextStates <+: (r.expand w item).nextStates := by
  unfold StepRun.expand
  split_ifs with hdepth hcap
  · exact List.prefix_rfl
  · exact List.prefix_rfl
  · exact foldl_extends (considerRef_extends r item) _ w

theorem walk_extends (r : StepRun) (fuel : Nat) (w : Walk) :
    w.nextStates <+: (r.walk fuel w).nextStates := by
  induction fuel generalizing w with
  | zero => exact List.prefix_rfl
  | succ fuel ih =>
    rw [StepRun.walk]
    cases hq : w.queue with
    | nil => exact List.prefix_rfl
    | cons item rest => exact (expand_extends r { w with queue := rest } item).trans (ih _)

theorem preserve_extends (r : StepRun) (w : Walk) (input : Nat × TraversalState) :
    w.nextStates <+: (r.preserve w input).nextStates := by
  unfold StepRun.preserve
  split_ifs <;> simp

/-- The same run under a cap. -/
def capped (r : StepRun) (m : Nat) : StepRun := { r with maxPaths := some m }

def uncapped (r : StepRun) : StepRun := { r with maxPaths := none }

@[simp] theorem capReached_uncapped (r : StepRun) (states : List TraversalState) :
    (uncapped r).capReached states = false := by
  simp [StepRun.capReached, uncapped]

variable {r : StepRun}

theorem capReached_capped (hr : r.retention = true) (m : Nat) (states : List TraversalState) :
    (capped r m).capReached states = decide (m ≤ states.length) := by
  simp [StepRun.capReached, capped, hr]

/-- A full walk that has not raised is left alone by everything that a capped step does. -/
structure Still (kept : List TraversalState) (w : Walk) : Prop where
  kept : w.nextStates = kept
  quiet : w.raised = none

section Full
variable {r : StepRun} (hr : r.retention = true) {m : Nat} {kept : List TraversalState}
  (hm : m ≤ kept.length)
include hr hm

variable {w : Walk}

theorem Still.capReached (h : Still kept w) : (capped r m).capReached w.nextStates = true := by
  rw [capReached_capped hr, h.kept]
  simpa using hm

theorem Still.considerRef (h : Still kept w) (item : Queued) (ref : String × Direction) :
    Still kept ((capped r m).considerRef item w ref) := by
  have hcap := h.capReached hr hm
  have hquiet : w.raised.isSome = false := by simp [h.quiet]
  simp only [StepRun.considerRef, hquiet, hcap, Bool.false_eq_true, if_false, if_true]
  exact ⟨h.kept, h.quiet⟩

theorem Still.consider (h : Still kept w) (item : Queued) (d : Direction) (c : Candidate) :
    Still kept ((capped r m).consider item d w c) := by
  have hcap := h.capReached hr hm
  have hquiet : w.raised.isSome = false := by simp [h.quiet]
  simp only [StepRun.consider, hquiet, hcap, Bool.false_eq_true, if_false, if_true]
  exact ⟨h.kept, h.quiet⟩

theorem Still.expand (h : Still kept w) (item : Queued) :
    Still kept ((capped r m).expand w item) := by
  have hcap := h.capReached hr hm
  unfold StepRun.expand
  split_ifs with hdepth
  · exact h
  · exact ⟨h.kept, h.quiet⟩

theorem Still.walk (h : Still kept w) (fuel : Nat) : Still kept ((capped r m).walk fuel w) := by
  induction fuel generalizing w with
  | zero => exact h
  | succ fuel ih =>
    rw [StepRun.walk]
    cases hq : w.queue with
    | nil => exact h
    | cons item rest =>
      have hrest : Still kept { w with queue := rest } := ⟨h.kept, h.quiet⟩
      exact ih (hrest.expand hr hm item)

theorem Still.preserve (h : Still kept w) (input : Nat × TraversalState) :
    Still kept ((capped r m).preserve w input) := by
  have hcap := h.capReached hr hm
  unfold StepRun.preserve
  split_ifs with hroot
  · exact h
  · exact ⟨h.kept, h.quiet⟩

end Full

section Lockstep
variable {r : StepRun} (hr : r.retention = true) {m : Nat} {f b : Walk}

/-- Once the cap is reached, one run may go on and the other may try to. -/
theorem Kept.later {f' b' : Walk} (full : m ≤ f.nextStates.length)
    (kept : b.nextStates = f.nextStates.take m) (hf : f.nextStates <+: f'.nextStates)
    (hb : Still b.nextStates b') : Kept m f' b' := by
  obtain ⟨more, hmore⟩ := hf
  apply Kept.cut
  · rw [← hmore, List.length_append]
    omega
  · rw [hb.kept, kept, ← hmore, List.take_append_of_le_length full]
  · exact hb.quiet

theorem length_kept (full : m ≤ f.nextStates.length)
    (kept : b.nextStates = f.nextStates.take m) : m ≤ b.nextStates.length := by
  rw [kept, List.length_take]
  omega

/-- A path that reaches the cap is the last one that the capped run keeps. -/
theorem Kept.append {f' b' : Walk} {s : TraversalState} (room : f.nextStates.length < m)
    (hf : f'.nextStates = f.nextStates ++ [s]) (hb : b'.nextStates = f.nextStates ++ [s])
    (hquiet : b'.raised = none)
    (hsame : f.nextStates.length + 1 < m → b' = { f' with truncated := b'.truncated }) :
    Kept m f' b' := by
  have hlen : f'.nextStates.length = f.nextStates.length + 1 := by simp [hf]
  by_cases hroom : f.nextStates.length + 1 < m
  · exact .below (by omega) (hsame hroom)
  · apply Kept.cut (by omega) _ hquiet
    rw [hb, hf, List.take_of_length_le (by simp; omega)]

include hr

theorem capReached_below (room : f.nextStates.length < m)
    (same : b = { f with truncated := b.truncated }) :
    (capped r m).capReached b.nextStates = false := by
  have hnext : b.nextStates = f.nextStates := by rw [same]
  rw [capReached_capped hr, hnext, decide_eq_false_iff_not]
  omega

theorem Kept.retain (room : f.nextStates.length < m) (same : b = { f with truncated := b.truncated })
    (quiet : f.raised = none) (item : Queued) (c : Candidate) :
    Kept m ((uncapped r).retain item f c) ((capped r m).retain item b c) := by
  have hru : (uncapped r).retention = true := hr
  have hrc : (capped r m).retention = true := hr
  rw [same]
  apply Kept.append room
  · simp only [StepRun.retain, hru, capReached_uncapped, if_true, Bool.false_eq_true, if_false]
    rfl
  · simp only [StepRun.retain, hrc, if_true]
    split_ifs <;> rfl
  · simp only [StepRun.retain, hrc, if_true]
    split_ifs <;> exact quiet
  · intro hroom
    have hcap : ∀ s, (capped r m).capReached (f.nextStates ++ [s]) = false := by
      intro s
      rw [capReached_capped hr, decide_eq_false_iff_not]
      simpa using hroom
    simp only [StepRun.retain, hru, hrc, hcap, capReached_uncapped, if_true, Bool.false_eq_true,
      if_false]

theorem Kept.consider (h : Kept m f b) (item : Queued) (d : Direction) (c : Candidate) :
    Kept m ((uncapped r).consider item d f c) ((capped r m).consider item d b c) := by
  cases h with
  | cut full kept quiet =>
    exact Kept.later full kept (consider_extends _ _ _ _ _)
      (Still.consider hr (length_kept full kept) ⟨rfl, quiet⟩ item d c)
  | below room same =>
    have hraised : b.raised = f.raised := by rw [same]
    have hcap := capReached_below hr room same
    have hadmits : (capped r m).admits d item.state c = (uncapped r).admits d item.state c := rfl
    simp only [StepRun.consider, hraised, hcap, hadmits, capReached_uncapped,
      Bool.false_eq_true, if_false]
    cases hf : f.raised with
    | some e =>
      simp only [Option.isSome_some, if_true]
      exact .below room same
    | none =>
      simp only [Option.isSome_none, Bool.false_eq_true, if_false]
      cases (uncapped r).admits d item.state c with
      | error e =>
        apply Kept.below
        · exact room
        · rw [same]
      | ok passed =>
        cases passed with
        | false => exact .below room same
        | true => exact Kept.retain hr room same hf item c

theorem Kept.considerRef (h : Kept m f b) (item : Queued) (ref : String × Direction) :
    Kept m ((uncapped r).considerRef item f ref) ((capped r m).considerRef item b ref) := by
  cases h with
  | cut full kept quiet =>
    exact Kept.later full kept (considerRef_extends _ _ _ _)
      (Still.considerRef hr (length_kept full kept) ⟨rfl, quiet⟩ item ref)
  | below room same =>
    have hraised : b.raised = f.raised := by rw [same]
    have hcap := capReached_below hr room same
    simp only [StepRun.considerRef, hraised, hcap, capReached_uncapped, Bool.false_eq_true,
      if_false]
    split_ifs with hf
    · exact .below room same
    · exact List.foldl_rel (r := Kept m) (.below room same)
        (fun c _ _ _ hkept => Kept.consider hr hkept item ref.2 c)

theorem Kept.expand (h : Kept m f b) (item : Queued) :
    Kept m ((uncapped r).expand f item) ((capped r m).expand b item) := by
  cases h with
  | cut full kept quiet =>
    exact Kept.later full kept (expand_extends _ _ _)
      (Still.expand hr (length_kept full kept) ⟨rfl, quiet⟩ item)
  | below room same =>
    have hcap := capReached_below hr room same
    have hdepth : (capped r m).step.maxDepth = (uncapped r).step.maxDepth := rfl
    simp only [StepRun.expand, hdepth, hcap, capReached_uncapped, Bool.false_eq_true, if_false]
    split_ifs with hdeep
    · exact .below room same
    · exact List.foldl_rel (r := Kept m) (.below room same)
        (fun ref _ _ _ hkept => Kept.considerRef hr hkept item ref)

theorem Kept.walk (h : Kept m f b) (fuel : Nat) :
    Kept m ((uncapped r).walk fuel f) ((capped r m).walk fuel b) := by
  induction fuel generalizing f b with
  | zero => exact h
  | succ fuel ih =>
    cases h with
    | cut full kept quiet =>
      exact Kept.later full kept (walk_extends _ _ _)
        (Still.walk hr (length_kept full kept) ⟨rfl, quiet⟩ (fuel + 1))
    | below room same =>
      have hqueue : b.queue = f.queue := by rw [same]
      rw [StepRun.walk, StepRun.walk, hqueue]
      cases hq : f.queue with
      | nil => exact .below room same
      | cons item rest =>
        have hpop : Kept m { f with queue := rest } { b with queue := rest } := by
          apply Kept.below
          · exact room
          · rw [same]
        exact ih (Kept.expand hr hpop item)

theorem Kept.preserve (quiet : f.raised = none) (h : Kept m f b) (input : Nat × TraversalState) :
    Kept m ((uncapped r).preserve f input) ((capped r m).preserve b input) := by
  cases h with
  | cut full kept quietB =>
    exact Kept.later full kept (preserve_extends _ _ _)
      (Still.preserve hr (length_kept full kept) ⟨rfl, quietB⟩ input)
  | below room same =>
    have hroots : b.producedRoots = f.producedRoots := by rw [same]
    have hnext : b.nextStates = f.nextStates := by rw [same]
    have hcap := capReached_below hr room same
    simp only [StepRun.preserve, hroots, hcap, capReached_uncapped, Bool.false_eq_true, if_false]
    split_ifs with hroot
    · exact .below room same
    · apply Kept.append room rfl
      · simp [hnext]
      · rw [same]
        exact quiet
      · intro hroom
        rw [same]

end Lockstep

theorem preserve_raised (r : StepRun) (w : Walk) (input : Nat × TraversalState) :
    (r.preserve w input).raised = w.raised := by
  unfold StepRun.preserve
  split_ifs <;> rfl

theorem finish_extends (r : StepRun) (states : List TraversalState) (w : Walk) :
    w.nextStates <+: (r.finish states w).nextStates := by
  unfold StepRun.finish
  split_ifs
  · exact List.prefix_rfl
  · exact foldl_extends (preserve_extends r) _ w

theorem Still.finish {r : StepRun} (hr : r.retention = true) {m : Nat}
    {kept : List TraversalState} (hm : m ≤ kept.length) {w : Walk} (h : Still kept w)
    (states : List TraversalState) : Still kept ((capped r m).finish states w) := by
  unfold StepRun.finish
  split_ifs
  · exact h
  · exact List.foldlRecOn _ _ h (fun _ hw input _ => hw.preserve hr hm input)

theorem Kept.finish {r : StepRun} (hr : r.retention = true) {m : Nat} {f b : Walk}
    (h : Kept m f b) (states : List TraversalState) :
    Kept m ((uncapped r).finish states f) ((capped r m).finish states b) := by
  cases h with
  | cut full kept quiet =>
    exact Kept.later full kept (finish_extends _ _ _)
      (Still.finish hr (length_kept full kept) ⟨rfl, quiet⟩ states)
  | below room same =>
    have hraised : b.raised = f.raised := by rw [same]
    have hstep : (capped r m).step = (uncapped r).step := rfl
    have hindexed : (capped r m).indexedStates states = (uncapped r).indexedStates states := rfl
    simp only [StepRun.finish, hraised, hstep, hindexed]
    split_ifs with hdone
    · exact .below room same
    · have hquiet : f.raised = none := by
        simp only [Bool.or_eq_true, not_or, Option.not_isSome_iff_eq_none] at hdone
        exact hdone.2
      have hboth := List.foldl_rel (r := fun f b => Kept m f b ∧ f.raised = none)
        (l := (uncapped r).indexedStates states) (f := (uncapped r).preserve)
        (g := (capped r m).preserve) ⟨.below room same, hquiet⟩
        (fun input _ f b hkept => ⟨Kept.preserve hr hkept.2 hkept.1 input,
          (preserve_raised _ f input).trans hkept.2⟩)
      exact hboth.1

theorem run_kept (hr : r.retention = true) (m : Nat) (states : List TraversalState) :
    Kept m ((uncapped r).run states) ((capped r m).run states) := by
  have hseed : Kept m ((uncapped r).seed states) ((capped r m).seed states) := by
    cases m with
    | zero => exact .cut (Nat.zero_le _) rfl rfl
    | succ m => exact .below (Nat.zero_lt_succ m) rfl
  exact Kept.finish hr (Kept.walk hr hseed _) states

/-- A step's states, or its error, cut to the first `cap`: an error that comes after
them is not met. -/
def firstPaths (cap : Option Nat) (w : Walk) : Except CoreError (List TraversalState) :=
  if cap.any fun m => m ≤ w.nextStates.length then .ok (cap.elim [] w.nextStates.take)
  else match w.raised with
    | some e => .error e
    | none => .ok w.nextStates

/-- The cap that a step observes. -/
def effectiveCap (r : StepRun) : Option Nat := if r.retention then r.maxPaths else none

/-- The cap changes nothing in a step that does not retain paths. -/
theorem run_of_not_retention (hr : r.retention = false) (states : List TraversalState) :
    r.run states = (uncapped r).run states := by
  have hcap : ∀ next, r.capReached next = (uncapped r).capReached next := by
    intro next
    simp [StepRun.capReached, hr, uncapped]
  have hretain : r.retain = (uncapped r).retain := by
    funext item w c
    simp only [StepRun.retain, hcap]
    rfl
  have hconsider : r.consider = (uncapped r).consider := by
    funext item d w c
    simp only [StepRun.consider, hcap, hretain]
    rfl
  have hexpand : r.expand = (uncapped r).expand := by
    funext w item
    have hrefs : r.considerRef item = (uncapped r).considerRef item := by
      funext w ref
      simp only [StepRun.considerRef, hcap, hconsider]
      rfl
    simp only [StepRun.expand, hcap, hrefs]
    rfl
  have hwalk : ∀ fuel w, r.walk fuel w = (uncapped r).walk fuel w := by
    intro fuel
    induction fuel with
    | zero => exact fun _ => rfl
    | succ fuel ih =>
      intro w
      simp only [StepRun.walk, hexpand, ih]
  have hfinish : r.finish states = (uncapped r).finish states := by
    have hpreserve : r.preserve = (uncapped r).preserve := by
      funext w input
      simp only [StepRun.preserve, hcap]
    funext w
    simp only [StepRun.finish, hpreserve]
    rfl
  rw [StepRun.run, StepRun.run, hwalk, hfinish]
  rfl

theorem execute_eq_firstPaths (r : StepRun) (states : List TraversalState) :
    (r.execute states).map Prod.fst = firstPaths (effectiveCap r) ((uncapped r).run states) := by
  have hplain : ∀ r' : StepRun, (r'.execute states).map Prod.fst =
      firstPaths none (r'.run states) := by
    intro r'
    simp only [StepRun.execute, firstPaths, Option.any_none, Bool.false_eq_true, if_false]
    cases (r'.run states).raised <;> rfl
  by_cases hr : r.retention = true
  · cases hm : r.maxPaths with
    | none =>
      have hself : uncapped r = r := by
        simp [uncapped, ← hm]
      rw [hplain, hself, effectiveCap, if_pos hr, hm]
    | some m =>
      have hself : capped r m = r := by
        simp [capped, ← hm]
      have hkept := run_kept hr m states
      rw [hself] at hkept
      rw [hplain, effectiveCap, if_pos hr, hm]
      cases hkept with
      | below room same =>
        have hfull : ¬ m ≤ ((uncapped r).run states).nextStates.length := by omega
        rw [same]
        simp [firstPaths, hfull]
      | cut full kept quiet => simp [firstPaths, full, kept, quiet]
  · have hfalse : r.retention = false := by simpa using hr
    rw [hplain, effectiveCap, if_neg hr, run_of_not_retention hfalse]

section Query
variable (env : QueryEnv) (g : EntityGraph) (queryName : String) (q : NamedQuerySchema)
  (params : Params)

theorem stepRun_cap (declared : Option String) (step : TraversalStep) (index : Nat)
    (cap : Option Nat) : stepRun env g queryName q params cap declared step index =
      (stepRun env g queryName q params none declared step index).map
        fun r => { r with maxPaths := cap } := by
  unfold stepRun
  cases stepCollectEntityType env q declared step index with
  | error e => rfl
  | ok collect =>
    simp only [bind, Except.bind]
    split <;> rfl

theorem stepRun_ok {declared : Option String} {step : TraversalStep} {index : Nat} {r : StepRun}
    {cap : Option Nat} (h : stepRun env g queryName q params cap declared step index = .ok r) :
    r.retention = q.requiresPathRetention ∧ r.maxPaths = cap := by
  unfold stepRun at h
  obtain ⟨collect, -, h⟩ := bind_eq_ok.mp h
  obtain ⟨refs, -, h⟩ := bind_eq_ok.mp h
  obtain rfl := pure_eq_ok.mp h
  exact ⟨rfl, rfl⟩

end Query

end Cruxible.QueryCaps
