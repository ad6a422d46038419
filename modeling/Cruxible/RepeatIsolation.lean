import Cruxible.ProcedureRuns

/-!
# Budgets and isolation of repeats

What the log of a procedure run shows: provider calls and attempts stay within
their limits, and a step refers to the outputs of the plan and of its own attempt and
to nothing else. A repeat leaves one output, that of the attempt that satisfied its
condition, unless a step of its body is named like the count of the attempts.
-/
namespace Cruxible.RepeatIsolation
open JsonValue PythonDict PropertyValidation ReadMetadata Attempts Attempt JustifiedLogs
open WorkflowRuns hiding Event executeItem executeStep executeAttempts
open ProcedureRuns

/-- The attempt whose outputs a place shares, if it is in one. -/
def body : Place → Option (Nat × Nat)
  | .top _ => none
  | .nested index attempt _ => some (index, attempt)

/-- An output of the plan is seen from everywhere, one of an attempt from inside. -/
def see (b : Option (Nat × Nat)) (outputs : Outputs) : Event → Outputs
  | .stored place key output =>
      if body place = none ∨ body place = b then outputs.set key (.object output) else outputs
  | _ => outputs

/-- The outputs that a step may refer to. -/
def scopeAt (b : Option (Nat × Nat)) (log : List Event) : Outputs := log.foldl (see b) ∅

def keep (b : Option (Nat × Nat)) (outputs : Outputs) : Event → Outputs
  | .stored place key output =>
      if body place = b then outputs.set key (.object output) else outputs
  | _ => outputs

/-- The outputs that were stored in one attempt. -/
def attemptOutputs (index attempt : Nat) (log : List Event) : Outputs :=
  log.foldl (keep (some (index, attempt))) ∅

def isInvocation : Event → Bool
  | .invoked .. => true
  | _ => false

def isAttempt (index : Nat) : Event → Bool
  | .attempted i _ => i = index
  | _ => false

def invocations (log : List Event) : Nat := log.countP isInvocation

def attempts (index : Nat) (log : List Event) : Nat := log.countP (isAttempt index)

/-- What an entry of the log has to say about the entries before it. -/
def Isolated (plan : List PlanItem) (past : List Event) : Event → Prop
  | .started place visible => visible = scopeAt (body place) past
  | .stored (.top index) key output =>
      ∀ stepId asName maxAttempts untilSpec steps,
        plan[index]? = some (.repeatSteps stepId asName maxAttempts untilSpec steps) →
        key = outputKey stepId asName ∧
        ∃ attempt, .judged index attempt true ∈ past ∧
          Bindings.get? output "attempt_count" = some (count attempt) ∧
          (∀ name ∈ nestedOutputKeys steps,
            Bindings.get? output name = (attemptOutputs index attempt past).get? name) ∧
          ∀ name, name ∉ nestedOutputKeys steps → name ≠ "attempt_count" →
            Bindings.get? output name = none
  | .completed index visible =>
      ∀ stepId asName maxAttempts untilSpec steps,
        plan[index]? = some (.repeatSteps stepId asName maxAttempts untilSpec steps) →
        ∃ before key output, .started (.top index) before ∈ past ∧
          .stored (.top index) key output ∈ past ∧ visible = before.set key (.object output)
  | _ => True

/-- The provider calls and the attempts stay within their limits. -/
structure WithinBudget (env : ProcedureEnv) (plan : List PlanItem) (c : Context) : Prop where
  calls : invocations c.log ≤ env.maxProviderCalls
  bodies : ∀ index stepId asName maxAttempts untilSpec steps,
    plan[index]? = some (.repeatSteps stepId asName maxAttempts untilSpec steps) →
    attempts index c.log ≤ maxAttempts

/-- Every step saw what it should, and so does whoever reads the outputs at the end. -/
structure Separated (plan : List PlanItem) (c : Context) : Prop where
  log : Justified (Isolated plan) c.log
  visible : c.stepOutputs = scopeAt none c.log

def namesOutputs : PlanItem → Bool
  | .repeatSteps _ _ _ _ steps =>
      (nestedOutputKeys steps).all fun name => name ≠ "" && name ≠ "attempt_count"
  | .step _ => true

/-- No output of an attempt is named like the count of the attempts, or not at all. -/
def NamedOutputs (plan : List PlanItem) : Prop := ∀ item ∈ plan, namesOutputs item = true

section Scopes
variable {b : Option (Nat × Nat)} {log new : List Event}

/-- The entry was written by a step of the given body. -/
def InBody (b : Option (Nat × Nat)) : Event → Prop
  | .started place _ => body place = b
  | .invoked place _ _ => body place = b
  | .stored place _ _ => body place = b
  | _ => False

theorem scopeAt_append : scopeAt b (log ++ new) = new.foldl (see b) (scopeAt b log) :=
  List.foldl_append

/-- Two bodies see the same of a log in which neither has stored anything. -/
theorem foldl_see_congr {b' : Option (Nat × Nat)}
    (h : ∀ e ∈ new, ∀ outputs, see b outputs e = see b' outputs e) (outputs : Outputs) :
    new.foldl (see b) outputs = new.foldl (see b') outputs := by
  induction new generalizing outputs with
  | nil => rfl
  | cons e new ih =>
    rw [List.foldl_cons, List.foldl_cons, h e List.mem_cons_self]
    exact ih (fun d hd => h d (List.mem_cons_of_mem e hd)) _

variable {attempt index : Nat}

theorem scopeAt_fresh (h : ∀ e ∈ log, ¬InBody (some (index, attempt)) e) :
    scopeAt (some (index, attempt)) log = scopeAt none log := by
  apply foldl_see_congr
  intro e he outputs
  cases e with
  | stored place key output =>
    have hne : body place ≠ some (index, attempt) := h _ he
    simp only [see]
    by_cases hp : body place = none
    case pos => rw [if_pos (.inl hp), if_pos (.inl hp)]
    case neg => rw [if_neg (not_or.mpr ⟨hp, hne⟩), if_neg (not_or.mpr ⟨hp, hp⟩)]
  | _ => rfl

theorem scopeAt_outside (h : ∀ e ∈ new, InBody (some (index, attempt)) e) :
    scopeAt none (log ++ new) = scopeAt none log := by
  rw [scopeAt_append]
  generalize scopeAt none log = outputs
  induction new with
  | nil => rfl
  | cons e new ih =>
    have he := h e List.mem_cons_self
    have hsee : see none outputs e = outputs := by
      cases e with
      | stored place key output =>
        have hb : body place = some (index, attempt) := he
        simp [see, hb]
      | _ => rfl
    rw [List.foldl_cons, hsee]
    exact ih fun d hd => h d (List.mem_cons_of_mem e hd)

theorem get?_scopeAt_inside (h : ∀ e ∈ new, InBody (some (index, attempt)) e) (outer : Outputs)
    (name : String) (seen kept : Outputs)
    (hseen : seen.get? name = (kept.get? name).or (outer.get? name)) :
    (new.foldl (see (some (index, attempt))) seen).get? name =
      ((new.foldl (keep (some (index, attempt))) kept).get? name).or (outer.get? name) := by
  induction new generalizing seen kept with
  | nil => exact hseen
  | cons e new ih =>
    rw [List.foldl_cons, List.foldl_cons]
    apply ih fun d hd => h d (List.mem_cons_of_mem e hd)
    cases e with
    | stored place key output =>
      have hb : body place = some (index, attempt) := h _ List.mem_cons_self
      simp only [see, keep, hb, or_true, if_true, Dict.get?_set]
      by_cases hk : key = name
      case pos => simp [hk]
      case neg => simp [hk, hseen]
    | _ => exact hseen

theorem foldl_keep_fresh (h : ∀ e ∈ log, ¬InBody (some (index, attempt)) e) (outputs : Outputs) :
    log.foldl (keep (some (index, attempt))) outputs = outputs := by
  induction log with
  | nil => rfl
  | cons e log ih =>
    have hkeep : keep (some (index, attempt)) outputs e = outputs := by
      cases e with
      | stored place key output =>
        have hne : body place ≠ some (index, attempt) := h _ List.mem_cons_self
        simp only [keep, if_neg hne]
      | _ => rfl
    rw [List.foldl_cons, hkeep]
    exact ih fun d hd => h d (List.mem_cons_of_mem e hd)

theorem isSome_attemptOutputs {place : Place} {name : String} {output : Object}
    (hmem : Event.stored place name output ∈ log) (hb : body place = some (index, attempt)) :
    ((attemptOutputs index attempt log).get? name).isSome := by
  have ⟨front, rest, hlog⟩ := List.append_of_mem hmem
  unfold attemptOutputs
  rw [hlog, List.foldl_append, List.foldl_cons]
  have hnow : ∀ outputs : Outputs,
      ((keep (some (index, attempt)) outputs (.stored place name output)).get? name).isSome := by
    intro outputs
    simp [keep, hb]
  have hstays : ∀ (rest : List Event) (outputs : Outputs), (outputs.get? name).isSome →
      ((rest.foldl (keep (some (index, attempt))) outputs).get? name).isSome := by
    intro rest
    induction rest with
    | nil => exact fun _ h => h
    | cons e rest ih =>
      intro outputs h
      rw [List.foldl_cons]
      apply ih
      cases e with
      | stored place key output =>
        simp only [keep]
        split_ifs
        case pos =>
          rw [Dict.get?_set]
          split_ifs <;> simp [h]
        case neg => exact h
      | _ => exact h
  exact hstays rest _ (hnow _)

end Scopes

section Steps
variable {env : ProcedureEnv} {plan : List PlanItem} {b : Option (Nat × Nat)}

/-- The provider calls of the log are counted, and the count is within the budget. -/
def Spent (env : ProcedureEnv) (c : Context) : Prop :=
  invocations c.log ≤ c.providerCalls ∧ c.providerCalls ≤ env.maxProviderCalls

/-- The context holds what the log says a body sees. -/
structure Sound (plan : List PlanItem) (b : Option (Nat × Nat)) (c : Context) : Prop where
  visible : c.stepOutputs = scopeAt b c.log
  log : Justified (Isolated plan) c.log

/-- What the steps of a body do to the context. -/
structure Runs (env : ProcedureEnv) (plan : List PlanItem) (b : Option (Nat × Nat))
    (s t : Context) : Prop where
  log : ∃ new, t.log = s.log ++ new ∧ ∀ e ∈ new, InBody b e
  spent : Spent env s → Spent env t
  sound : Sound plan b s → Sound plan b t

variable {s t c : Context} {outputs : Outputs} {e : Event} {place : Place} {u : Unit}
  {k : Nat}

theorem Runs.trans {u : Context} (h : Runs env plan b s t) (k : Runs env plan b t u) :
    Runs env plan b s u where
  log := by
    have ⟨new, hnew, hb⟩ := h.log
    have ⟨more, hmore, hc⟩ := k.log
    refine ⟨new ++ more, by rw [hmore, hnew, List.append_assoc], ?_⟩
    intro e he
    rcases List.mem_append.mp he with he | he
    · exact hb e he
    · exact hc e he
  spent := fun hs => k.spent (h.spent hs)
  sound := fun hs => k.sound (h.sound hs)

/-- Reading the clock, and counting a call that the budget allows. -/
theorem Runs.of_counters (houtputs : t.stepOutputs = s.stepOutputs) (hlog : t.log = s.log)
    (hcalls : s.providerCalls ≤ t.providerCalls)
    (hmax : s.providerCalls ≤ env.maxProviderCalls → t.providerCalls ≤ env.maxProviderCalls) :
    Runs env plan b s t where
  log := ⟨[], by rw [hlog, List.append_nil], by simp⟩
  spent := by
    intro hs
    constructor
    · rw [hlog]
      exact Nat.le_trans hs.1 hcalls
    · exact hmax hs.2
  sound := by
    intro hs
    exact
      { visible := by rw [houtputs, hlog, hs.visible]
        log := hlog ▸ hs.log }

theorem Runs.refl (s : Context) : Runs env plan b s s :=
  .of_counters rfl rfl (Nat.le_refl _) id

theorem runs_bind {α β : Type} {x : Handler α} {f : α → Handler β}
    (hx : Always (Runs env plan b) x) (hf : ∀ a, Always (Runs env plan b) (f a)) :
    Always (Runs env plan b) (x >>= f) :=
  always_bind (R := Runs env plan b) (fun _ _ _ h k => h.trans k) hx hf

theorem always_remaining : Always (Runs env plan b) (remainingWallClockS env) := fun _ =>
  .of_counters rfl rfl (Nat.le_refl _) id

theorem always_checkWallClock : Always (Runs env plan b) (checkWallClock env) := by
  apply runs_bind always_remaining
  intro remaining
  split_ifs
  case pos => exact always_raise Runs.refl _
  case neg => exact always_ret Runs.refl _

theorem always_core {α : Type} (x : Except CoreError α) :
    Always (Runs env plan b) (core x) := always_lift Runs.refl _

theorem Sound.note (hs : Sound plan b c) (he : Isolated plan c.log e)
    (hsee : ∀ outputs, see b outputs e = outputs) : Sound plan b (c.note e) where
  visible := by
    have hscope : scopeAt b (c.log ++ [e]) = scopeAt b c.log := by
      rw [scopeAt_append]
      exact hsee _
    exact hs.visible.trans hscope.symm
  log := justified_append.mpr ⟨hs.log, he⟩

theorem invocations_append (log new : List Event) :
    invocations (log ++ new) = invocations log + invocations new := List.countP_append

theorem always_started (place : Place) :
    Always (Runs env plan (body place))
      (modify fun c => c.note (.started place c.stepOutputs) : Handler Unit) := by
  intro c
  exact
    { log := ⟨[.started place c.stepOutputs], rfl, by simp [InBody]⟩
      spent := by
        intro hs
        have hlog : invocations (c.log ++ [.started place c.stepOutputs]) =
            invocations c.log := invocations_append _ _
        exact ⟨hlog ▸ hs.1, hs.2⟩
      sound := fun hs => hs.note hs.visible fun _ => rfl }

/-- A step of the plan that is not a repeat. -/
def Plain (plan : List PlanItem) (place : Place) : Prop :=
  ∀ index, place = .top index → ∃ s, plan[index]? = some (.step s)

variable {output inScope : Object} {later : Nat} {nested : List PlanStep}

theorem Sound.store {stepId : String} {asName : Option String} (hs : Sound plan (body place) c)
    (he : Isolated plan c.log (.stored place (outputKey stepId asName) output)) :
    Sound plan (body place) (setStepOutput place stepId asName output c).2 where
  visible := by
    have hscope : scopeAt (body place)
        (c.log ++ [.stored place (outputKey stepId asName) output]) =
        (scopeAt (body place) c.log).set (outputKey stepId asName) (.object output) := by
      rw [scopeAt_append]
      simp [see]
    exact (congrArg (fun seen : Outputs => seen.set _ _) hs.visible).trans hscope.symm
  log := justified_append.mpr ⟨hs.log, he⟩

theorem always_setStepOutput (hplain : Plain plan place) (stepId : String) (asName : Option String)
    (output : Object) :
    Always (Runs env plan (body place)) (setStepOutput place stepId asName output) := by
  intro c
  exact
    { log := ⟨[.stored place (outputKey stepId asName) output], rfl, by simp [InBody]⟩
      spent := by
        intro hs
        have hlog : invocations (c.log ++ [.stored place (outputKey stepId asName) output]) =
            invocations c.log := invocations_append _ _
        exact ⟨hlog ▸ hs.1, hs.2⟩
      sound := by
        intro hs
        apply hs.store
        cases place with
        | nested _ _ _ => trivial
        | top index =>
          intro _ _ _ _ _ hitem
          have ⟨s, hstep⟩ := hplain index rfl
          rw [hstep] at hitem
          cases hitem }

theorem checkWallClock_state (env : ProcedureEnv) (c : Context) :
    (checkWallClock env c).2 = { c with readings := c.readings + 1 } := by
  unfold checkWallClock
  apply bind_rule (P := fun r : Except ProcedureError Unit × Context =>
    r.2 = { c with readings := c.readings + 1 })
  · intro e t h
    cases h
  · intro remaining t h
    cases h
    split_ifs <;> rfl

/-- The budget refuses, or it counts one more call than the context had. -/
def Counts (env : ProcedureEnv) (c : Context) : Except ProcedureError Rat × Context → Prop
  | (.error _, t) => ∃ n, t = { c with readings := n }
  | (.ok _, t) => c.providerCalls < env.maxProviderCalls ∧
      ∃ n, t = { c with providerCalls := c.providerCalls + 1, readings := n }

theorem beforeProviderInvocation_counts (env : ProcedureEnv) (c : Context) :
    Counts env c (beforeProviderInvocation env c) := by
  have hclock := checkWallClock_state env c
  apply bind_rule (P := Counts env c)
  · intro e t h
    rw [h] at hclock
    exact ⟨_, hclock⟩
  · intro _ s h
    rw [h] at hclock
    have hs : s = { c with readings := c.readings + 1 } := hclock
    apply bind_rule (P := Counts env c)
    · intro e t hget
      cases hget
    · intro c' t hget
      cases hget
      split_ifs with hcalls
      case pos => exact ⟨_, hclock⟩
      case neg =>
          apply bind_rule (P := Counts env c)
          · intro e t hread
            cases hread
          · intro remaining t hread
            cases hread
            split_ifs
            case pos => exact ⟨s.readings + 1, by rw [hs]⟩
            case neg =>
                rw [hs] at hcalls
                exact ⟨Nat.lt_of_not_le hcalls, s.readings + 1, by rw [hs]⟩

theorem invokeProvider_runs {name : String} {payload : Object} {remaining : Rat} (n : Nat)
    (hcalls : s.providerCalls < env.maxProviderCalls)
    (hc : c = { s with providerCalls := s.providerCalls + 1, readings := n }) :
    Runs env plan (body place) s (invokeProvider env place name payload remaining c).2 := by
  have hcall : (invokeProvider env place name payload remaining c).2 =
      { s with
        providerCalls := s.providerCalls + 1, readings := n
        log := s.log ++ [.invoked place name payload] } := by
    rw [hc]
    rfl
  rw [hcall]
  exact
    { log := ⟨[.invoked place name payload], rfl, by simp [InBody]⟩
      spent := by
        intro hs
        have hlog : invocations (s.log ++ [.invoked place name payload]) =
            invocations s.log + 1 := invocations_append _ _
        constructor
        · have hle := hs.1
          change invocations (s.log ++ [.invoked place name payload]) ≤ s.providerCalls + 1
          omega
        · exact hcalls
      sound := by
        intro hs
        have hnote : Sound plan (body place) (s.note (.invoked place name payload)) :=
          hs.note trivial fun _ => rfl
        exact { visible := hnote.visible, log := hnote.log } }

theorem checkedOutput_runs {name : String} {input : Value} {payload : Object} {remaining : Rat}
    (n : Nat) (hcalls : s.providerCalls < env.maxProviderCalls)
    (hc : c = { s with providerCalls := s.providerCalls + 1, readings := n }) :
    Runs env plan (body place) s (checkedOutput env place name input payload remaining c).2 := by
  have hinvoked : Runs env plan (body place) s
      (invokeProvider env place name payload remaining c).2 := invokeProvider_runs n hcalls hc
  apply bind_rule (P := fun r => Runs env plan (body place) s r.2)
  · intro e t h
    rwa [h] at hinvoked
  · intro returned t h
    rw [h] at hinvoked
    apply hinvoked.trans
    have hchecks : Always (Runs env plan (body place)) (core (requireMapping name returned) >>=
        fun raw => core (env.validateOutput name raw) >>= fun checked => get >>= fun c =>
          core (sourceReadMetadataFromTemplate input c.stepOutputs) >>= fun metadata =>
            pure (providerOutput checked metadata)) := by
      apply runs_bind (always_core _)
      intro raw
      apply runs_bind (always_core _)
      intro checked
      apply runs_bind (always_get Runs.refl)
      intro after
      apply runs_bind (always_core _)
      intro metadata
      exact always_ret Runs.refl _
    exact hchecks t

theorem always_callProvider (place : Place) (name : String) (input : Value) (payload : Object) :
    Always (Runs env plan (body place)) (callProvider env place name input payload) := by
  intro c
  have hcounts := beforeProviderInvocation_counts env c
  apply bind_rule (P := fun r => Runs env plan (body place) c r.2)
  · intro e t h
    rw [h] at hcounts
    have ⟨n, ht⟩ := hcounts
    rw [ht]
    exact .of_counters rfl rfl (Nat.le_refl _) id
  · intro remaining t h
    rw [h] at hcounts
    have ⟨hcalls, n, ht⟩ := hcounts
    apply bind_rule (P := fun r => Runs env plan (body place) c r.2)
    · intro e u hget
      cases hget
    · intro c' u hget
      cases hget
      apply bind_rule (P := fun r => Runs env plan (body place) c r.2)
      · intro e u hverify
        have hu : t = u := congrArg Prod.snd hverify
        rw [← hu, ht]
        exact .of_counters rfl rfl (Nat.le_succ _) fun _ => hcalls
      · intro _ u hverify
        have hu : t = u := congrArg Prod.snd hverify
        rw [rewordError_state]
        exact checkedOutput_runs n hcalls (hu ▸ ht)

theorem handle_cases (env : ProcedureEnv) (place : Place) (s : PlanStep) :
    (∃ name input, handle env place s = executeProviderStep env place s name input) ∨
      handle env place s = executeOtherStep env place s := by
  unfold handle
  split
  · exact .inl ⟨_, _, rfl⟩
  · exact .inr rfl

theorem always_handle (hplain : Plain plan place) (s : PlanStep) :
    Always (Runs env plan (body place)) (handle env place s) := by
  have hprovider : ∀ name input, Always (Runs env plan (body place))
      (executeProviderStep env place s name input) := by
    intro name input
    apply runs_bind (always_get Runs.refl)
    intro c
    apply runs_bind (always_core _)
    intro resolved
    apply runs_bind (always_core _)
    intro payload
    apply runs_bind (always_callProvider place name input payload)
    intro output
    apply runs_bind (always_core _)
    intro _
    apply runs_bind (always_core _)
    intro _
    apply runs_bind (always_setStepOutput hplain s.stepId s.asName output)
    intro _
    exact always_checkWallClock
  have hother : Always (Runs env plan (body place)) (executeOtherStep env place s) := by
    apply runs_bind (always_get Runs.refl)
    intro c
    apply runs_bind (always_core _)
    intro done
    split
    · exact always_ret Runs.refl _
    · exact always_setStepOutput hplain s.stepId s.asName _
  rcases handle_cases env place s with ⟨provider, input, heq⟩ | heq
  · exact heq ▸ hprovider provider input
  · exact heq ▸ hother

theorem always_executeStep (hplain : Plain plan place) (s : PlanStep) :
    Always (Runs env plan (body place)) (executeStep env place s) :=
  runs_bind (always_started place) fun _ => always_rewordError (always_handle hplain s)

theorem always_executeNestedSteps (index attempt : Nat) (position : Nat) (steps : List PlanStep) :
    Always (Runs env plan (some (index, attempt)))
      (executeNestedSteps env index attempt position steps) := by
  induction steps generalizing position with
  | nil => exact always_ret Runs.refl _
  | cons s steps ih =>
    apply runs_bind always_checkWallClock
    intro _
    have hplain : Plain plan (.nested index attempt position) := fun _ h => nomatch h
    apply runs_bind (b := some (index, attempt)) (always_executeStep hplain s)
    intro _
    exact ih (position + 1)

/-- No step of the attempt, or of a later one, has run yet. -/
def Ahead (index attempt : Nat) (log : List Event) : Prop :=
  ∀ e ∈ log, ∀ i k, InBody (some (i, k)) e → i < index ∨ i = index ∧ k < attempt

variable {log : List Event} {result : Except ProcedureError Outputs}

theorem Ahead.fresh {index attempt : Nat} (h : Ahead index attempt log) :
    ∀ e ∈ log, ¬InBody (some (index, attempt)) e := by
  intro e he hb
  have hlt := h e he index attempt hb
  omega

theorem Ahead.next {index attempt : Nat} {new : List Event} (h : Ahead index attempt log)
    (hnew : ∀ e ∈ new, ∀ b, InBody b e → b = none ∨ b = some (index, attempt)) :
    Ahead index (attempt + 1) (log ++ new) := by
  intro e he i k hb
  rcases List.mem_append.mp he with he | he
  · have hlt := h e he i k hb
    omega
  · rcases hnew e he _ hb with heq | heq
    · cases heq
    · cases heq
      omega

theorem Ahead.mono {index attempt : Nat} (h : Ahead index attempt log) (hle : attempt ≤ later) :
    Ahead index later log := by
  intro e he i k hb
  have hlt := h e he i k hb
  omega

theorem InBody.unique {b' : Option (Nat × Nat)} (h : InBody b e) (h' : InBody b' e) : b = b' := by
  cases e with
  | started place visible => exact h.symm.trans h'
  | invoked place provider payload => exact h.symm.trans h'
  | stored place key output => exact h.symm.trans h'
  | _ => exact h.elim

/-- What an attempt does to the context around it. -/
structure AttemptRan (env : ProcedureEnv) (plan : List PlanItem) (index attempt : Nat)
    (s t : Context) (result : Except ProcedureError Outputs) : Prop where
  log : ∃ new, t.log = s.log ++ .attempted index attempt :: new ∧
    ∀ e ∈ new, InBody (some (index, attempt)) e
  spent : Spent env s → Spent env t
  restored : t.stepOutputs = s.stepOutputs
  sound : Ahead index attempt s.log → Sound plan none s → Sound plan none t
  outputs : Ahead index attempt s.log → Sound plan none s →
    ∀ outputs, result = .ok outputs → outputs = scopeAt (some (index, attempt)) t.log

theorem Sound.enter {index attempt : Nat} (hs : Sound plan none s)
    (h : Ahead index attempt s.log) :
    Sound plan (some (index, attempt)) (s.note (.attempted index attempt)) := by
  have hsame : Sound plan (some (index, attempt)) s :=
    { visible := hs.visible.trans (scopeAt_fresh h.fresh).symm
      log := hs.log }
  exact hsame.note trivial fun _ => rfl

theorem always_executeBody (index attempt : Nat) (steps : List PlanStep) :
    Always (Runs env plan (some (index, attempt))) (executeBody env index attempt steps) := by
  apply runs_bind (always_executeNestedSteps index attempt 0 steps)
  intro _
  apply runs_bind (always_get Runs.refl)
  intro c
  exact always_ret Runs.refl _

theorem executeBody_ok {index attempt : Nat} {steps : List PlanStep} {u : Context}
    (h : executeBody env index attempt steps s = (.ok outputs, u)) :
    executeNestedSteps env index attempt 0 steps s = (.ok (), u) ∧ outputs = u.stepOutputs := by
  have ⟨_, c, hsteps, h⟩ := bind_eq_ok.mp h
  have ⟨c', d, hget, h⟩ := bind_eq_ok.mp h
  have ⟨hc, hd⟩ := get_eq_ok.mp hget
  cases h
  exact ⟨hd ▸ hsteps, by rw [← hc, ← hd]⟩

/-- However the body ends, the outputs are put back. -/
theorem executeAttempt_ran {index attempt : Nat} {steps : List PlanStep}
    (h : executeAttempt env index attempt steps s = (result, t)) :
    AttemptRan env plan index attempt s t result := by
  have hbody : Runs env plan (some (index, attempt)) (s.note (.attempted index attempt))
      (executeBody env index attempt steps (s.note (.attempted index attempt))).2 :=
    always_executeBody index attempt steps _
  cases hrun : executeBody env index attempt steps (s.note (.attempted index attempt)) with
  | mk r u =>
    rw [hrun] at hbody
    have hrestore : (r, { u with stepOutputs := s.stepOutputs, aliasStepIds := s.aliasStepIds })
        = (result, t) := by
      rw [← h, executeAttempt, bracketed, hrun]
    have hr : r = result := congrArg Prod.fst hrestore
    have ht : { u with stepOutputs := s.stepOutputs, aliasStepIds := s.aliasStepIds } = t :=
      congrArg Prod.snd hrestore
    have ⟨new, hlog, hnew⟩ := hbody.log
    have hlog' : u.log = s.log ++ .attempted index attempt :: new := by
      rw [hlog, Context.note, List.append_assoc, List.singleton_append]
    have hinside : Ahead index attempt s.log → Sound plan none s →
        Sound plan (some (index, attempt)) u := fun hahead hs => hbody.sound (hs.enter hahead)
    subst hr ht
    exact
      { log := ⟨new, hlog', hnew⟩
        spent := by
          intro hs
          have hnote : Spent env (s.note (.attempted index attempt)) := by
            have hsame : invocations (s.log ++ [.attempted index attempt]) =
                invocations s.log := invocations_append _ _
            exact ⟨hsame ▸ hs.1, hs.2⟩
          exact hbody.spent hnote
        restored := rfl
        sound := by
          intro hahead hs
          have hscope : scopeAt none u.log = scopeAt none s.log := by
            rw [hlog', ← List.singleton_append, ← List.append_assoc, scopeAt_outside hnew,
              scopeAt_append]
            rfl
          exact
            { visible := hs.visible.trans hscope.symm
              log := (hinside hahead hs).log }
        outputs := by
          intro hahead hs outputs houtputs
          have ⟨_, heq⟩ := executeBody_ok (houtputs ▸ hrun)
          rw [heq]
          exact (hinside hahead hs).visible }

theorem perform_output {answers : RunEnv} {clock : Nat} {outputs : Outputs} {s : PlanStep}
    {done : Performed} (h : perform answers clock outputs s = .ok done) (hd : done.output = none) :
    StepBody.asserts s.body = true := by
  have hsome : ∀ output query, done = { output := some output, query := query } → False := by
    intro output query heq
    rw [heq] at hd
    cases hd
  unfold perform at h
  cases hbody : s.body with
  | query params relationshipState =>
    rw [hbody] at h
    have ⟨resolved, _, h⟩ := Fallible.bind_eq_ok.mp h
    have ⟨state, _, h⟩ := Fallible.bind_eq_ok.mp h
    have ⟨outcome, _, h⟩ := Fallible.bind_eq_ok.mp h
    exact (hsome _ _ (Fallible.pure_eq_ok.mp h).symm).elim
  | provider name input =>
    rw [hbody] at h
    have ⟨resolved, _, h⟩ := Fallible.bind_eq_ok.mp h
    have ⟨result, _, h⟩ := Fallible.bind_eq_ok.mp h
    have ⟨metadata, _, h⟩ := Fallible.bind_eq_ok.mp h
    exact (hsome _ _ (Fallible.pure_eq_ok.mp h).symm).elim
  | shapeItems spec | joinItems spec | filterItems spec | artifact spec =>
    rw [hbody] at h
    have ⟨output, _, h⟩ := Fallible.bind_eq_ok.mp h
    exact (hsome _ _ (Fallible.pure_eq_ok.mp h).symm).elim
  | _ => rfl

theorem setStepOutput_stores {stepId name : String} {asName : Option String}
    (h : setStepOutput place stepId asName output c = (.ok u, t)) (hname : asName = some name)
    (hne : name ≠ "") : .stored place name output ∈ t.log := by
  have hkey : outputKey stepId asName = name := by
    rw [hname]
    exact if_neg hne
  rw [← modify_eq_ok.mp h, hkey]
  exact List.mem_append_right _ List.mem_cons_self

theorem log_mono (h : Runs env plan b s t) (he : e ∈ s.log) : e ∈ t.log := by
  have ⟨new, hlog, _⟩ := h.log
  rw [hlog]
  exact List.mem_append_left new he

theorem executeProviderStep_stores {s : PlanStep} {provider name : String} {input : Value}
    (h : executeProviderStep env place s provider input c = (.ok u, t))
    (hname : s.asName = some name) (hne : name ≠ "") :
    ∃ output, .stored place name output ∈ t.log := by
  have ⟨_, _, _, h⟩ := bind_eq_ok.mp h
  have ⟨_, _, _, h⟩ := bind_eq_ok.mp h
  have ⟨_, _, _, h⟩ := bind_eq_ok.mp h
  have ⟨_, _, _, h⟩ := bind_eq_ok.mp h
  have ⟨_, _, _, h⟩ := bind_eq_ok.mp h
  have ⟨_, _, _, h⟩ := bind_eq_ok.mp h
  have ⟨_, d, hset, h⟩ := bind_eq_ok.mp h
  have hstored := setStepOutput_stores hset hname hne
  have hstate : t = { d with readings := d.readings + 1 } := by
    rw [← checkWallClock_state env d, h]
  have hlog : t.log = d.log := by rw [hstate]
  exact ⟨_, hlog ▸ hstored⟩

theorem executeOtherStep_stores {s : PlanStep} {name : String}
    (h : executeOtherStep env place s c = (.ok u, t)) (hasserts : StepBody.asserts s.body = false)
    (hname : s.asName = some name) (hne : name ≠ "") :
    ∃ output, .stored place name output ∈ t.log := by
  have ⟨c', _, _, h⟩ := bind_eq_ok.mp h
  have ⟨done, d, hperform, h⟩ := bind_eq_ok.mp h
  have hdone := Fallible.mapError_eq_ok.mp (lift_eq_ok.mp hperform).1
  cases houtput : done.output with
  | none =>
    rw [perform_output hdone houtput] at hasserts
    cases hasserts
  | some output =>
    rw [houtput] at h
    exact ⟨output, setStepOutput_stores h hname hne⟩

theorem rewordError_eq_ok {f : ProcedureError → ProcedureError} {x : Handler Unit}
    (h : rewordError f x s = (.ok u, t)) : x s = (.ok u, t) := by
  unfold rewordError at h
  split at h
  case h_1 a v hx =>
      cases h
      exact hx
  case h_2 => cases h

theorem executeStep_stores {s : PlanStep} (h : executeStep env place (compileStep s) c = (.ok u, t))
    {name : String} (hname : (compileStep s).asName = some name) (hne : name ≠ "") :
    ∃ output, .stored place name output ∈ t.log := by
  have hasserts : StepBody.asserts (compileStep s).body = false := by
    unfold compileStep at hname ⊢
    split_ifs at hname ⊢ with ha
    exact Bool.eq_false_iff.mpr ha
  have ⟨_, d, _, h⟩ := bind_eq_ok.mp h
  have hhandle := rewordError_eq_ok h
  rcases handle_cases env place (compileStep s) with ⟨provider, input, heq⟩ | heq
  · exact executeProviderStep_stores (heq ▸ hhandle) hname hne
  · exact executeOtherStep_stores (heq ▸ hhandle) hasserts hname hne

theorem executeNestedSteps_stores {index attempt : Nat} {steps : List PlanStep} {position : Nat}
    (h : executeNestedSteps env index attempt position (steps.map compileStep) c = (.ok u, t)) :
    ∀ name ∈ nestedOutputKeys (steps.map compileStep), name ≠ "" →
      ∃ place output, .stored place name output ∈ t.log ∧ body place = some (index, attempt) := by
  induction steps generalizing position c with
  | nil => exact fun _ hmem => nomatch hmem
  | cons s steps ih =>
    have ⟨_, _, _, h⟩ := bind_eq_ok.mp h
    have ⟨_, d, hstep, hrest⟩ := bind_eq_ok.mp h
    intro name hmem hne
    have ⟨s', hs', hname⟩ := List.mem_filterMap.mp hmem
    rcases List.mem_cons.mp hs' with hhead | htail
    · rw [hhead] at hname
      have ⟨output, hstored⟩ := executeStep_stores hstep hname hne
      have hgrows : Runs env [] (some (index, attempt)) d t := by
        have halways : Always (Runs env [] (some (index, attempt))) (executeNestedSteps env index
          attempt (position + 1) (steps.map compileStep)) := always_executeNestedSteps _ _ _ _
        have ht := halways d
        rwa [hrest] at ht
      exact ⟨_, output, log_mono hgrows hstored, rfl⟩
    · exact ih hrest name (List.mem_filterMap.mpr ⟨s', htail, hname⟩) hne

/-- Between two attempts of a repeat, or before an item. -/
structure AtItem (env : ProcedureEnv) (plan : List PlanItem) (index attempt : Nat)
    (allowed : Nat → Nat) (c : Context) : Prop where
  spent : Spent env c
  counted : ∀ i, attempts i c.log ≤ allowed i
  ahead : Ahead index attempt c.log
  sound : NamedOutputs plan → Sound plan none c

variable {index attempt : Nat} {allowed : Nat → Nat}

theorem attempts_append (i : Nat) (log new : List Event) :
    attempts i (log ++ new) = attempts i log + attempts i new := List.countP_append

/-- Further attempts of one repeat are allowed. -/
def plus (allowed : Nat → Nat) (index more : Nat) (i : Nat) : Nat :=
  if i = index then allowed i + more else allowed i

theorem le_plus (allowed : Nat → Nat) (index more i : Nat) :
    allowed i ≤ plus allowed index more i := by
  unfold plus
  split_ifs <;> omega

theorem AtItem.mono (h : AtItem env plan index attempt allowed c) {allowed' : Nat → Nat}
    (hlater : attempt ≤ later) (hle : ∀ i, allowed i ≤ allowed' i) :
    AtItem env plan index later allowed' c where
  spent := h.spent
  counted := fun i => Nat.le_trans (h.counted i) (hle i)
  ahead := h.ahead.mono hlater
  sound := h.sound

theorem AtItem.next (h : AtItem env plan index attempt allowed c) :
    AtItem env plan (index + 1) 0 allowed c where
  spent := h.spent
  counted := h.counted
  ahead := by
    intro e he i k hb
    have hlt := h.ahead e he i k hb
    omega
  sound := h.sound

theorem AtItem.runs (h : AtItem env plan index attempt allowed s) (hruns : Runs env plan none s t) :
    AtItem env plan index attempt allowed t := by
  have ⟨new, hlog, hnew⟩ := hruns.log
  exact
    { spent := hruns.spent h.spent
      counted := by
        intro i
        have hzero : attempts i new = 0 := by
          apply List.countP_eq_zero.mpr
          intro e he hattempt
          cases e with
          | attempted j k => exact hnew _ he
          | _ => cases hattempt
        rw [hlog, attempts_append, hzero]
        exact h.counted i
      ahead := by
        intro e he i k hb
        rw [hlog] at he
        rcases List.mem_append.mp he with he | he
        · exact h.ahead e he i k hb
        · cases (hnew e he).unique hb
      sound := fun hnames => hruns.sound (h.sound hnames) }

theorem AtItem.readings {c : Context} (h : AtItem env plan index attempt allowed c) :
    AtItem env plan index attempt allowed { c with readings := c.readings + 1 } :=
  h.runs (.of_counters rfl rfl (Nat.le_refl _) id)

theorem AtItem.note (h : AtItem env plan index attempt allowed c) (hbody : ∀ b, ¬InBody b e)
    (hcall : isInvocation e = false) (hattempt : ∀ i, isAttempt i e = false)
    (hsee : ∀ outputs, see none outputs e = outputs)
    (he : NamedOutputs plan → Isolated plan c.log e) :
    AtItem env plan index attempt allowed (c.note e) where
  spent := by
    have hsame : invocations (c.log ++ [e]) = invocations c.log := by
      rw [invocations_append, invocations, invocations, List.countP_singleton, hcall]
      rfl
    exact ⟨hsame ▸ h.spent.1, h.spent.2⟩
  counted := by
    intro i
    have hsame : attempts i (c.log ++ [e]) = attempts i c.log := by
      rw [attempts_append, attempts, attempts, List.countP_singleton, hattempt]
      rfl
    exact hsame ▸ h.counted i
  ahead := by
    intro d hd i k hb
    rcases List.mem_append.mp hd with hd | hd
    · exact h.ahead d hd i k hb
    · exact (hbody _ (List.mem_singleton.mp hd ▸ hb)).elim
  sound := fun hnames => (h.sound hnames).note (he hnames) hsee

theorem AtItem.attempted {s t : Context} {result : Except ProcedureError Outputs}
    (h : AtItem env plan index attempt allowed s)
    (hran : AttemptRan env plan index attempt s t result) :
    AtItem env plan index (attempt + 1) (plus allowed index 1) t := by
  have ⟨new, hlog, hnew⟩ := hran.log
  exact
    { spent := hran.spent h.spent
      counted := by
        intro i
        have hzero : attempts i new = 0 := by
          apply List.countP_eq_zero.mpr
          intro e he hattempt
          cases e with
          | attempted j k => exact hnew _ he
          | _ => cases hattempt
        have hone : attempts i (.attempted index attempt :: new) = if i = index then 1 else 0 := by
          have hcons : attempts i (.attempted index attempt :: new) =
              attempts i new + if isAttempt i (.attempted index attempt) = true then 1 else 0 :=
            List.countP_cons
          rw [hcons, hzero, Nat.zero_add]
          simp only [isAttempt, decide_eq_true_eq]
          by_cases hi : i = index
          case pos => rw [if_pos hi, if_pos hi.symm]
          case neg => rw [if_neg hi, if_neg (Ne.symm hi)]
        have hold := h.counted i
        rw [hlog, attempts_append, hone, plus]
        split_ifs <;> omega
      ahead := by
        rw [hlog]
        apply h.ahead.next
        intro e he b hb
        rcases List.mem_cons.mp he with he | he
        · rw [he] at hb
          exact hb.elim
        · exact .inr (hb.unique (hnew e he))
      sound := fun hnames => hran.sound h.ahead (h.sound hnames) }

theorem get?_attemptScopedOutputs (steps : List PlanStep) (outputs : Outputs) (name : String) :
    Bindings.get? (attemptScopedOutputs steps outputs) name =
      if name ∈ nestedOutputKeys steps then outputs.get? name else none := by
  unfold attemptScopedOutputs
  rw [Bindings.get?_filterMap]
  simp only [List.mem_eraseDups]

/-- What is taken out of the attempt are its own outputs. -/
def Outcome (plan : List PlanItem) (index attempt : Nat) (steps : List PlanStep)
    (inScope : Object) (log : List Event) : Prop :=
  (∀ name, name ∉ nestedOutputKeys steps → Bindings.get? inScope name = none) ∧
  (NamedOutputs plan → ∀ name ∈ nestedOutputKeys steps,
    Bindings.get? inScope name = (attemptOutputs index attempt log).get? name)

variable {stepId : String} {asName : Option String} {maxAttempts : Nat}
  {untilSpec : ComparisonSpec} {steps : List PlanStep}

theorem NamedOutputs.name (h : NamedOutputs plan) {nested : List PlanStep}
    (hitem : plan[index]? = some (.repeatSteps stepId asName maxAttempts untilSpec nested))
    {name : String} (hname : name ∈ nestedOutputKeys nested) :
    name ≠ "" ∧ name ≠ "attempt_count" := by
  have hall := List.all_eq_true.mp (h _ (List.mem_of_getElem? hitem)) name hname
  simpa using hall
variable
  (hitem : plan[index]? =
    some (.repeatSteps stepId asName maxAttempts untilSpec (steps.map compileStep)))

include hitem in
theorem outcome_of_ran (h : AtItem env plan index attempt allowed s)
    (hrun : executeAttempt env index attempt (steps.map compileStep) s = (.ok outputs, t)) :
    Outcome plan index attempt (steps.map compileStep)
      (attemptScopedOutputs (steps.map compileStep) outputs) t.log := by
  have hran : AttemptRan env plan index attempt s t (.ok outputs) := executeAttempt_ran hrun
  have ⟨new, hlog, hnew⟩ := hran.log
  constructor
  case left =>
    intro name hname
    rw [get?_attemptScopedOutputs, if_neg hname]
  case right =>
    intro hnames name hname
    have hne := (hnames.name hitem hname).1
    rw [get?_attemptScopedOutputs, if_pos hname, hran.outputs h.ahead (h.sound hnames) outputs rfl]
    have hbody : ∃ u, executeNestedSteps env index attempt 0 (steps.map compileStep)
        (s.note (.attempted index attempt)) = (.ok (), u) ∧ u.log = t.log := by
      cases hinner : executeBody env index attempt (steps.map compileStep)
          (s.note (.attempted index attempt)) with
      | mk r u =>
        have hrestore : (r, { u with
            stepOutputs := s.stepOutputs, aliasStepIds := s.aliasStepIds }) =
            (.ok outputs, t) := by
          rw [← hrun, executeAttempt, bracketed, hinner]
        have hr : r = .ok outputs := congrArg Prod.fst hrestore
        rw [hr] at hinner
        have ht : u.log = t.log := by
          rw [← show _ = t from congrArg Prod.snd hrestore]
        exact ⟨u, (executeBody_ok hinner).1, ht⟩
    have ⟨u, hsteps, hu⟩ := hbody
    have ⟨place, output, hstored, hplace⟩ := executeNestedSteps_stores hsteps name hname hne
    have hsome := isSome_attemptOutputs (hu ▸ hstored) hplace
    have hsplit : t.log = (s.log ++ [.attempted index attempt]) ++ new := by
      rw [hlog, List.append_assoc, List.singleton_append]
    have hfresh : ∀ e ∈ s.log ++ [.attempted index attempt], ¬InBody (some (index, attempt)) e := by
      intro e he
      rcases List.mem_append.mp he with he | he
      · exact h.ahead.fresh e he
      · rw [List.mem_singleton.mp he]
        exact id
    have hkept : attemptOutputs index attempt t.log =
        new.foldl (keep (some (index, attempt))) ∅ := by
      rw [attemptOutputs, hsplit, List.foldl_append, foldl_keep_fresh hfresh]
    have hinside := get?_scopeAt_inside hnew _ name
      (scopeAt (some (index, attempt)) (s.log ++ [.attempted index attempt])) ∅ rfl
    rw [hsplit, scopeAt_append, hinside, ← hsplit, ← hkept]
    exact Option.or_of_isSome hsome

/-- The repeat has begun with the given outputs in sight. -/
structure Entered (index : Nat) (before : Outputs) (c : Context) : Prop where
  noted : .started (.top index) before ∈ c.log
  visible : c.stepOutputs = before

/-- The repeat has left its output. -/
structure Left (index : Nat) (before : Outputs) (c : Context) : Prop where
  noted : .started (.top index) before ∈ c.log
  stored : ∃ key output, .stored (.top index) key output ∈ c.log ∧
    c.stepOutputs = before.set key (.object output)

/-- How a repeat ends. -/
def Ends (env : ProcedureEnv) (plan : List PlanItem) (index : Nat) (allowed : Nat → Nat)
    (before : Outputs) : Except ProcedureError Unit × Context → Prop
  | (.ok _, t) => AtItem env plan (index + 1) 0 allowed t ∧ Left index before t
  | (.error _, t) => AtItem env plan (index + 1) 0 allowed t

variable {before : Outputs}

theorem Entered.readings {c : Context} (h : Entered index before c) :
    Entered index before { c with readings := c.readings + 1 } where
  noted := h.noted
  visible := h.visible

theorem Entered.attempted (h : Entered index before s)
    (hran : AttemptRan env plan index attempt s t result) : Entered index before t := by
  have ⟨new, hlog, _⟩ := hran.log
  exact
    { noted := hlog ▸ List.mem_append_left _ h.noted
      visible := hran.restored.trans h.visible }

theorem AtItem.judged (h : AtItem env plan index attempt allowed c) (satisfied : Bool) :
    AtItem env plan index attempt allowed (c.note (.judged index k satisfied)) :=
  h.note (fun _ => id) rfl (fun _ => rfl) (fun _ => rfl) fun _ => trivial

theorem Entered.judged (h : Entered index before c) (satisfied : Bool) :
    Entered index before (c.note (.judged index k satisfied)) where
  noted := List.mem_append_left _ h.noted
  visible := h.visible

theorem Outcome.judged (h : Outcome plan index attempt nested inScope log) (satisfied : Bool) :
    Outcome plan index attempt nested inScope (log ++ [.judged index k satisfied]) := by
  constructor
  case left => exact h.1
  case right =>
    intro hnames name hname
    rw [h.2 hnames name hname, attemptOutputs, attemptOutputs, List.foldl_append]
    rfl

section
include hitem

theorem stores_outcome (h : AtItem env plan index (attempt + 1) allowed c)
    (hentered : Entered index before c) (hjudged : .judged index attempt true ∈ c.log)
    (houtcome : Outcome plan index attempt (steps.map compileStep) inScope c.log) :
    Ends env plan index allowed before (setStepOutput (.top index) stepId asName
      (Bindings.set inScope "attempt_count" (count attempt)) c) := by
  let output := Bindings.set inScope "attempt_count" (count attempt)
  let event := Event.stored (.top index) (outputKey stepId asName) output
  have hisolated : NamedOutputs plan → Isolated plan c.log event := by
    intro hnames stepId' asName' m' u' steps' hitem'
    rw [hitem, Option.some.injEq, PlanItem.repeatSteps.injEq] at hitem'
    have ⟨hid, has, _, _, hsteps⟩ := hitem'
    rw [← hid, ← has, ← hsteps]
    refine ⟨rfl, attempt, hjudged, by rw [Bindings.get?_set, if_pos rfl], ?_, ?_⟩
    · intro name hname
      have hne := (hnames.name hitem hname).2
      rw [Bindings.get?_set, if_neg (Ne.symm hne)]
      exact houtcome.2 hnames name hname
    · intro name hname hne
      rw [Bindings.get?_set, if_neg (Ne.symm hne)]
      exact houtcome.1 name hname
  have hstore : NamedOutputs plan →
      Sound plan none (setStepOutput (.top index) stepId asName output c).2 :=
    fun hnames => Sound.store (h.sound hnames) (hisolated hnames)
  have hlog : (setStepOutput (.top index) stepId asName output c).2.log = c.log ++ [event] := rfl
  constructor
  case left =>
    exact
      { spent := by
          have hsame : invocations (c.log ++ [event]) = invocations c.log :=
            invocations_append _ _
          exact ⟨hlog ▸ hsame ▸ h.spent.1, h.spent.2⟩
        counted := by
          intro i
          have hsame : attempts i (c.log ++ [event]) = attempts i c.log := attempts_append _ _ _
          exact hlog ▸ hsame ▸ h.counted i
        ahead := by
          intro e he i k hb
          rcases List.mem_append.mp he with he | he
          · have hlt := h.ahead e he i k hb
            omega
          · rw [List.mem_singleton.mp he] at hb
            cases hb
        sound := hstore }
  case right =>
    exact
      { noted := List.mem_append_left _ hentered.noted
        stored := ⟨outputKey stepId asName, output, List.mem_append_right _ List.mem_cons_self,
          congrArg (fun seen : Outputs => seen.set _ _) hentered.visible⟩ }

/-- The loop, whatever the providers do in it. -/
theorem executeAttempts_ends (left : Nat) (h : AtItem env plan index attempt allowed c)
    (hentered : Entered index before c) :
    Ends env plan index (plus allowed index left) before
      (executeAttempts env index stepId asName untilSpec (steps.map compileStep) left attempt c) := by
  induction left generalizing attempt allowed c with
  | zero => exact (h.mono (Nat.le_refl _) (le_plus _ _ _)).next
  | succ left ih =>
    let allowed' := plus allowed index (left + 1)
    have hone : ∀ i, plus allowed index 1 i ≤ allowed' i := by
      intro i
      unfold allowed' plus
      split_ifs <;> omega
    have hclock := checkWallClock_state env c
    apply bind_rule (P := Ends env plan index allowed' before)
    · intro e t hrun
      rw [hrun] at hclock
      have ht : t = { c with readings := c.readings + 1 } := hclock
      exact ht ▸ (h.readings.mono (Nat.le_refl _) (le_plus _ _ _)).next
    intro _ s hrun
    rw [hrun] at hclock
    have hs : s = { c with readings := c.readings + 1 } := hclock
    have hats : AtItem env plan index attempt allowed s := hs ▸ h.readings
    have hins : Entered index before s := hs ▸ hentered.readings
    apply bind_rule (P := Ends env plan index allowed' before)
    · intro e t hrun
      exact ((hats.attempted (executeAttempt_ran hrun)).mono (Nat.le_refl _) hone).next
    intro outputs t hrun
    have hran : AttemptRan env plan index attempt s t (.ok outputs) := executeAttempt_ran hrun
    have hat : AtItem env plan index (attempt + 1) (plus allowed index 1) t :=
      hats.attempted hran
    have hin : Entered index before t := hins.attempted hran
    have houtcome := outcome_of_ran hitem hats hrun
    generalize attemptScopedOutputs (steps.map compileStep) outputs = inScope at houtcome ⊢
    apply bind_rule (P := Ends env plan index allowed' before)
    · intro e u hcore
      have hu : t = u := congrArg Prod.snd hcore
      exact hu ▸ (hat.mono (Nat.le_refl _) hone).next
    intro satisfied u hcore
    have hu : t = u := congrArg Prod.snd hcore
    rw [← hu]
    apply bind_rule (P := Ends env plan index allowed' before)
    · intro e v hnote
      cases hnote
    intro _ v hnote
    have hv : v = t.note (.judged index attempt satisfied) := (modify_eq_ok.mp hnote).symm
    have hatv : AtItem env plan index (attempt + 1) (plus allowed index 1) v :=
      hv ▸ hat.judged satisfied
    have hinv : Entered index before v := hv ▸ hin.judged satisfied
    have houtv : Outcome plan index attempt (steps.map compileStep) inScope v.log :=
      hv ▸ houtcome.judged satisfied
    have hjudged : .judged index attempt satisfied ∈ v.log := by
      rw [hv]
      exact List.mem_append_right _ List.mem_cons_self
    have hclockv := checkWallClock_state env v
    apply bind_rule (P := Ends env plan index allowed' before)
    · intro e w hrun
      rw [hrun] at hclockv
      have hw : w = { v with readings := v.readings + 1 } := hclockv
      exact hw ▸ (hatv.readings.mono (Nat.le_refl _) hone).next
    intro _ w hrun
    rw [hrun] at hclockv
    have hw : w = { v with readings := v.readings + 1 } := hclockv
    rw [hw]
    split_ifs with hsatisfied
    case pos =>
        rw [hsatisfied] at hjudged
        exact stores_outcome hitem (hatv.readings.mono (Nat.le_refl _) hone) hinv.readings hjudged
          houtv
    case neg =>
        have hplus : plus (plus allowed index 1) index left = allowed' := by
          funext i
          unfold allowed' plus
          split_ifs <;> omega
        exact hplus ▸ ih hatv.readings hinv.readings

end

/-- The attempts that the repeats before an item may have made. -/
def allowedBefore (plan : List PlanItem) (index i : Nat) : Nat :=
  match plan[i]? with
  | some (.repeatSteps _ _ maxAttempts _ _) => if i < index then maxAttempts else 0
  | _ => 0

theorem allowedBefore_step (plan : List PlanItem) (index i : Nat) :
    allowedBefore plan index i ≤ allowedBefore plan (index + 1) i := by
  unfold allowedBefore
  split
  · split_ifs <;> omega
  · exact Nat.le_refl _

theorem allowedBefore_repeat
    (hitem : plan[index]? = some (.repeatSteps stepId asName maxAttempts untilSpec nested))
    (i : Nat) :
    plus (allowedBefore plan index) index maxAttempts i ≤ allowedBefore plan (index + 1) i := by
  unfold plus
  split_ifs with hi
  case pos =>
    rw [hi]
    simp [allowedBefore, hitem]
  case neg => exact allowedBefore_step plan index i

/-- How an item ends. -/
def ItemEnds (env : ProcedureEnv) (plan : List PlanItem) (index : Nat) :
    Except ProcedureError Unit × Context → Prop
  | (.ok _, t) => AtItem env plan (index + 1) 0 (allowedBefore plan (index + 1)) t ∧
      (NamedOutputs plan → Isolated plan t.log (.completed index t.stepOutputs))
  | (.error _, t) => AtItem env plan (index + 1) 0 (allowedBefore plan (index + 1)) t

theorem executeItem_ends {item : PlanItem} (hitem : plan[index]? = some (compileItem item))
    (h : AtItem env plan index 0 (allowedBefore plan index) c) :
    ItemEnds env plan index (executeItem env index (compileItem item) c) := by
  cases item with
  | step s =>
    have hplain : Plain plan (.top index) := by
      intro i hi
      cases hi
      exact ⟨_, hitem⟩
    have hruns : Runs env plan none c (executeStep env (.top index) (compileStep s) c).2 :=
      always_executeStep hplain (compileStep s) c
    have hat := ((h.runs hruns).mono (Nat.le_refl _) (allowedBefore_step plan index)).next
    have hstep : compileItem (.step s) = .step (compileStep s) := rfl
    rw [hstep, executeItem]
    cases hrun : executeStep env (.top index) (compileStep s) c with
    | mk r t =>
      rw [hrun] at hat
      cases r with
      | error e => exact hat
      | ok u =>
        refine ⟨hat, ?_⟩
        intro _ _ _ _ _ _ hrepeat
        rw [hitem] at hrepeat
        cases hrepeat
  | repeatSteps stepId asName maxAttempts untilSpec steps =>
    apply bind_rule (P := ItemEnds env plan index)
    · intro e t hnote
      cases hnote
    intro _ s hnote
    have hs : s = c.note (.started (.top index) c.stepOutputs) := (modify_eq_ok.mp hnote).symm
    have hstarted : Runs env plan none c s := hs ▸ always_started (.top index) c
    have hentered : Entered index c.stepOutputs s :=
      { noted := hs ▸ List.mem_append_right _ List.mem_cons_self
        visible := hs ▸ rfl }
    have hat : AtItem env plan index 1 (allowedBefore plan index) s :=
      (h.runs hstarted).mono (Nat.zero_le 1) fun _ => Nat.le_refl _
    have hends := executeAttempts_ends hitem maxAttempts hat hentered
    cases hrun : executeAttempts env index stepId asName untilSpec (steps.map compileStep)
        maxAttempts 1 s with
    | mk r t =>
      rw [hrun] at hends
      cases r with
      | error e =>
        exact AtItem.mono hends (Nat.le_refl _) (allowedBefore_repeat hitem)
      | ok u =>
        have ⟨hat, hleft⟩ := hends
        refine ⟨hat.mono (Nat.le_refl _) (allowedBefore_repeat hitem), ?_⟩
        intro _ _ _ _ _ _ _
        have ⟨key, output, hstored, hvisible⟩ := hleft.stored
        exact ⟨c.stepOutputs, key, output, hleft.noted, hstored, hvisible⟩

/-- Every context of a run stands before or after some item. -/
def Somewhere (env : ProcedureEnv) (plan : List PlanItem) (c : Context) : Prop :=
  ∃ index, AtItem env plan index 0 (allowedBefore plan index) c

theorem executeItems_somewhere (items : List PlanItem)
    (hitems : plan.drop index = items.map compileItem)
    (h : AtItem env plan index 0 (allowedBefore plan index) c) :
    Somewhere env plan (executeItems env index (items.map compileItem) c).2 := by
  induction items generalizing index c with
  | nil => exact ⟨index, h.runs (always_checkWallClock c)⟩
  | cons item items ih =>
    have hitem : plan[index]? = some (compileItem item) := by
      rw [← List.head?_drop, hitems]
      rfl
    have hrest : plan.drop (index + 1) = items.map compileItem := by
      rw [← List.tail_drop, hitems]
      rfl
    apply bind_rule (P := fun r => Somewhere env plan r.2)
    · intro e t hrun
      have hruns : Runs env plan none c (checkWallClock env c).2 := always_checkWallClock c
      rw [hrun] at hruns
      exact ⟨index, h.runs hruns⟩
    intro _ s hrun
    have hruns : Runs env plan none c (checkWallClock env c).2 := always_checkWallClock c
    rw [hrun] at hruns
    have hends := executeItem_ends hitem (h.runs hruns)
    apply bind_rule (P := fun r => Somewhere env plan r.2)
    · intro e t hitemRun
      rw [hitemRun] at hends
      exact ⟨index + 1, hends⟩
    intro _ t hitemRun
    rw [hitemRun] at hends
    apply bind_rule (P := fun r => Somewhere env plan r.2)
    · intro e u hnote
      cases hnote
    intro _ u hnote
    have hu : u = t.note (.completed index t.stepOutputs) := (modify_eq_ok.mp hnote).symm
    apply ih hrest
    rw [hu]
    exact hends.1.note (fun _ => id) rfl (fun _ => rfl) (fun _ => rfl) hends.2

end Steps

/-- A draft is tried until it reports that it is done; its output has the given name. -/
def draftPlan (name ref : String) : List PlanItem :=
  [.repeatSteps "retry" (some "result") 3 { left := .str ref, op := "eq", right := .bool true }
    [{ stepId := "draft", asName := some name, body := .provider "writer" (.object []) }]]

/-- The writer is done at its second call. -/
def draftEnv : ProcedureEnv where
  answers :=
    { input := []
      runQuery := fun _ _ _ _ => .error (.queryExecution "no query")
      callProvider := fun _ _ _ => .ok []
      payload := fun _ _ _ => .error (.queryExecution "no artifact")
      cast := fun _ _ v _ => .ok v
      compare := fun _ left right => .ok (left = right) }
  wallClockS := 10
  maxProviderCalls := 3
  startedMonotonic := 0
  clock := fun _ => 1
  validateInput := fun _ _ => .ok []
  verifyProvider := fun _ _ => .ok ()
  invoke := fun position _ _ _ => .ok (.object [("done", .bool (decide (5 < position)))])
  validateOutput := fun _ output => .ok output
  runtimeReference := fun _ => none
  validateResult := fun output => .ok output

/-- A repeat has ended in whose body a step is named like the count of the attempts. -/
def CountNamed (plan : List PlanItem) (log : List Event) : Prop :=
  ∃ index key output stepId asName maxAttempts untilSpec steps,
    .stored (.top index) key output ∈ log ∧
    plan[index]? = some (.repeatSteps stepId asName maxAttempts untilSpec steps) ∧
    "attempt_count" ∈ nestedOutputKeys steps

theorem get?_attemptOutputs_ne_count (index attempt n : Nat) (log : List Event) (name : String) :
    (attemptOutputs index attempt log).get? name ≠ some (count n) := by
  have hobjects : ∀ (log : List Event) (outputs : Outputs), outputs.get? name ≠ some (count n) →
      (log.foldl (keep (some (index, attempt))) outputs).get? name ≠ some (count n) := by
    intro log
    induction log with
    | nil => exact fun _ h => h
    | cons e log ih =>
      intro outputs h
      apply ih
      cases e with
      | stored place key output =>
        simp only [keep]
        split_ifs
        case pos =>
          rw [Dict.get?_set]
          split_ifs
          case pos => simp [count]
          case neg => exact h
        case neg => exact h
      | _ => exact h
  exact hobjects log ∅ (by simp)

theorem Separated.not_countNamed (h : Separated plan c) : ¬CountNamed plan c.log := by
  rintro ⟨index, key, output, stepId, asName, maxAttempts, untilSpec, steps, hstored, hitem, hname⟩
  have ⟨past, rest, hlog⟩ := List.append_of_mem hstored
  have ⟨_, attempt, _, hcount, houtputs, _⟩ :=
    h.log past _ rest hlog stepId asName maxAttempts untilSpec steps hitem
  have hsame := houtputs "attempt_count" hname
  rw [hcount] at hsame
  exact get?_attemptOutputs_ne_count index attempt attempt past "attempt_count" hsame.symm

/-- In every run of a procedure the provider calls and the attempts stay within their
limits. Where no output of an attempt takes the name of the count, every step sees the
outputs of the plan and of its own attempt only, and a repeat leaves the outputs of the
attempt that satisfied it; a repeat that ends with such a name does not. -/
theorem procedure_runs_separate (env : ProcedureEnv) (plan : List PlanItem) (returns : String) :
    WithinBudget env (plan.map compileItem) (runProcedure env plan returns).2 ∧
    (NamedOutputs (plan.map compileItem) →
      Separated (plan.map compileItem) (runProcedure env plan returns).2) ∧
    (CountNamed (plan.map compileItem) (runProcedure env plan returns).2.log →
      ¬Separated (plan.map compileItem) (runProcedure env plan returns).2) := by
  have hstart : AtItem env (plan.map compileItem) 0 0 (allowedBefore (plan.map compileItem) 0)
      {} :=
    { spent := ⟨Nat.le_refl 0, Nat.zero_le _⟩
      counted := fun _ => Nat.zero_le _
      ahead := fun _ h => nomatch h
      sound := fun _ => { visible := rfl, log := justified_nil } }
  have hitems := executeItems_somewhere plan (List.drop_zero) hstart
  have hsomewhere : Somewhere env (plan.map compileItem) (runProcedure env plan returns).2 := by
    apply bind_rule (P := fun r => Somewhere env (plan.map compileItem) r.2)
    · intro e t hrun
      rw [hrun] at hitems
      exact hitems
    intro _ t hrun
    rw [hrun] at hitems
    have ⟨index, hat⟩ := hitems
    refine ⟨index, hat.runs ?_⟩
    have hresult : Always (Runs env (plan.map compileItem) none)
        (resolveProcedureOutput returns >>= fun output => core (env.validateResult output)) := by
      apply runs_bind
      case hx =>
        apply runs_bind (always_get Runs.refl)
        intro c
        split
        · exact always_ret Runs.refl _
        · exact always_raise Runs.refl _
      case hf => exact fun output => always_core _
    exact hresult t
  have ⟨index, hat⟩ := hsomewhere
  refine ⟨?_, ?_, fun hnamed h => h.not_countNamed hnamed⟩
  · exact
      { calls := Nat.le_trans hat.spent.1 hat.spent.2
        bodies := by
          intro i stepId asName maxAttempts untilSpec steps hitem
          have hcount := hat.counted i
          simp only [allowedBefore, hitem] at hcount
          split_ifs at hcount <;> omega }
  · intro hnames
    have hs := hat.sound hnames
    exact { log := hs.log, visible := hs.visible }

theorem named_draft_separates :
    attempts 0 (runProcedure draftEnv (draftPlan "draft" "$steps.draft.done") "result").2.log = 2 ∧
    Separated ((draftPlan "draft" "$steps.draft.done").map compileItem)
      (runProcedure draftEnv (draftPlan "draft" "$steps.draft.done") "result").2 := by
  constructor
  · decide +kernel
  · have hnames : ∀ item ∈ (draftPlan "draft" "$steps.draft.done").map compileItem,
        namesOutputs item = true := by decide
    exact (procedure_runs_separate draftEnv (draftPlan "draft" "$steps.draft.done") "result").2.1
      hnames

/-- The draft that is named like the count is not in the output of the repeat. -/
theorem draft_named_like_the_count_is_lost :
    ¬Separated ((draftPlan "attempt_count" "$steps.attempt_count.done").map compileItem)
      (runProcedure draftEnv (draftPlan "attempt_count" "$steps.attempt_count.done")
        "result").2 := by
  intro h
  have hstored : .stored (.top 0) "result" [("attempt_count", count 2)] ∈ (runProcedure draftEnv
      (draftPlan "attempt_count" "$steps.attempt_count.done") "result").2.log := by decide +kernel
  exact h.not_countNamed ⟨0, "result", [("attempt_count", count 2)], "retry", some "result", 3, _, _,
    hstored, rfl, by decide⟩

end Cruxible.RepeatIsolation
