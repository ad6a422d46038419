import Cruxible.QueryCaps

/-!
# The paths of one step

Without a cap, a step follows each path that it takes from its queue along every
edge that it admits, in the order in which it finds them. A test that raises ends
the step.
-/
namespace Cruxible.StepPaths
open PythonDict AssertionState Cruxible.Graph PropertyValidation Neighbors QueryEngine QueryCaps
open Fallible (bind_eq_ok pure_eq_ok filterM_eq_ok passes)

/-- The path that goes on along a candidate. -/
def follow (s : TraversalState) (c : Candidate) : TraversalState where
  entry := s.entry
  current := c.neighbor
  entities := s.entities ++ [c.neighbor]
  path := s.path ++ [c.segment]

@[simp] theorem follow_current (s : TraversalState) (c : Candidate) :
    (follow s c).current = c.neighbor := rfl

/-- The path of a hop, as it is queued. -/
def queuedNext (item : Queued) (c : Candidate) : Queued where
  root := item.root
  state := follow item.state c
  depth := item.depth + 1

def admitted (r : StepRun) (direction : Direction) (s : TraversalState) (c : Candidate) : Bool :=
  match r.admits direction s c with
  | .ok b => b
  | .error _ => false

/-- The edges along which a step goes on from a path. -/
def hops (r : StepRun) (s : TraversalState) : List Candidate :=
  r.refs.flatMap fun ref => (r.candidates s ref).filter (admitted r ref.2 s)

/-- No test of these candidates raises. -/
def Quiet (r : StepRun) (direction : Direction) (s : TraversalState) (cs : List Candidate) : Prop :=
  ∀ c ∈ cs, ∃ b, r.admits direction s c = .ok b

/-- No test raises when the step goes on from a path. -/
def Calm (r : StepRun) (s : TraversalState) : Prop :=
  ∀ ref ∈ r.refs, Quiet r ref.2 s (r.candidates s ref)

section Loops
variable {r : StepRun} (hcap : ∀ states, r.capReached states = false) (item : Queued)

@[simp] theorem retain_raised (w : Walk) (c : Candidate) :
    (r.retain item w c).raised = w.raised := by
  unfold StepRun.retain
  dsimp only
  split_ifs <;> rfl

theorem foldl_retain_raised (cs : List Candidate) (w : Walk) :
    (cs.foldl (r.retain item) w).raised = w.raised := by
  induction cs generalizing w with
  | nil => rfl
  | cons c cs ih => rw [List.foldl_cons, ih, retain_raised]

variable {w : Walk}

theorem consider_of_raised (h : w.raised.isSome = true) (d : Direction) (c : Candidate) :
    r.consider item d w c = w := by
  rw [StepRun.consider, if_pos h]

theorem considerRef_of_raised (h : w.raised.isSome = true) (ref : String × Direction) :
    r.considerRef item w ref = w := by
  rw [StepRun.considerRef, if_pos h]

theorem foldl_of_raised {ι : Type} {f : Walk → ι → Walk}
    (hf : ∀ w x, w.raised.isSome = true → f w x = w) (xs : List ι) (h : w.raised.isSome = true) :
    xs.foldl f w = w := by
  induction xs with
  | nil => rfl
  | cons x xs ih => rw [List.foldl_cons, hf w x h, ih]

include hcap

variable {c : Candidate} {d : Direction} {cs : List Candidate}

theorem consider_ok (hw : w.raised = none) {b : Bool} (hc : r.admits d item.state c = .ok b) :
    r.consider item d w c = if admitted r d item.state c then r.retain item w c else w := by
  have hquiet : ¬w.raised.isSome = true := by simp [hw]
  have hroom : ¬r.capReached w.nextStates = true := by simp [hcap]
  rw [StepRun.consider, if_neg hquiet, if_neg hroom, hc, admitted, hc]
  cases b with
  | false => rfl
  | true => rfl

theorem consider_error (hw : w.raised = none) {e : CoreError}
    (hc : r.admits d item.state c = .error e) : (r.consider item d w c).raised.isSome = true := by
  have hquiet : ¬w.raised.isSome = true := by simp [hw]
  have hroom : ¬r.capReached w.nextStates = true := by simp [hcap]
  rw [StepRun.consider, if_neg hquiet, if_neg hroom, hc]
  rfl

theorem foldl_consider (d : Direction) (hw : w.raised = none) (hcs : Quiet r d item.state cs) :
    cs.foldl (r.consider item d) w =
      (cs.filter (admitted r d item.state)).foldl (r.retain item) w := by
  induction cs generalizing w with
  | nil => rfl
  | cons c cs ih =>
    have ⟨b, hb⟩ := hcs c List.mem_cons_self
    have hrest : Quiet r d item.state cs := fun x hx => hcs x (List.mem_cons_of_mem c hx)
    rw [List.foldl_cons, consider_ok hcap item hw hb, List.filter_cons]
    split_ifs
    · rw [List.foldl_cons]
      exact ih ((retain_raised item w c).trans hw) hrest
    · exact ih hw hrest

theorem quiet_of_foldl (d : Direction) (hw : w.raised = none)
    (h : (cs.foldl (r.consider item d) w).raised = none) : Quiet r d item.state cs := by
  induction cs generalizing w with
  | nil => exact fun c hc => by cases hc
  | cons c cs ih =>
    rw [List.foldl_cons] at h
    cases hc : r.admits d item.state c with
    | error e =>
      have hraised := consider_error hcap item hw hc
      rw [foldl_of_raised (fun w x hw => consider_of_raised item hw d x) cs hraised] at h
      rw [h] at hraised
      cases hraised
    | ok b =>
      have hnext : (r.consider item d w c).raised = none := by
        rw [consider_ok hcap item hw hc]
        split_ifs
        · exact (retain_raised item w c).trans hw
        · exact hw
      intro x hx
      rcases List.mem_cons.mp hx with hx | hx
      · exact ⟨b, hx ▸ hc⟩
      · exact ih hnext h x hx

variable {ref : String × Direction} {refs : List (String × Direction)}

theorem considerRef_quiet (hw : w.raised = none)
    (h : Quiet r ref.2 item.state (r.candidates item.state ref)) : r.considerRef item w ref =
      ((r.candidates item.state ref).filter (admitted r ref.2 item.state)).foldl
        (r.retain item) w := by
  have hquiet : ¬w.raised.isSome = true := by simp [hw]
  have hroom : ¬r.capReached w.nextStates = true := by simp [hcap]
  rw [StepRun.considerRef, if_neg hquiet, if_neg hroom]
  exact foldl_consider hcap item ref.2 hw h

theorem quiet_of_considerRef (hw : w.raised = none) (h : (r.considerRef item w ref).raised = none) :
    Quiet r ref.2 item.state (r.candidates item.state ref) := by
  have hquiet : ¬w.raised.isSome = true := by simp [hw]
  have hroom : ¬r.capReached w.nextStates = true := by simp [hcap]
  rw [StepRun.considerRef, if_neg hquiet, if_neg hroom] at h
  exact quiet_of_foldl hcap item ref.2 hw h

theorem foldl_considerRef (hw : w.raised = none)
    (h : ∀ ref ∈ refs, Quiet r ref.2 item.state (r.candidates item.state ref)) :
    refs.foldl (r.considerRef item) w = (refs.flatMap fun ref =>
      (r.candidates item.state ref).filter (admitted r ref.2 item.state)).foldl
        (r.retain item) w := by
  induction refs generalizing w with
  | nil => rfl
  | cons ref refs ih =>
    rw [List.foldl_cons, considerRef_quiet hcap item hw (h ref List.mem_cons_self),
      List.flatMap_cons, List.foldl_append]
    exact ih ((foldl_retain_raised item _ w).trans hw)
      fun x hx => h x (List.mem_cons_of_mem ref hx)

theorem quiet_of_foldl_refs (hw : w.raised = none)
    (h : (refs.foldl (r.considerRef item) w).raised = none) :
    ∀ ref ∈ refs, Quiet r ref.2 item.state (r.candidates item.state ref) := by
  induction refs generalizing w with
  | nil => exact fun ref href => by cases href
  | cons ref refs ih =>
    rw [List.foldl_cons] at h
    have hnext : (r.considerRef item w ref).raised = none := by
      cases hraised : (r.considerRef item w ref).raised with
      | none => rfl
      | some e =>
        have hsome : (r.considerRef item w ref).raised.isSome = true := by simp [hraised]
        rw [foldl_of_raised (fun w x hw => considerRef_of_raised item hw x) refs hsome,
          hraised] at h
        cases h
    have hthis := quiet_of_considerRef hcap item hw hnext
    intro x hx
    rcases List.mem_cons.mp hx with hx | hx
    · exact hx ▸ hthis
    · exact ih hnext h x hx

theorem expand_calm (hw : w.raised = none) (hdepth : item.depth < r.step.maxDepth)
    (h : Calm r item.state) : r.expand w item = (hops r item.state).foldl (r.retain item) w := by
  have hroom : ¬r.capReached w.nextStates = true := by simp [hcap]
  rw [StepRun.expand, if_neg (Nat.not_le.mpr hdepth), if_neg hroom]
  exact foldl_considerRef hcap item hw h

theorem calm_of_expand (hw : w.raised = none) (hdepth : item.depth < r.step.maxDepth)
    (h : (r.expand w item).raised = none) : Calm r item.state := by
  have hroom : ¬r.capReached w.nextStates = true := by simp [hcap]
  rw [StepRun.expand, if_neg (Nat.not_le.mpr hdepth), if_neg hroom] at h
  exact quiet_of_foldl_refs hcap item hw h

end Loops

variable {r : StepRun} {declared : Option String} {rows : List QueryRowContext}

theorem expand_deep {item : Queued} (w : Walk) (h : r.step.maxDepth ≤ item.depth) :
    r.expand w item = w := by
  rw [StepRun.expand, if_pos h]

variable {w : Walk} {states : List TraversalState} {env : QueryEnv} {g : EntityGraph}
  {params : Params} {q : NamedQuerySchema} {queryName : String}

theorem expand_of_raised (hcap : ∀ states, r.capReached states = false) (h : w.raised.isSome = true)
    (item : Queued) : r.expand w item = w := by
  have hroom : ¬r.capReached w.nextStates = true := by simp [hcap]
  unfold StepRun.expand
  rw [if_neg hroom, foldl_of_raised (fun w x hw => considerRef_of_raised item hw x) r.refs h,
    ite_self]

theorem walk_of_raised (hcap : ∀ states, r.capReached states = false) (fuel : Nat)
    (h : w.raised.isSome = true) : (r.walk fuel w).raised = w.raised := by
  induction fuel generalizing w with
  | zero => rfl
  | succ fuel ih =>
    rw [StepRun.walk]
    cases hq : w.queue with
    | nil => rfl
    | cons item rest =>
      have hpop : ({ w with queue := rest } : Walk).raised.isSome = true := h
      have hsame := expand_of_raised hcap hpop item
      change (r.walk fuel (r.expand { w with queue := rest } item)).raised = w.raised
      rw [hsame]
      exact ih hpop

theorem raised_of_walk (hcap : ∀ states, r.capReached states = false) {fuel : Nat}
    (h : (r.walk fuel w).raised = none) : w.raised = none := by
  cases hw : w.raised with
  | none => rfl
  | some e =>
    have hsome : w.raised.isSome = true := by simp [hw]
    rw [walk_of_raised hcap fuel hsome, hw] at h
    cases h

theorem indexedStates_perm (r : StepRun) (states : List TraversalState) :
    (r.indexedStates states).Perm (states.zipIdx.map fun q => (q.2, q.1)) := by
  unfold StepRun.indexedStates
  split_ifs
  · exact sortedBy_perm _ _
  · exact .refl _

theorem mem_indexedStates {p : Nat × TraversalState} :
    p ∈ r.indexedStates states ↔ states[p.1]? = some p.2 := by
  rw [(indexedStates_perm r states).mem_iff, List.mem_map]
  constructor
  · rintro ⟨q, hq, hp⟩
    rw [← hp]
    exact List.mem_zipIdx_iff_getElem?.mp hq
  · intro hp
    exact ⟨(p.2, p.1), List.mem_zipIdx_iff_getElem?.mpr hp, rfl⟩

theorem exists_mem_indexedStates {s : TraversalState} :
    (∃ i, (i, s) ∈ r.indexedStates states) ↔ s ∈ states := by
  rw [List.mem_iff_getElem?]
  exact exists_congr fun i => mem_indexedStates (p := (i, s))

theorem map_indexedStates_perm (r : StepRun) (states : List TraversalState) :
    ((r.indexedStates states).map Prod.snd).Perm states := by
  have hperm := (indexedStates_perm r states).map Prod.snd
  rw [List.map_map] at hperm
  have hsame : states.zipIdx.map (Prod.snd ∘ fun q => (q.2, q.1)) = states := by
    simp [Function.comp_def, List.zipIdx_map_fst]
  rw [hsame] at hperm
  exact hperm

theorem mem_eraseDupsBy {α : Type} {p : α → α → Bool} {xs : List α} {x : α}
    (h : x ∈ xs.eraseDupsBy p) : x ∈ xs := by
  induction hn : xs.length using Nat.strong_induction_on generalizing xs with
  | _ n ih =>
    cases xs with
    | nil => exact h
    | cons y ys =>
      have hlen := List.length_filter_le (fun z => p z y = false) ys
      rw [List.eraseDupsBy_cons] at h
      rw [List.length_cons] at hn
      rcases List.mem_cons.mp h with h | h
      · exact h ▸ List.mem_cons_self
      · exact List.mem_cons_of_mem y (List.mem_of_mem_filter (ih _ (by omega) h rfl))

/-- Of every element one that it is a duplicate of is kept. -/
theorem exists_mem_eraseDupsBy {α : Type} {p : α → α → Bool} (hself : ∀ x, p x x = true)
    {xs : List α} {x : α} (h : x ∈ xs) : ∃ y ∈ xs.eraseDupsBy p, p x y = true := by
  induction hn : xs.length using Nat.strong_induction_on generalizing xs with
  | _ n ih =>
    cases xs with
    | nil => cases h
    | cons y ys =>
      have hlen := List.length_filter_le (fun z => p z y = false) ys
      rw [List.eraseDupsBy_cons]
      rw [List.length_cons] at hn
      by_cases hxy : p x y = true
      · exact ⟨y, List.mem_cons_self, hxy⟩
      · have hys : x ∈ ys := (List.mem_cons.mp h).resolve_left fun heq => hxy (heq ▸ hself x)
        have hfilter : x ∈ ys.filter fun z => p z y = false :=
          List.mem_filter.mpr ⟨hys, by simpa using hxy⟩
        have ⟨z, hz, hxz⟩ := ih _ (by omega) hfilter rfl
        exact ⟨z, List.mem_cons_of_mem y hz, hxz⟩

/-- The runs of the steps of a query. -/
def stepRuns (env : QueryEnv) (g : EntityGraph) (queryName : String) (q : NamedQuerySchema)
    (params : Params) (declared : Option String) : Except CoreError (List StepRun) :=
  q.traversal.zipIdx.mapM fun s =>
    stepRun env g queryName q params q.maxPaths declared s.1 s.2

/-- The path on which every query starts. -/
def startAt (entry : EntityInstance) : TraversalState where
  entry := entry
  current := entry
  entities := [entry]
  path := []

theorem stepRun_step {cap : Option Nat} {step : TraversalStep} {index : Nat}
    (h : stepRun env g queryName q params cap declared step index = .ok r) :
    r.step = step ∧ r.retention = q.requiresPathRetention := by
  unfold stepRun at h
  have ⟨collect, _, hrefs⟩ := bind_eq_ok.mp h
  have ⟨refs, _, hr⟩ := bind_eq_ok.mp hrefs
  rw [pure_eq_ok] at hr
  rw [← hr]
  exact ⟨rfl, rfl⟩

/-- The rows that a traversal finds, before `include` and `limit`. -/
def foundRows (env : QueryEnv) (q : NamedQuerySchema) (states : List TraversalState) :
    List QueryRowContext :=
  filterContextsByEntityState env.now q.relationshipState q.resultShape
    (buildResultContexts q.resultShape (dedupeStates q.dedupe states))

theorem resultRows_found (h : resultRows env g queryName q params declared states = .ok rows) :
    (∀ row ∈ rows, row ∈ foundRows env q states) ∧
      (q.includes = [] → ∀ row ∈ foundRows env q states, row ∈ rows) := by
  unfold resultRows at h
  have ⟨_, _, hincludes⟩ := bind_eq_ok.mp h
  have ⟨_, hrows⟩ := filterM_eq_ok.mp hincludes
  constructor
  · intro row hrow
    rw [hrows] at hrow
    exact List.mem_of_mem_filter hrow
  · intro hnone row hrow
    rw [hrows]
    refine List.mem_filter.mpr ⟨hrow, ?_⟩
    rw [passes, hnone]
    rfl

variable {result : QueryResult}

theorem limitResults_mem {reasons : List String}
    (h : limitResults params q rows reasons = .ok result) :
    (∀ row ∈ result.results, row ∈ rows) ∧
      (q.limit = none → ∀ row ∈ rows, row ∈ result.results) := by
  unfold limitResults at h
  have ⟨sorted, hsorted, hresult⟩ := bind_eq_ok.mp h
  rw [pure_eq_ok] at hresult
  have hperm : sorted.Perm rows := by
    unfold sortQueryRowContexts at hsorted
    cases ho : q.orderBy with
    | none =>
      rw [ho] at hsorted
      rw [← Except.ok.inj hsorted]
      exact sortedBy_perm _ _
    | some o =>
      rw [ho] at hsorted
      exact o.run_perm hsorted
  rw [← hresult]
  constructor
  · intro row hrow
    cases hl : q.limit with
    | none =>
      rw [hl] at hrow
      exact hperm.mem_iff.mp hrow
    | some l =>
      rw [hl] at hrow
      exact hperm.mem_iff.mp (List.mem_of_mem_take hrow)
  · intro hl row hrow
    rw [hl]
    exact hperm.mem_iff.mpr hrow

theorem executeQueryDefinition_traversal (hmode : q.mode = .traversal)
    (h : executeQueryDefinition env g queryName q params = .ok result) :
    ∃ declared entryPoint entry reached rows,
      validateEffectiveQueryOptions env queryName q = .ok () ∧
      resolveDeclaredEntityReturnType env queryName q = .ok declared ∧
      q.entryPoint = some entryPoint ∧ resolveEntryEntity env g entryPoint params = .ok entry ∧
      traverse env g queryName q params declared entry = .ok reached ∧
      resultRows env g queryName q params declared reached.1 = .ok rows ∧
      limitResults params q (applyPathBudgets q.maxPaths q.maxPathsPerResult reached.2 rows).1
        (applyPathBudgets q.maxPaths q.maxPathsPerResult reached.2 rows).2 = .ok result := by
  unfold executeQueryDefinition at h
  have ⟨_, hvalid, h⟩ := bind_eq_ok.mp h
  have ⟨declared, hdeclared, h⟩ := bind_eq_ok.mp h
  rw [hmode] at h
  cases hentryPoint : q.entryPoint with
  | none =>
    rw [hentryPoint] at h
    cases h
  | some entryPoint =>
    rw [hentryPoint] at h
    change (resolveEntryEntity env g entryPoint params >>= _) = _ at h
    have ⟨entry, hentry, h⟩ := bind_eq_ok.mp h
    have ⟨reached, hreached, h⟩ := bind_eq_ok.mp h
    have ⟨rows, hrows, hresult⟩ := bind_eq_ok.mp h
    exact ⟨declared, entryPoint, entry, reached, rows, hvalid, hdeclared, rfl, hentry, hreached,
      hrows, hresult⟩

end Cruxible.StepPaths
