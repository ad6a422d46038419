import Cruxible.PathBudgets

/-!
# Guards on the number of results

A mutation guard may bound the number of results of a named query. The guard
counts the rows that the engine reports in total, which are those that `limit` has
not cut but the path caps have. The complete evaluation is the same evaluation, in
the same order, with no cut. Where the caps have room for its paths and rows the
guard is decided by it; where they have not, the engine reports a cut that the guard
does not read.
-/
namespace Cruxible.CountGuards
open PythonDict AssertionState Cruxible.Graph PropertyValidation Neighbors QueryEngine QueryCaps
  Fallible StepPaths PathBudgets

structure NamedQueryResultCountGuardCondition where
  queryName : String
  minCount : Option Int := none
  maxCount : Option Int := none

def withinBounds (minCount maxCount : Option Int) (n : Nat) : Bool :=
  (minCount.all fun lo => lo ≤ (n : Int)) && maxCount.all fun hi => (n : Int) ≤ hi

/-- `_guard_condition_passes` of a count condition, with its parameters resolved. -/
def guardConditionPasses (env : QueryEnv) (g : EntityGraph)
    (condition : NamedQueryResultCountGuardCondition) (params : Params) :
    Except CoreError Bool := do
  let result ← executeQuery env g condition.queryName params
  pure (withinBounds condition.minCount condition.maxCount result.totalResults)

/-- One step that keeps its first `cap` paths. -/
def stepStates (env : QueryEnv) (g : EntityGraph) (queryName : String) (q : NamedQuerySchema)
    (params : Params) (declared : Option String) (cap : Option Nat)
    (states : List TraversalState) (s : TraversalStep × Nat) :
    Except CoreError (List TraversalState) := do
  let r ← stepRun env g queryName q params none declared s.1 s.2
  firstPaths cap (r.run states)

/-- The states of the last step when every step keeps its first `cap` paths. -/
def lastStates (env : QueryEnv) (g : EntityGraph) (queryName : String) (q : NamedQuerySchema)
    (params : Params) (declared : Option String) (entry : EntityInstance) (cap : Option Nat) :
    Except CoreError (List TraversalState) :=
  q.traversal.zipIdx.foldlM (stepStates env g queryName q params declared cap) [startAt entry]

/-- Rows stand in a stable order when a budget is declared. -/
def budgetOrder (q : NamedQuerySchema) (rows : List QueryRowContext) : List QueryRowContext :=
  if q.maxPaths.isNone ∧ q.maxPathsPerResult.isNone then rows else sortedBy stableRowIdentity rows

/-- The number of rows of a query when every step keeps its first `cap` paths and
every result its first `perResult` rows. -/
def countWith (env : QueryEnv) (g : EntityGraph) (queryName : String) (q : NamedQuerySchema)
    (params : Params) (cap perResult : Option Nat) : Except CoreError Nat := do
  validateEffectiveQueryOptions env queryName q
  let declared ← resolveDeclaredEntityReturnType env queryName q
  match q.mode with
  | .collection => (executeCollectionQuery env g queryName q params).map QueryResult.totalResults
  | .traversal =>
      match q.entryPoint with
      | none => .error (.queryExecution s!"Traversal query '{queryName}' requires entry_point")
      | some entryPoint => do
          let entry ← resolveEntryEntity env g entryPoint params
          let states ← lastStates env g queryName q params declared entry cap
          let rows ← resultRows env g queryName q params declared states
          let ordered := budgetOrder q rows
          let kept := perResult.elim ordered fun m => retainPerResult m ∅ ordered
          (sortQueryRowContexts params q.orderBy kept).map List.length

/-- The number of results of the query with nothing cut. -/
def completeCount (env : QueryEnv) (g : EntityGraph) (queryName : String) (params : Params) :
    Except CoreError Nat :=
  match env.namedQueries.get? queryName with
  | none => .error (.queryNotFound queryName)
  | some q => countWith env g queryName q params none none

/-- The number of results made of the first `max_paths` paths of every step and, of
these, the first `max_paths_per_result` rows of every result. -/
def survivingCount (env : QueryEnv) (g : EntityGraph) (queryName : String) (params : Params) :
    Except CoreError Nat :=
  match env.namedQueries.get? queryName with
  | none => .error (.queryNotFound queryName)
  | some q => countWith env g queryName q params
      (if q.requiresPathRetention then q.maxPaths else none) q.maxPathsPerResult

/-- Every step of the complete evaluation has at most `cap` paths, and fewer before it
raises. -/
def pathsWithin (env : QueryEnv) (g : EntityGraph) (queryName : String) (q : NamedQuerySchema)
    (params : Params) (declared : Option String) (cap : Nat) :
    List (TraversalStep × Nat) → List TraversalState → Bool
  | [], _ => true
  | s :: steps, states =>
      match stepRun env g queryName q params none declared s.1 s.2 with
      | .error _ => true
      | .ok r =>
          match (r.run states).raised with
          | some _ => decide ((r.run states).nextStates.length < cap)
          | none => decide ((r.run states).nextStates.length ≤ cap) &&
              pathsWithin env g queryName q params declared cap steps (r.run states).nextStates

def resultKey (row : QueryRowContext) : String × String :=
  (row.result.entityType, row.result.entityId)

/-- No result has more than `m` rows. -/
def RowsWithin (m : Nat) (rows : List QueryRowContext) : Prop :=
  ∀ row ∈ rows, (rows.countP fun other => resultKey other = resultKey row) ≤ m

/-- The caps of a query have room for the paths and rows of its complete evaluation. -/
def WithinCaps (env : QueryEnv) (g : EntityGraph) (queryName : String) (params : Params) : Prop :=
  ∀ q, env.namedQueries.get? queryName = some q → q.mode = .traversal →
    ∀ declared entryPoint entry, resolveDeclaredEntityReturnType env queryName q = .ok declared →
      q.entryPoint = some entryPoint → resolveEntryEntity env g entryPoint params = .ok entry →
      (∀ m, q.maxPaths = some m → q.requiresPathRetention = true →
        pathsWithin env g queryName q params declared m q.traversal.zipIdx [startAt entry] = true) ∧
      ∀ m, q.maxPathsPerResult = some m → ∀ states rows,
        lastStates env g queryName q params declared entry none = .ok states →
        resultRows env g queryName q params declared states = .ok rows → RowsWithin m rows

section Totals
variable (env : QueryEnv) (g : EntityGraph) (queryName : String) (q : NamedQuerySchema)
  (params : Params)

theorem traverse_states (declared : Option String) (entry : EntityInstance) :
    (traverse env g queryName q params declared entry).map Prod.fst =
      lastStates env g queryName q params declared entry
        (if q.requiresPathRetention then q.maxPaths else none) := by
  unfold QueryEngine.traverse lastStates
  apply foldlM_map Prod.fst
  rintro ⟨states, truncated⟩ ⟨step, index⟩
  unfold stepStates
  rw [stepRun_cap]
  cases hr : stepRun env g queryName q params none declared step index with
  | error e => rfl
  | ok r =>
    obtain ⟨hretention, hcap⟩ := stepRun_ok env g queryName q params hr
    have hself : uncapped { r with maxPaths := q.maxPaths } = r := by
      simp [uncapped, ← hcap]
    have heffective : effectiveCap { r with maxPaths := q.maxPaths } =
        if q.requiresPathRetention then q.maxPaths else none := by
      rw [← hretention]
      rfl
    have hcut := execute_eq_firstPaths { r with maxPaths := q.maxPaths } states
    rw [hself, heffective] at hcut
    have hfst : ∀ x : Except CoreError (List TraversalState × Bool),
        (x >>= fun out => pure (out.1, truncated || out.2)).map Prod.fst = x.map Prod.fst := by
      intro x
      cases x <;> rfl
    exact (hfst _).trans hcut

theorem applyPathBudgets_rows (truncated : Bool) (rows : List QueryRowContext) :
    (applyPathBudgets q.maxPaths q.maxPathsPerResult truncated rows).1 =
      q.maxPathsPerResult.elim (budgetOrder q rows) fun m =>
        retainPerResult m ∅ (budgetOrder q rows) := by
  by_cases hnone : q.maxPaths.isNone ∧ q.maxPathsPerResult.isNone
  · have hper : q.maxPathsPerResult = none := Option.isNone_iff_eq_none.mp hnone.2
    rw [applyPathBudgets, budgetOrder, if_pos hnone, if_pos hnone, hper]
    rfl
  · rw [applyPathBudgets, budgetOrder, if_neg hnone, if_neg hnone]

theorem limitResults_total (rows : List QueryRowContext) (reasons : List String) :
    (limitResults params q rows reasons).map QueryResult.totalResults =
      (sortQueryRowContexts params q.orderBy rows).map List.length := by
  unfold limitResults
  cases sortQueryRowContexts params q.orderBy rows <;> rfl

end Totals

theorem executeQuery_total (env : QueryEnv) (g : EntityGraph) (queryName : String)
    (params : Params) : (executeQuery env g queryName params).map QueryResult.totalResults =
      survivingCount env g queryName params := by
  unfold executeQuery survivingCount
  cases env.namedQueries.get? queryName with
  | none => rfl
  | some q =>
    simp only [executeQueryDefinition, countWith]
    cases validateEffectiveQueryOptions env queryName q with
    | error e => rfl
    | ok u =>
      simp only [bind, Except.bind]
      cases resolveDeclaredEntityReturnType env queryName q with
      | error e => rfl
      | ok declared =>
        simp only
        cases q.mode with
        | collection => rfl
        | traversal =>
          cases q.entryPoint with
          | none => rfl
          | some entryPoint =>
            simp only
            cases resolveEntryEntity env g entryPoint params with
            | error e => rfl
            | ok entry =>
              simp only
              rw [← traverse_states]
              cases traverse env g queryName q params declared entry with
              | error e => rfl
              | ok reached =>
                change _ = (resultRows env g queryName q params declared
                  reached.1 >>= fun rows => _)
                simp only
                cases resultRows env g queryName q params declared reached.1 with
                | error e => rfl
                | ok rows =>
                  change (limitResults params q _ _).map _ = _
                  rw [limitResults_total, applyPathBudgets_rows]
                  rfl

theorem guardConditionPasses_iff (env : QueryEnv) (g : EntityGraph) (queryName : String)
    (minCount maxCount : Option Int) (params : Params) :
    guardConditionPasses env g ⟨queryName, minCount, maxCount⟩ params = .ok true ↔
      ∃ n, survivingCount env g queryName params = .ok n ∧
        withinBounds minCount maxCount n = true := by
  rw [guardConditionPasses, ← executeQuery_total]
  cases executeQuery env g queryName params with
  | error e => simp [bind, Except.bind, Except.map]
  | ok result => simp [bind, Except.bind, Except.map, pure, Except.pure]

section Room
variable {env : QueryEnv} {g : EntityGraph} {queryName : String} {q : NamedQuerySchema}
  {params : Params} {declared : Option String} {states : List TraversalState} {m : Nat}

theorem firstPaths_of_room {w : Walk} (hraised : w.raised.isSome → w.nextStates.length < m)
    (hquiet : w.raised = none → w.nextStates.length ≤ m) :
    firstPaths (some m) w = firstPaths none w := by
  unfold firstPaths
  cases hw : w.raised with
  | some e =>
    have hroom : ¬m ≤ w.nextStates.length := Nat.not_le.mpr (hraised (by rw [hw]; rfl))
    simp [hroom]
  | none =>
    have hle := hquiet hw
    simp only [Option.any_some, decide_eq_true_eq, Option.elim_some, Option.any_none,
      Bool.false_eq_true, if_false]
    split_ifs
    · rw [List.take_of_length_le hle]
    · rfl

theorem stepStates_of_within {steps : List (TraversalStep × Nat)}
    (h : pathsWithin env g queryName q params declared m steps states = true) :
    steps.foldlM (stepStates env g queryName q params declared (some m)) states =
      steps.foldlM (stepStates env g queryName q params declared none) states := by
  induction steps generalizing states with
  | nil => rfl
  | cons s steps ih =>
    rw [List.foldlM_cons, List.foldlM_cons]
    rw [pathsWithin] at h
    cases hr : stepRun env g queryName q params none declared s.1 s.2 with
    | error e =>
      unfold stepStates
      rw [hr]
      rfl
    | ok r =>
      have hstep : ∀ cap, stepStates env g queryName q params declared cap states s =
          firstPaths cap (r.run states) := by
        intro cap
        unfold stepStates
        rw [hr]
        rfl
      rw [hr] at h
      dsimp only at h
      cases hraised : (r.run states).raised with
      | some e =>
        rw [hraised] at h
        have hroom : (r.run states).nextStates.length < m := of_decide_eq_true h
        have hcut : firstPaths (some m) (r.run states) = firstPaths none (r.run states) :=
          firstPaths_of_room (fun _ => hroom) fun _ => Nat.le_of_lt hroom
        have hfails : firstPaths none (r.run states) = .error e := by
          simp [firstPaths, hraised]
        rw [hstep, hstep, hcut, hfails]
        rfl
      | none =>
        rw [hraised] at h
        rw [Bool.and_eq_true, decide_eq_true_eq] at h
        have hcut : firstPaths (some m) (r.run states) = firstPaths none (r.run states) := by
          apply firstPaths_of_room
          · intro hsome
            rw [hraised] at hsome
            cases hsome
          · exact fun _ => h.1
        have hall : firstPaths none (r.run states) = .ok (r.run states).nextStates := by
          simp [firstPaths, hraised]
        rw [hstep, hstep, hcut, hall]
        exact ih h.2

theorem retainPerResult_sublist (counts : Dict (String × String) Nat)
    (rows : List QueryRowContext) : (retainPerResult m counts rows).Sublist rows := by
  induction rows generalizing counts with
  | nil => exact List.Sublist.slnil
  | cons row rows ih =>
    rw [retainPerResult]
    split_ifs
    · exact (ih counts).cons row
    · exact (ih _).cons_cons row

/-- Counting a retained row moves it from the rows to come to the counts. -/
theorem counted_cons (counts : Dict (String × String) Nat) (row : QueryRowContext)
    (rows : List QueryRowContext) (k : String × String) :
    ((counts.set (resultKey row) ((counts.get? (resultKey row)).getD 0 + 1)).get? k).getD 0 +
        (rows.countP fun other => resultKey other = k) =
      (counts.get? k).getD 0 + ((row :: rows).countP fun other => resultKey other = k) := by
  rw [Dict.get?_set, List.countP_cons]
  by_cases hsame : resultKey row = k
  · rw [if_pos hsame, Option.getD_some, hsame, if_pos (decide_eq_true rfl)]
    omega
  · rw [if_neg hsame, if_neg (by simpa using hsame), Nat.add_zero]

theorem retainPerResult_eq_self_iff (counts : Dict (String × String) Nat)
    (rows : List QueryRowContext) : retainPerResult m counts rows = rows ↔
      ∀ row ∈ rows, (counts.get? (resultKey row)).getD 0 +
        (rows.countP fun other => resultKey other = resultKey row) ≤ m := by
  induction rows generalizing counts with
  | nil => simp [retainPerResult]
  | cons row rows ih =>
    have hkey : (row.result.entityType, row.result.entityId) = resultKey row := rfl
    rw [retainPerResult, hkey]
    split_ifs with hfull
    · constructor
      · intro h
        have hlen := (retainPerResult_sublist (m := m) counts rows).length_le
        rw [h, List.length_cons] at hlen
        omega
      · intro h
        have hrow := h row List.mem_cons_self
        rw [List.countP_cons_of_pos (by simp)] at hrow
        omega
    · rw [List.cons_inj_right, ih, List.forall_mem_cons]
      simp only [counted_cons]
      constructor
      · intro h
        refine ⟨?_, h⟩
        by_cases hsome : ∃ other ∈ rows, resultKey other = resultKey row
        · obtain ⟨other, hother, hsame⟩ := hsome
          rw [← hsame]
          exact h other hother
        · have hzero : (rows.countP fun other => resultKey other = resultKey row) = 0 := by
            apply List.countP_eq_zero.mpr
            intro other hother hsame
            exact hsome ⟨other, hother, of_decide_eq_true hsame⟩
          rw [List.countP_cons_of_pos (by simp), hzero]
          omega
      · exact And.right

theorem retainPerResult_whole_iff {rows : List QueryRowContext} :
    retainPerResult m ∅ rows = rows ↔ RowsWithin m rows := by
  rw [retainPerResult_eq_self_iff]
  simp [RowsWithin]

theorem RowsWithin.perm {rows rows' : List QueryRowContext} (h : RowsWithin m rows)
    (hperm : rows.Perm rows') : RowsWithin m rows' := by
  intro row hrow
  rw [← hperm.countP_eq]
  exact h row (hperm.mem_iff.mpr hrow)

theorem budgetOrder_perm (q : NamedQuerySchema) (rows : List QueryRowContext) :
    (budgetOrder q rows).Perm rows := by
  unfold budgetOrder
  split_ifs
  · exact .refl _
  · exact sortedBy_perm _ _

theorem survivingCount_of_within (h : WithinCaps env g queryName params) :
    survivingCount env g queryName params = completeCount env g queryName params := by
  unfold survivingCount completeCount
  cases hq : env.namedQueries.get? queryName with
  | none => rfl
  | some q =>
    simp only [countWith]
    cases validateEffectiveQueryOptions env queryName q with
    | error e => rfl
    | ok u =>
      simp only [bind, Except.bind]
      cases hdeclared : resolveDeclaredEntityReturnType env queryName q with
      | error e => rfl
      | ok declared =>
        simp only
        cases hmode : q.mode with
        | collection => rfl
        | traversal =>
          cases hentryPoint : q.entryPoint with
          | none => rfl
          | some entryPoint =>
            simp only
            cases hentry : resolveEntryEntity env g entryPoint params with
            | error e => rfl
            | ok entry =>
              have ⟨hpaths, hper⟩ :=
                h q hq hmode declared entryPoint entry hdeclared hentryPoint hentry
              have hstates : lastStates env g queryName q params declared entry
                  (if q.requiresPathRetention then q.maxPaths else none) =
                  lastStates env g queryName q params declared entry none := by
                split_ifs with hretention
                · cases hm : q.maxPaths with
                  | none => rfl
                  | some m => exact stepStates_of_within (hpaths m hm hretention)
                · rfl
              simp only [hstates]
              cases hlast : lastStates env g queryName q params declared entry none with
              | error e => rfl
              | ok states =>
                simp only
                cases hrows : resultRows env g queryName q params declared states with
                | error e => rfl
                | ok rows =>
                  cases hm : q.maxPathsPerResult with
                  | none => rfl
                  | some m =>
                    have hwithin := (hper m hm states rows hlast hrows).perm
                      (budgetOrder_perm q rows).symm
                    simp only [Option.elim_some, Option.elim_none,
                      retainPerResult_whole_iff.mpr hwithin]

theorem pathsWithin_of_uncut (hretention : q.requiresPathRetention = true)
    (hm : q.maxPaths = some m) {steps : List (TraversalStep × Nat)}
    {acc out : List TraversalState × Bool}
    (h : steps.foldlM (turn env g queryName q params declared) acc = .ok out)
    (hcut : out.2 = false) : acc.2 = false ∧
      pathsWithin env g queryName q params declared m steps acc.1 = true := by
  induction steps generalizing acc with
  | nil =>
    have hout : acc = out := by simpa [pure, Except.pure] using h
    exact ⟨hout ▸ hcut, rfl⟩
  | cons s steps ih =>
    obtain ⟨next, hnext, hrest⟩ := foldlM_cons_eq_ok.mp h
    obtain ⟨r, found, hr, hkeep, hcap, hfound, hpair⟩ := turn_ok hnext
    have hrr : r.retention = true := hkeep.trans hretention
    have hrm : r.maxPaths = some m := hcap.trans hm
    obtain ⟨hnocut, hwithin⟩ := ih hrest
    rw [hpair, Bool.or_eq_false_iff] at hnocut
    rw [hpair] at hwithin
    refine ⟨hnocut.1, ?_⟩
    rw [stepRun_cap] at hr
    cases hfree : stepRun env g queryName q params none declared s.1 s.2 with
    | error e =>
      rw [hfree] at hr
      cases hr
    | ok r' =>
      rw [hfree] at hr
      have hself : r' = uncapped r := by
        obtain ⟨_, hnone⟩ := stepRun_ok env g queryName q params hfree
        rw [← Except.ok.inj hr]
        simp [uncapped, ← hnone]
      obtain ⟨hraised, hstates, htruncated⟩ := execute_ok hfound
      have huncut := run_uncut hrr m acc.1
      rw [capped_self hrm] at huncut
      rcases huncut with hflag | htied
      · rw [htruncated, hnocut.2] at hflag
        cases hflag
      · have hquiet : (r'.run acc.1).raised = none := by
          rw [hself, ← htied.raised, hraised]
        have hall : (r'.run acc.1).nextStates = found.1 := by
          rw [hself, ← htied.next, hstates]
        have hlength := execute_length hrr hrm hfound
        rw [pathsWithin, hfree]
        dsimp only
        rw [hquiet, hall]
        simp [hlength, hwithin]

theorem within_of_unreported {result : QueryResult}
    (h : executeQuery env g queryName params = .ok result)
    (hpaths : "max_paths" ∉ result.truncationReasons)
    (hper : "max_paths_per_result" ∉ result.truncationReasons) :
    WithinCaps env g queryName params := by
  intro q hq hmode declared entryPoint entry hdeclared hentryPoint hentry
  have hrun : executeQueryDefinition env g queryName q params = .ok result := by
    unfold executeQuery at h
    rwa [hq] at h
  have ⟨declared', entryPoint', entry', reached, rows, hvalid, hdeclared', hentryPoint', hentry',
    htraverse, hrows, hresult⟩ := executeQueryDefinition_traversal hmode hrun
  obtain rfl := Except.ok.inj (hdeclared.symm.trans hdeclared')
  obtain rfl := Option.some.inj (hentryPoint.symm.trans hentryPoint')
  obtain rfl := Except.ok.inj (hentry.symm.trans hentry')
  have hsteps : ∀ m, q.maxPaths = some m → q.requiresPathRetention = true →
      pathsWithin env g queryName q params declared m q.traversal.zipIdx [startAt entry] = true := by
    intro m hm hretention
    have hsome : q.maxPaths.isSome = true := by simp [hm]
    have huncut : reached.2 = false :=
      Bool.eq_false_iff.mpr fun hcut => hpaths ((max_paths_reported hsome hresult).mpr hcut)
    exact (pathsWithin_of_uncut hretention hm htraverse huncut).2
  refine ⟨hsteps, ?_⟩
  intro m hm states rows' hlast hrows'
  have hlast' : lastStates env g queryName q params declared entry none = .ok reached.1 := by
    have hmap := traverse_states env g queryName q params declared entry
    rw [htraverse] at hmap
    split_ifs at hmap with hretention
    · cases hcap : q.maxPaths with
      | none => exact (hcap ▸ hmap).symm
      | some k =>
        rw [hcap] at hmap
        have hsame := stepStates_of_within (hsteps k hcap hretention)
        exact (hmap.trans hsame).symm
    · exact hmap.symm
  obtain rfl := Except.ok.inj (hlast'.symm.trans hlast)
  obtain rfl := Except.ok.inj (hrows.symm.trans hrows')
  have hwhole : retainPerResult m ∅ (sortedBy stableRowIdentity rows) =
      sortedBy stableRowIdentity rows := by
    apply (retainPerResult_sublist ∅ _).eq_of_length_le
    by_contra hshort
    apply hper
    unfold limitResults at hresult
    have ⟨sorted, _, hsorted⟩ := bind_eq_ok.mp hresult
    rw [pure_eq_ok] at hsorted
    have hbudget : ¬(q.maxPaths.isNone ∧ q.maxPathsPerResult.isNone) := by simp [hm]
    rw [← hsorted, applyPathBudgets, if_neg hbudget]
    simp [hm, Nat.not_le.mp hshort]
  exact (retainPerResult_whole_iff.mp hwhole).perm (sortedBy_perm _ _)

end Room

theorem count_guards_decided_by_complete_count (env : QueryEnv) (g : EntityGraph)
    (queryName : String) (params : Params) :
    (WithinCaps env g queryName params → ∀ minCount maxCount : Option Int,
      (guardConditionPasses env g ⟨queryName, minCount, maxCount⟩ params = .ok true ↔
        ∃ n, completeCount env g queryName params = .ok n ∧
          withinBounds minCount maxCount n = true)) ∧
    (¬WithinCaps env g queryName params → ∀ result,
      executeQuery env g queryName params = .ok result →
        "max_paths" ∈ result.truncationReasons ∨
          "max_paths_per_result" ∈ result.truncationReasons) := by
  constructor
  · intro h minCount maxCount
    rw [guardConditionPasses_iff, survivingCount_of_within h]
  · intro h result hresult
    by_contra hneither
    rw [not_or] at hneither
    exact h (within_of_unreported hresult hneither.1 hneither.2)

def item (entityType entityId : String) : EntityInstance where
  entityType := entityType
  entityId := entityId

def blocks (key : Nat) (blocker : String) : EdgeData where
  fromNode := makeNodeId "Release" "r1"
  toNode := makeNodeId "Issue" blocker
  key := key
  relationshipType := "blocked_by"
  claimId := blocker
  properties := ∅
  metadata := {}

def blockedRelease : EntityGraph where
  nodes := Dict.ofList [(makeNodeId "Release" "r1", item "Release" "r1"),
    (makeNodeId "Issue" "i1", item "Issue" "i1"), (makeNodeId "Issue" "i2", item "Issue" "i2"),
    (makeNodeId "Issue" "i3", item "Issue" "i3")]
  edges := [blocks 0 "i1", blocks 1 "i2", blocks 2 "i3"]

def identified : EntityTypeSchema where
  properties := Dict.ofList [("id", { type := .string, primaryKey := true })]

/-- The blockers of a release, up to a number of paths. -/
def openBlockers (maxPaths : Nat) : NamedQuerySchema where
  entryPoint := some "Release"
  traversal := [{ relationshipTypes := ["blocked_by"] }]
  returns := "Issue"
  maxPaths := some maxPaths

def releaseEnv (maxPaths : Nat) : QueryEnv where
  entityTypes := Dict.ofList [("Release", identified), ("Issue", identified)]
  relationships := [({ name := "blocked_by", fromEntity := "Release", toEntity := "Issue" }, none)]
  namedQueries := Dict.ofList [("open_blockers", openBlockers maxPaths)]
  text := fun v => match v with
    | .str s => s
    | _ => ""

def releaseParams : Params := Dict.ofList [("id", .str "r1")]

theorem three_blockers_are_counted :
    guardConditionPasses (releaseEnv 3) blockedRelease ⟨"open_blockers", none, some 2⟩
        releaseParams = .ok true ↔
      ∃ n, completeCount (releaseEnv 3) blockedRelease "open_blockers" releaseParams = .ok n ∧
        withinBounds none (some 2) n = true := by
  apply (count_guards_decided_by_complete_count (releaseEnv 3) blockedRelease "open_blockers"
    releaseParams).1
  intro q hq _ declared entryPoint entry hdeclared hentryPoint hentry
  obtain rfl : openBlockers 3 = q := Option.some.inj hq
  obtain rfl : some "Issue" = declared := Except.ok.inj hdeclared
  obtain rfl : "Release" = entryPoint := Option.some.inj hentryPoint
  obtain rfl : item "Release" "r1" = entry := Except.ok.inj hentry
  constructor
  · intro m hm _
    obtain rfl : 3 = m := Option.some.inj hm
    decide +kernel
  · intro m hm
    cases hm

/-- A guard that tolerates two blockers lets a release with three through. -/
theorem capped_query_hides_a_blocker :
    ¬ (guardConditionPasses (releaseEnv 2) blockedRelease
        ⟨"open_blockers", none, some 2⟩ releaseParams = .ok true ↔
      ∃ n, completeCount (releaseEnv 2) blockedRelease "open_blockers" releaseParams = .ok n ∧
        withinBounds none (some 2) n = true) := by
  have hpasses : guardConditionPasses (releaseEnv 2) blockedRelease
      ⟨"open_blockers", none, some 2⟩ releaseParams = .ok true := by decide +kernel
  have hcount : completeCount (releaseEnv 2) blockedRelease "open_blockers" releaseParams =
      .ok 3 := by decide +kernel
  intro h
  obtain ⟨n, hn, hin⟩ := h.mp hpasses
  rw [hcount, Except.ok.injEq] at hn
  subst hn
  exact absurd hin (by decide)

end Cruxible.CountGuards
