import Cruxible.HashJoins
import Cruxible.PythonOrder

/-!
# One item for each key

The dedupe step goes over the items once and keeps one for every canonical key: the
first, the last, or one by its rank. An absent rank never wins. A `nan` among the
ranks is ahead of nothing and nothing is ahead of it, so that the pass over it need
not end at the extremum of the others.
-/
namespace Cruxible.Representatives
open JsonValue PythonDict PropertyValidation Fallible ReadMetadata Groupings WorkflowRuns
open OrderValues OnlineExtrema HashJoins

inductive Strategy where
  | first
  | last
  | max
  | min
  deriving DecidableEq, Repr

structure DedupeItemsSpec where
  items : Value
  keys : List Value
  strategy : Strategy := .first
  rank : Value := .null

/-- An item that stands for its key. -/
structure Selected where
  item : Value
  index : Nat
  key : List Value
  rank : Value
  rankPresent : Bool

/-- `_resolve_optional_rank`. -/
def resolveOptionalRank (sc : Scope) (template : Value) : Except CoreError Value :=
  match sc.resolveValue template, template with
  | .error (.queryExecution message), .str s =>
      if (dropMarker "$item." s).isSome then .ok .null else .error (.queryExecution message)
  | resolved, _ => resolved

/-- `new > existing` or `new < existing`. -/
def outranks (strategy : Strategy) (new existing : Value) : Option Bool :=
  match strategy with
  | .max => valueLt (ordered existing) (ordered new)
  | _ => valueLt (ordered new) (ordered existing)

/-- `_should_replace_ranked_item`. -/
def shouldReplaceRankedItem (stepId : String) (strategy : Strategy) (existing new : Selected) :
    Except CoreError Bool :=
  if !new.rankPresent then .ok false
  else if !existing.rankPresent then .ok true
  else match outranks strategy new.rank existing.rank with
    | some ahead => .ok ahead
    | none => .error (.queryExecution
        s!"Workflow step '{stepId}' dedupe_items rank values are incomparable")

/-- Which of two items with one key stays. -/
def kept (stepId : String) (strategy : Strategy) (existing new : Selected) :
    Except CoreError Selected :=
  match strategy with
  | .first => .ok existing
  | .last => .ok new
  | _ => do
      let replaces ← shouldReplaceRankedItem stepId strategy existing new
      pure (if replaces then new else existing)

variable (env : RunEnv) (stepId : String) (spec : DedupeItemsSpec) (outputs : Outputs)

/-- An item with the canonical form of its key. -/
def candidate (entry : Value × Nat) : Except CoreError (Value × Selected) := do
  let row ← ensureItemMapping stepId "dedupe_items" entry.1
  let sc := rowScope env outputs row
  let keyValues ← spec.keys.mapM sc.resolveValue
  let keyHash ← joinKey (.array keyValues)
  let rank ← if spec.strategy = .max ∨ spec.strategy = .min then resolveOptionalRank sc spec.rank
    else pure .null
  pure (keyHash, { item := entry.1, index := entry.2, key := keyValues, rank := rank
                   rankPresent := rank ≠ .null })

structure Dedupe where
  selected : Dict Value Selected := ∅
  duplicateCount : Nat := 0
  duplicateExamples : List Value := []

def duplicateExample (existing new : Selected) : Value :=
  .object [("key", .array new.key), ("kept_index", count existing.index),
    ("duplicate_index", count new.index)]

/-- One turn of the loop; setting the item that stays anew changes nothing. -/
def addItem (state : Dedupe) (entry : Value × Nat) : Except CoreError Dedupe := do
  let (keyHash, new) ← candidate env stepId spec outputs entry
  match state.selected.get? keyHash with
  | none => pure { state with selected := state.selected.set keyHash new }
  | some existing => do
      let stays ← kept stepId spec.strategy existing new
      pure { selected := state.selected.set keyHash stays
             duplicateCount := state.duplicateCount + 1
             duplicateExamples :=
               if state.duplicateExamples.length < 10 then
                 state.duplicateExamples ++ [duplicateExample existing new]
               else state.duplicateExamples }

/-- The items that stand for their keys, in the order of the keys. -/
def Dedupe.items (state : Dedupe) : List Selected := state.selected.entries.map Prod.snd

def dedupeOutput (inputCount : Nat) (state : Dedupe) : Object :=
  attachSourceMetadata
    [("items", .array (state.items.map Selected.item)), ("input_count", count inputCount),
      ("output_count", count state.items.length), ("duplicate_count", count state.duplicateCount),
      ("duplicate_examples", .array state.duplicateExamples)]
    (sourceReadMetadata spec.items outputs)

/-- `dedupe_items`. -/
def dedupeItems : Except CoreError Object := do
  let items ← resolveStepItems { input := env.input, outputs := outputs } spec.items
  let state ← items.zipIdx.foldlM (addItem env stepId spec outputs) {}
  pure (dedupeOutput spec outputs items.length state)

def rank? (s : Selected) : Option OrderValue := if s.rankPresent then some (ordered s.rank) else none

/-- By which comparison a rank wins. -/
def Strategy.comparison : Strategy → Comparison OrderValue
  | .max => pythonComparison.dual
  | _ => pythonComparison

/-- The right item for a key, among the items that have it. -/
def Represents (strategy : Strategy) (among : List Selected) (s : Selected) : Prop :=
  match strategy with
  | .first => among.head? = some s
  | .last => among.getLast? = some s
  | ranked =>
      if ∀ t ∈ among, rank? t = none then among.head? = some s
      else Earliest ranked.comparison rank? among s

/-- Some present rank is at least as good as every other one. -/
def HasExtremum (strategy : Strategy) (among : List Selected) : Prop :=
  match strategy with
  | .first | .last => True
  | ranked => (∀ t ∈ among, rank? t = none) ∨ ∃ s ∈ among, Attains ranked.comparison rank? among s

/-- One item for each distinct key, in the order in which the keys first occur, each
the right one, and the rest counted. -/
structure Deduplicated (strategy : Strategy) (candidates : List (Value × Selected))
    (state : Dedupe) : Prop where
  keys : state.selected.keys = firstKeys candidates
  right : ∀ k s, (k, s) ∈ state.selected.entries → Represents strategy (members candidates k) s
  counted : candidates.length = state.items.length + state.duplicateCount

section Loop

variable {env : RunEnv} {stepId : String} {spec : DedupeItemsSpec} {outputs : Outputs}
  {state : Dedupe} {candidates : List (Value × Selected)}

/-- A turn, once the item's key and rank are there. -/
def addCandidate (stepId : String) (strategy : Strategy) (state : Dedupe)
    (e : Value × Selected) : Except CoreError Dedupe :=
  match state.selected.get? e.1 with
  | none => .ok { state with selected := state.selected.set e.1 e.2 }
  | some existing => do
      let stays ← kept stepId strategy existing e.2
      pure { selected := state.selected.set e.1 stays
             duplicateCount := state.duplicateCount + 1
             duplicateExamples :=
               if state.duplicateExamples.length < 10 then
                 state.duplicateExamples ++ [duplicateExample existing e.2]
               else state.duplicateExamples }

theorem addItem_eq :
    addItem env stepId spec outputs = fun state entry =>
      candidate env stepId spec outputs entry >>= addCandidate stepId spec.strategy state := rfl

variable {strategy : Strategy} {m s : Selected} {ms : List Selected}

theorem addCandidate_ok {e : Value × Selected} {next : Dedupe}
    (h : addCandidate stepId strategy state e = .ok next) :
    turn id (kept stepId strategy) state.selected e = .ok next.selected ∧
      next.items.length + next.duplicateCount = state.items.length + state.duplicateCount + 1 := by
  have hlength : ∀ st : Dedupe, st.items.length = st.selected.keys.length :=
    fun st => by rw [Dedupe.items, Dict.keys, List.length_map, List.length_map]
  rw [turn_eq_ok, hlength, hlength]
  unfold addCandidate at h
  cases hget : state.selected.get? e.1 with
  | none =>
    rw [hget] at h
    cases h
    refine ⟨⟨e.2, rfl, rfl⟩, ?_⟩
    rw [Dict.keys_set, if_neg (Dict.get?_eq_none.mp hget), List.length_append,
      List.length_singleton]
    exact Nat.add_right_comm _ _ _
  | some existing =>
    rw [hget] at h
    obtain ⟨stays, hstays, hnext⟩ := bind_eq_ok.mp h
    cases hnext
    refine ⟨⟨stays, ?_, rfl⟩, ?_⟩
    · change (kept stepId strategy existing e.2).map some = _
      rw [hstays]
      rfl
    · rw [Dict.keys_set, if_pos (Dict.mem_keys.mpr ⟨existing, hget⟩)]
      exact (Nat.add_assoc _ _ _).symm

theorem addCandidates_ok (h : candidates.foldlM (addCandidate stepId strategy) {} = .ok state) :
    gather id (kept stepId strategy) candidates = .ok state.selected ∧
      candidates.length = state.items.length + state.duplicateCount := by
  induction candidates using List.reverseRecOn generalizing state with
  | nil =>
    cases h
    exact ⟨rfl, rfl⟩
  | append_singleton es e ih =>
    rw [List.foldlM_append, bind_eq_ok] at h
    obtain ⟨before, hbefore, hlast⟩ := h
    obtain ⟨next, hnext, hend⟩ := foldlM_cons_eq_ok.mp hlast
    cases hend
    obtain ⟨hgather, hcount⟩ := ih hbefore
    obtain ⟨hturn, hone⟩ := addCandidate_ok hnext
    constructor
    · rw [gather_concat, bind_eq_ok]
      exact ⟨_, hgather, hturn⟩
    · rw [List.length_append, List.length_singleton, hcount]
      omega

theorem kept_ranked (stepId : String) (h : strategy = .max ∨ strategy = .min) :
    kept stepId strategy = prefer strategy.comparison rank? (.queryExecution
      s!"Workflow step '{stepId}' dedupe_items rank values are incomparable") := by
  funext existing new
  have hranked : kept stepId strategy existing new =
      (shouldReplaceRankedItem stepId strategy existing new).map fun replaces =>
        if replaces then new else existing := by
    rcases h with rfl | rfl <;> rfl
  have hlt : outranks strategy new.rank existing.rank =
      strategy.comparison.lt (ordered new.rank) (ordered existing.rank) := by
    rcases h with rfl | rfl <;> rfl
  rw [hranked]
  unfold shouldReplaceRankedItem prefer rank?
  rw [hlt]
  cases new.rankPresent with
  | false => rfl
  | true =>
    cases existing.rankPresent with
    | false => rfl
    | true =>
      cases hcompare : strategy.comparison.lt (ordered new.rank) (ordered existing.rank) with
      | none => simp [hcompare]
      | some ahead => simp [hcompare]

theorem foldlM_first (h : ms.foldlM (kept stepId .first) m = .ok s) : s = m := by
  induction ms with
  | nil =>
    cases h
    rfl
  | cons x xs ih => exact ih h

theorem foldlM_last (h : ms.foldlM (kept stepId .last) m = .ok s) :
    (m :: ms).getLast? = some s := by
  induction ms generalizing m with
  | nil =>
    cases h
    rfl
  | cons x xs ih =>
    rw [List.getLast?_cons_cons]
    exact ih h

/-- Where the extremum exists, the items of one key leave the right one. -/
theorem represents_of_fold (h : ms.foldlM (kept stepId strategy) m = .ok s)
    (hextremum : HasExtremum strategy (m :: ms)) : Represents strategy (m :: ms) s := by
  have hranked : strategy = .max ∨ strategy = .min → ((∀ t ∈ m :: ms, rank? t = none) ∨
      ∃ s ∈ m :: ms, Attains strategy.comparison rank? (m :: ms) s) →
      if ∀ t ∈ m :: ms, rank? t = none then (m :: ms).head? = some s
      else Earliest strategy.comparison rank? (m :: ms) s := by
    intro hstrategy hextremum
    rw [kept_ranked stepId hstrategy] at h
    split_ifs with habsent
    · obtain rfl := select_absent (fun x hx => habsent x (List.mem_cons_of_mem _ hx)) h
      rfl
    · rcases hextremum with hnone | hsome
      · exact absurd hnone habsent
      · exact select_earliest h hsome
  cases strategy with
  | first =>
    obtain rfl := foldlM_first h
    rfl
  | last => exact foldlM_last h
  | max => exact hranked (.inl rfl) hextremum
  | min => exact hranked (.inr rfl) hextremum

theorem hasExtremum_of_represents {among : List Selected} (h : Represents strategy among s) :
    HasExtremum strategy among := by
  have hranked : (if ∀ t ∈ among, rank? t = none then among.head? = some s
      else Earliest strategy.comparison rank? among s) →
      (∀ t ∈ among, rank? t = none) ∨ ∃ s ∈ among, Attains strategy.comparison rank? among s := by
    intro h
    split_ifs at h with habsent
    · exact .inl habsent
    · obtain ⟨before, after, hsplit, hattains, -⟩ := h
      refine .inr ⟨s, ?_, hattains⟩
      rw [hsplit]
      exact List.mem_append_right _ List.mem_cons_self
  cases strategy with
  | first => trivial
  | last => trivial
  | max => exact hranked h
  | min => exact hranked h

theorem hasExtremum_of_nanFree (h : ms.foldlM (kept stepId strategy) m = .ok s)
    (hfree : ∀ t ∈ m :: ms, nanFree (ordered t.rank) = true) : HasExtremum strategy (m :: ms) := by
  have hkey : ∀ t ∈ m :: ms, ∀ k, rank? t = some k → nanFree k = true := by
    intro t ht k hk
    unfold rank? at hk
    split_ifs at hk
    obtain rfl := Option.some.inj hk
    exact hfree t ht
  have hranked : strategy = .max ∨ strategy = .min → ((∀ t ∈ m :: ms, rank? t = none) ∨
      ∃ s ∈ m :: ms, Attains strategy.comparison rank? (m :: ms) s) := by
    intro hstrategy
    rw [kept_ranked stepId hstrategy] at h
    by_cases habsent : ∀ t ∈ m :: ms, rank? t = none
    · exact .inl habsent
    · push Not at habsent
      obtain ⟨t, ht, hsome⟩ := habsent
      refine .inr ⟨s, select_mem h, select_attains ?_ h ⟨t, ht, Option.isSome_iff_ne_none.mpr hsome⟩⟩
      intro x hx y hy k l hk hl hlt hlt'
      rcases hstrategy with rfl | rfl
      · exact valueEq_of_not_lt (hkey x hx k hk) (hkey y hy l hl) hlt' hlt
      · exact valueEq_of_not_lt (hkey x hx k hk) (hkey y hy l hl) hlt hlt'
  cases strategy with
  | first => trivial
  | last => trivial
  | max => exact hranked (.inl rfl)
  | min => exact hranked (.inr rfl)

end Loop

section Step

variable {env : RunEnv} {stepId : String} {spec : DedupeItemsSpec} {outputs : Outputs}
  {output : Object} {state : Dedupe} {candidates : List (Value × Selected)}
  (hloop : candidates.foldlM (addCandidate stepId spec.strategy) {} = .ok state)

section
include hloop

/-- What stands under a key is what the items of the key leave. -/
theorem entry_fold {k : Value} {s : Selected} (h : (k, s) ∈ state.selected.entries) :
    ∃ m ms, members candidates k = m :: ms ∧ ms.foldlM (kept stepId spec.strategy) m = .ok s := by
  obtain ⟨-, hstates⟩ := gather_spec _ _ (addCandidates_ok hloop).1
  have hstate := hstates k
  rw [Dict.get?_of_mem h] at hstate
  cases hmembers : members candidates k with
  | nil =>
    rw [hmembers] at hstate
    cases hstate
  | cons m ms =>
    rw [hmembers, settle_cons_eq_ok] at hstate
    obtain ⟨t, ht, hst⟩ := hstate
    obtain rfl := Option.some.inj hst
    exact ⟨m, ms, rfl, ht⟩

theorem deduplicated_iff :
    Deduplicated spec.strategy candidates state ↔
      ∀ k ∈ firstKeys candidates, HasExtremum spec.strategy (members candidates k) := by
  obtain ⟨hgather, hcounted⟩ := addCandidates_ok hloop
  obtain ⟨hkeys, -⟩ := gather_spec _ _ hgather
  constructor
  case mp =>
    intro h k hk
    rw [← hkeys, Dict.mem_keys] at hk
    obtain ⟨s, hs⟩ := hk
    exact hasExtremum_of_represents (h.right k s (Dict.mem_of_get? hs))
  case mpr =>
    intro h
    refine ⟨hkeys, fun k s hks => ?_, hcounted⟩
    obtain ⟨m, ms, hmembers, hfold⟩ := entry_fold hloop hks
    have hk : k ∈ firstKeys candidates := by
      rw [← hkeys, Dict.mem_keys]
      exact ⟨s, Dict.get?_of_mem hks⟩
    have hextremum := h k hk
    rw [hmembers] at hextremum ⊢
    exact represents_of_fold hfold hextremum

theorem hasExtremum_of_candidates (hfree : ∀ e ∈ candidates, nanFree (ordered e.2.rank) = true) :
    ∀ k ∈ firstKeys candidates, HasExtremum spec.strategy (members candidates k) := by
  obtain ⟨hkeys, -⟩ := gather_spec _ _ (addCandidates_ok hloop).1
  intro k hk
  rw [← hkeys, Dict.mem_keys] at hk
  obtain ⟨s, hs⟩ := hk
  obtain ⟨m, ms, hmembers, hfold⟩ := entry_fold hloop (Dict.mem_of_get? hs)
  rw [hmembers]
  refine hasExtremum_of_nanFree hfold fun t ht => ?_
  rw [← hmembers] at ht
  obtain ⟨e, he, rfl⟩ := List.mem_map.mp ht
  exact hfree e (List.mem_of_mem_filter he)

end

/-- The step keeps the right item for every key if and only if among the present ranks
of each key one is at least as good as every other; so it is where no rank has a `nan`. -/
theorem dedupe_keeps_representatives (h : dedupeItems env stepId spec outputs = .ok output) :
    ∃ items candidates state,
      resolveStepItems { input := env.input, outputs := outputs } spec.items = .ok items ∧
      items.zipIdx.mapM (candidate env stepId spec outputs) = .ok candidates ∧
      items.zipIdx.foldlM (addItem env stepId spec outputs) {} = .ok state ∧
      output = dedupeOutput spec outputs items.length state ∧
      (Deduplicated spec.strategy candidates state ↔
        ∀ k ∈ firstKeys candidates, HasExtremum spec.strategy (members candidates k)) ∧
      ((∀ e ∈ candidates, nanFree (ordered e.2.rank) = true) →
        Deduplicated spec.strategy candidates state) := by
  obtain ⟨items, hitems, h⟩ := bind_eq_ok.mp h
  obtain ⟨state, hstate, h⟩ := bind_eq_ok.mp h
  obtain ⟨candidates, hcandidates, hloop⟩ : ∃ candidates, _ ∧ _ := by
    rw [addItem_eq, foldlM_bind_eq_ok] at hstate
    exact hstate
  exact ⟨items, candidates, state, hitems, hcandidates, hstate, (pure_eq_ok.mp h).symm,
    deduplicated_iff hloop,
    fun hfree => (deduplicated_iff hloop).mpr (hasExtremum_of_candidates hloop hfree)⟩

end Step

/-- Scores of one thing. -/
def scored (v : Value) : Value := .object [("id", .str "a"), ("score", v)]

def scoreEnv (scores : List Value) : RunEnv where
  input := [("items", .array (scores.map scored))]
  runQuery := fun _ _ _ _ => .error (.queryExecution "no query")
  callProvider := fun _ _ _ => .ok []
  payload := fun _ _ _ => .error (.queryExecution "no artifact")
  cast := fun _ _ v _ => .ok v
  compare := fun _ _ _ => .ok true

def bestScore : DedupeItemsSpec where
  items := .str "$input.items"
  keys := [.str "$item.id"]
  strategy := .max
  rank := .str "$item.score"

def scoreOf (index : Nat) (v : Value) : Selected :=
  { item := scored v, index := index, key := [.str "a"], rank := v, rankPresent := v ≠ .null }

/-- The state after the scores, of which the given one stays. -/
def scoreState (stays : Selected) (duplicates : List Value) : Dedupe :=
  { selected := Dict.empty.set (.array [.str "a"]) stays
    duplicateCount := duplicates.length, duplicateExamples := duplicates }

theorem dedupe_two_scores :
    ∃ items candidates state,
      resolveStepItems { input := (scoreEnv [.int 2, .int 5]).input, outputs := ∅ }
        bestScore.items = .ok items ∧
      items.zipIdx.mapM (candidate (scoreEnv [.int 2, .int 5]) "best" bestScore ∅) =
        .ok candidates ∧
      items.zipIdx.foldlM (addItem (scoreEnv [.int 2, .int 5]) "best" bestScore ∅) {} =
        .ok state ∧
      dedupeOutput bestScore ∅ 2 (scoreState (scoreOf 1 (.int 5))
        [duplicateExample (scoreOf 0 (.int 2)) (scoreOf 1 (.int 5))]) =
        dedupeOutput bestScore ∅ items.length state ∧
      (Deduplicated .max candidates state ↔
        ∀ k ∈ firstKeys candidates, HasExtremum .max (members candidates k)) ∧
      ((∀ e ∈ candidates, nanFree (ordered e.2.rank) = true) →
        Deduplicated .max candidates state) := by
  have hrun : dedupeItems (scoreEnv [.int 2, .int 5]) "best" bestScore ∅ =
      .ok (dedupeOutput bestScore ∅ 2 (scoreState (scoreOf 1 (.int 5))
        [duplicateExample (scoreOf 0 (.int 2)) (scoreOf 1 (.int 5))])) := by rfl
  exact dedupe_keeps_representatives hrun

def nanCandidates : List (Value × Selected) :=
  [(.array [.str "a"], scoreOf 0 (.float .nan)), (.array [.str "a"], scoreOf 1 (.int 5))]

/-- The best score is 5, and the step keeps the `nan` before it. -/
theorem nan_is_kept :
    dedupeItems (scoreEnv [.float .nan, .int 5]) "best" bestScore ∅ =
      .ok (dedupeOutput bestScore ∅ 2 (scoreState (scoreOf 0 (.float .nan))
        [duplicateExample (scoreOf 0 (.float .nan)) (scoreOf 1 (.int 5))])) ∧
    [scored (.float .nan), scored (.int 5)].zipIdx.mapM
      (candidate (scoreEnv [.float .nan, .int 5]) "best" bestScore ∅) = .ok nanCandidates ∧
    ¬Deduplicated .max nanCandidates (scoreState (scoreOf 0 (.float .nan))
      [duplicateExample (scoreOf 0 (.float .nan)) (scoreOf 1 (.int 5))]) := by
  refine ⟨by rfl, by rfl, ?_⟩
  intro h
  have hright := hasExtremum_of_represents (h.right _ _ List.mem_cons_self)
  have hmembers : members nanCandidates (.array [.str "a"]) =
      [scoreOf 0 (.float .nan), scoreOf 1 (.int 5)] := by rfl
  have hnan : rank? (scoreOf 0 (.float .nan)) = some (.json (.float .nan) rfl) := by rfl
  have hfive : rank? (scoreOf 1 (.int 5)) = some (.json (.int 5) rfl) := by rfl
  rw [hmembers] at hright
  rcases hright with habsent | ⟨s, hs, k, hk, hall⟩
  · have hnone := habsent _ List.mem_cons_self
    rw [hnan] at hnone
    cases hnone
  · rcases List.mem_cons.mp hs with rfl | hs
    · cases hnan.symm.trans hk
      rcases hall (scoreOf 1 (.int 5)) (by simp) _ hfive with heq | hlt | heq
      · have hindex := congrArg Selected.index heq
        cases hindex
      · exact absurd hlt (by decide)
      · exact absurd heq (by decide)
    · obtain rfl := List.mem_singleton.mp hs
      cases hfive.symm.trans hk
      rcases hall (scoreOf 0 (.float .nan)) (by simp) _ hnan with heq | hlt | heq
      · have hindex := congrArg Selected.index heq
        cases hindex
      · exact absurd hlt (by decide)
      · exact absurd heq (by decide)

end Cruxible.Representatives
