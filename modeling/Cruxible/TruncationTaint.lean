import Cruxible.WorkflowRuns

/-!
# Assertions that nothing was truncated

A passing `assert_not_truncated` looks at the read metadata of one output. That
metadata speaks for the queries that the output rests on as long as every step
takes over the metadata of every step it refers to. Steps take over less: a shape
only that of its items, a query and a candidate set that of nothing.
-/
namespace Cruxible.TruncationTaint
open JsonValue PythonDict PropertyValidation Fallible ReadMetadata WorkflowRuns

variable {entries : Object} {key : String} {q : QueryOutcome} {clock : Nat} {done : Performed}
  {s : PlanStep}

theorem get?_directReadMetadata (h : key ∈ readMetadataKeys) :
    Bindings.get? (directReadMetadata entries) key = Bindings.get? entries key := by
  unfold directReadMetadata
  generalize readMetadataKeys = keys at h
  induction keys with
  | nil => cases h
  | cons k keys ih =>
    by_cases heq : k = key
    · subst heq
      cases hk : Bindings.get? entries k with
      | some v => simp [hk, Bindings.get?]
      | none =>
        rw [List.filterMap_cons, hk, Option.map_none]
        rw [Bindings.get?_eq_none]
        intro hmem
        simp only [List.mem_map, List.mem_filterMap, Option.map_eq_some_iff] at hmem
        obtain ⟨b, ⟨k', -, v, hv, rfl⟩, hk'⟩ := hmem
        simp only at hk'
        rw [hk', hk] at hv
        cases hv
    · have hrest : key ∈ keys := by simpa [Ne.symm heq] using h
      rw [List.filterMap_cons]
      cases hk : Bindings.get? entries k with
      | none => simpa [hk] using ih hrest
      | some v => simpa [hk, Bindings.get?, heq] using ih hrest

theorem directReadMetadata_eq_nil (h : ∀ k ∈ readMetadataKeys, k ∉ entries.map Prod.fst) :
    directReadMetadata entries = [] := by
  rw [directReadMetadata, List.filterMap_eq_nil_iff]
  intro k hk
  rw [Bindings.get?_eq_none.mpr (h k hk)]
  rfl

variable {metadata output o : Object} {name stepId : String} {outputs : Outputs}
  {template v : Value} {env : RunEnv} {run : Run}

theorem get?_attach (h : key ≠ sourceMetadataKey) :
    Bindings.get? (attachSourceMetadata output metadata) key = Bindings.get? output key := by
  unfold attachSourceMetadata
  split_ifs
  · rfl
  · rw [Bindings.get?_set, if_neg (Ne.symm h)]

theorem directReadMetadata_attach (output metadata : Object) :
    directReadMetadata (attachSourceMetadata output metadata) = directReadMetadata output := by
  unfold directReadMetadata
  apply List.filterMap_congr
  intro k hk
  have hne : k ≠ sourceMetadataKey := by
    rintro rfl
    exact absurd hk (by decide)
  rw [get?_attach hne]

theorem extract_attach_of_ne (hdirect : directReadMetadata output = []) (h : metadata ≠ []) :
    extractReadMetadata (.object (attachSourceMetadata output metadata)) = metadata := by
  rw [extractReadMetadata, directReadMetadata_attach, if_neg (by simpa using hdirect),
    attachSourceMetadata, if_neg h, Bindings.get?_set, if_pos rfl]

theorem extract_attach
    (hkeys : ∀ k ∈ sourceMetadataKey :: readMetadataKeys, k ∉ output.map Prod.fst) :
    extractReadMetadata (.object (attachSourceMetadata output metadata)) = metadata := by
  have hdirect : directReadMetadata output = [] :=
    directReadMetadata_eq_nil fun k hk => hkeys k (List.mem_cons_of_mem _ hk)
  by_cases h : metadata = []
  · have hnone := Bindings.get?_eq_none.mpr (hkeys _ List.mem_cons_self)
    rw [attachSourceMetadata, if_pos h, extractReadMetadata, if_neg (by simpa using hdirect), hnone,
      h]
  · exact extract_attach_of_ne hdirect h

theorem queryOutput_truncated (q : QueryOutcome) :
    Bindings.get? (queryOutput q) "truncated" = some (.bool q.truncated) := by
  simp [queryOutput, Bindings.get?]

theorem queryOutput_limitTruncated (q : QueryOutcome) :
    Bindings.get? (queryOutput q) "limit_truncated" = some (.bool q.limitTruncated) := by
  simp [queryOutput, Bindings.get?]

theorem queryOutput_pathTruncated (q : QueryOutcome) :
    Bindings.get? (queryOutput q) "path_truncated" = some (.bool q.pathTruncated) := by
  simp [queryOutput, Bindings.get?]

theorem truncationFlags_read : ∀ flag ∈ truncationFlags, flag ∈ readMetadataKeys := by decide

theorem unflagged_queryOutput (h : unflagged (extractReadMetadata (.object (queryOutput q))) = true) :
    q.reportsTruncation = false := by
  have hbears : directReadMetadata (queryOutput q) ≠ [] := by
    intro hnil
    have hget : Bindings.get? (directReadMetadata (queryOutput q)) "truncated" =
        Bindings.get? (queryOutput q) "truncated" :=
      get?_directReadMetadata (truncationFlags_read _ (by simp [truncationFlags]))
    rw [hnil, queryOutput_truncated] at hget
    cases hget
  rw [extractReadMetadata, if_pos hbears, unflagged_iff] at h
  have hflag : ∀ flag ∈ truncationFlags, flagged (queryOutput q) flag = false := by
    intro flag hmem
    rw [← h flag hmem, flagged, flagged, get?_directReadMetadata (truncationFlags_read flag hmem)]
  have htruncated := hflag "truncated" (by simp [truncationFlags])
  have hlimit := hflag "limit_truncated" (by simp [truncationFlags])
  have hpath := hflag "path_truncated" (by simp [truncationFlags])
  rw [flagged, queryOutput_truncated] at htruncated
  rw [flagged, queryOutput_limitTruncated] at hlimit
  rw [flagged, queryOutput_pathTruncated] at hpath
  simp only [Option.elim_some, truthy] at htruncated hlimit hpath
  simp [QueryOutcome.reportsTruncation, htruncated, hlimit, hpath]

/-- The named output bears read metadata, and no flag in it. -/
def BearsClear (outputs : Outputs) (name : String) : Prop :=
  ∃ v, outputs.get? name = some v ∧ extractReadMetadata v ≠ [] ∧
    unflagged (extractReadMetadata v) = true

theorem namesRead_of_readSource (h : name ∈ readSource template outputs) :
    ∃ v, NamesRead template outputs name v := by
  unfold readSource at h
  cases hs : sourceStepOutput template outputs with
  | none => simp [hs] at h
  | some source =>
    obtain ⟨step, output⟩ := source
    simp only [hs] at h
    split_ifs at h with hnil
    · cases h
    · obtain rfl : name = step := by simpa using h
      exact ⟨output, hs, hnil⟩

theorem namesRead_get? (h : NamesRead template outputs name v) : outputs.get? name = some v := by
  have hsource := h.source
  cases template with
  | str s =>
    simp only [sourceStepOutput, Option.bind_eq_some_iff, Option.map_eq_some_iff,
      Prod.mk.injEq] at hsource
    obtain ⟨ref, -, w, hw, rfl, rfl⟩ := hsource
    exact hw
  | null => cases hsource
  | bool b => cases hsource
  | int n => cases hsource
  | float f => cases hsource
  | array items => cases hsource
  | object entries => cases hsource

theorem bearsClear_of_namesRead (h : NamesRead template outputs name v)
    (hclear : ReadMetadata.unflagged (sourceReadMetadata template outputs) = true) :
    BearsClear outputs name :=
  ⟨v, namesRead_get? h, h.bears, h.unflagged ▸ hclear⟩

theorem attached_clear
    (hkeys : ∀ k ∈ sourceMetadataKey :: readMetadataKeys, k ∉ output.map Prod.fst)
    (hclear : unflagged (extractReadMetadata (.object
      (attachSourceMetadata output (sourceReadMetadata template outputs)))) = true) :
    ∀ name ∈ readSource template outputs, BearsClear outputs name := by
  rw [extract_attach hkeys] at hclear
  intro name hname
  obtain ⟨v, hv⟩ := namesRead_of_readSource hname
  exact bearsClear_of_namesRead hv hclear

theorem shapeItems_clear {spec : ShapeItemsSpec} (h : shapeItems env stepId spec outputs = .ok o)
    (hclear : unflagged (extractReadMetadata (.object o)) = true) :
    ∀ name ∈ readSource spec.items outputs, BearsClear outputs name := by
  rw [shapeItems, bind_eq_ok] at h
  obtain ⟨items, -, h⟩ := h
  obtain ⟨rows, -, h⟩ := bind_eq_ok.mp h
  obtain rfl := pure_eq_ok.mp h
  exact attached_clear (by simp only [List.map_cons, List.map_nil]; decide) hclear

theorem filterItems_clear {spec : FilterItemsSpec} (h : filterItems env stepId spec outputs = .ok o)
    (hclear : unflagged (extractReadMetadata (.object o)) = true) :
    ∀ name ∈ readSource spec.items outputs, BearsClear outputs name := by
  rw [filterItems, bind_eq_ok] at h
  obtain ⟨items, -, h⟩ := h
  obtain ⟨resolved, -, h⟩ := bind_eq_ok.mp h
  obtain ⟨kept, -, h⟩ := bind_eq_ok.mp h
  obtain rfl := pure_eq_ok.mp h
  exact attached_clear (by simp only [List.map_cons, List.map_nil]; decide) hclear

theorem bearsClear_of_merge {items : List Object} {merged : Object}
    (h : NamesRead template outputs name v) (hmem : sourceReadMetadata template outputs ∈ items)
    (hmerge : mergeReadMetadata items = .ok merged) (hclear : ReadMetadata.unflagged merged = true)
    : BearsClear outputs name :=
  bearsClear_of_namesRead h (unflagged_merge hmerge hclear _ hmem h.sourceReadMetadata_ne)

theorem joinSides_keys (left right : Object) :
    ∀ k ∈ (joinSides left right).map Prod.fst,
      k ∈ ["left_source_metadata", "right_source_metadata"] := by
  unfold joinSides
  split_ifs <;> simp

theorem joinItems_clear {spec : JoinItemsSpec} (h : joinItems env stepId spec outputs = .ok o)
    (hclear : unflagged (extractReadMetadata (.object o)) = true) :
    ∀ name ∈ readSource spec.leftItems outputs ++ readSource spec.rightItems outputs,
      BearsClear outputs name := by
  rw [joinItems, bind_eq_ok] at h
  obtain ⟨leftItems, -, h⟩ := h
  obtain ⟨rightItems, -, h⟩ := bind_eq_ok.mp h
  obtain ⟨right, -, h⟩ := bind_eq_ok.mp h
  obtain ⟨rows, -, h⟩ := bind_eq_ok.mp h
  obtain ⟨merged, hmerge, h⟩ := bind_eq_ok.mp h
  obtain rfl := pure_eq_ok.mp h
  have hkeys : ∀ k ∈ sourceMetadataKey :: readMetadataKeys,
      k ∉ ["items", "left_count", "right_count", "skipped_right_count", "matched_left_count",
        "output_count"] ∧ k ∉ ["left_source_metadata", "right_source_metadata"] := by decide
  have habsent : ∀ k ∈ sourceMetadataKey :: readMetadataKeys,
      ∀ fixed : Object, fixed.map Prod.fst = ["items", "left_count", "right_count",
        "skipped_right_count", "matched_left_count", "output_count"] →
      k ∉ (fixed ++ joinSides (sourceReadMetadata spec.leftItems outputs)
        (sourceReadMetadata spec.rightItems outputs)).map Prod.fst := by
    intro k hk fixed hfixed hmem
    rw [List.map_append, List.mem_append, hfixed] at hmem
    obtain hmem | hmem := hmem
    · exact (hkeys k hk).1 hmem
    · exact (hkeys k hk).2 (joinSides_keys _ _ k hmem)
  rw [extract_attach fun k hk => habsent k hk _ rfl] at hclear
  intro name hname
  rw [List.mem_append] at hname
  obtain hname | hname := hname
  · obtain ⟨v, hv⟩ := namesRead_of_readSource hname
    exact bearsClear_of_merge hv (by simp) hmerge hclear
  · obtain ⟨v, hv⟩ := namesRead_of_readSource hname
    exact bearsClear_of_merge hv (by simp) hmerge hclear

theorem artifactOutput_clear {spec : ArtifactSpec} {payload : String → Value}
    (hclear : unflagged (extractReadMetadata (.object (artifactOutput spec outputs payload))) = true)
    (hattaches : spec.kind.attaches = true) (hitems : spec.items = some template) :
    ∀ name ∈ readSource template outputs, BearsClear outputs name := by
  have hkeys : ∀ k ∈ sourceMetadataKey :: readMetadataKeys, k ∉ spec.kind.keys := by
    cases hkind : spec.kind with
    | aggregateItems => decide
    | dedupeItems => decide
    | _ => simp [hkind, ArtifactKind.attaches] at hattaches
  have habsent : ∀ k ∈ sourceMetadataKey :: readMetadataKeys,
      k ∉ (spec.kind.keys.map fun k => (k, payload k)).map Prod.fst := by
    intro k hk
    simpa using hkeys k hk
  rw [artifactOutput, hattaches, if_pos rfl, hitems, Option.elim_some] at hclear
  exact attached_clear habsent hclear

theorem providerOutput_clear {result : Object} {input : Value}
    (hmetadata : sourceReadMetadataFromTemplate input outputs = .ok metadata)
    (hclear : unflagged (extractReadMetadata (.object (providerOutput result metadata))) = true)
    (name : String) (hname : name ∈ StepBody.readSources outputs (providerOutput result metadata)
      (.provider "" input)) : BearsClear outputs name := by
  have hcollection : ∀ k ∈ ["items", "results"],
      Bindings.get? (providerOutput result metadata) k = Bindings.get? result k := by
    intro k hk
    unfold providerOutput
    split_ifs
    · apply get?_attach
      rintro rfl
      exact absurd hk (by decide)
    · rfl
  have hdirect : directReadMetadata (providerOutput result metadata) = directReadMetadata result := by
    unfold providerOutput
    split_ifs
    · exact directReadMetadata_attach result metadata
    · rfl
  simp only [StepBody.readSources, hdirect, hcollection "items" (by simp),
    hcollection "results" (by simp)] at hname
  split_ifs at hname with hown hcoll
  · cases hname
  · rw [List.mem_flatMap] at hname
    obtain ⟨ref, href, hname⟩ := hname
    obtain ⟨v, hv⟩ := namesRead_of_readSource hname
    have hmem : sourceReadMetadata (.str ref) outputs ∈
        (iterStepRefs input).map fun ref => sourceReadMetadata (.str ref) outputs :=
      List.mem_map.mpr ⟨ref, href, rfl⟩
    have hne : metadata ≠ [] := merge_ne_nil hmetadata hmem hv.sourceReadMetadata_ne
    rw [providerOutput, if_pos hcoll, extract_attach_of_ne (by simpa using hown) hne] at hclear
    exact bearsClear_of_merge hv hmem hmetadata hclear
  · cases hname

theorem perform_clear (h : perform env clock outputs s = .ok done) (ho : done.output = some o)
    (hclear : unflagged (extractReadMetadata (.object o)) = true) :
    (∀ q ∈ done.query, q.reportsTruncation = false) ∧
      ∀ name ∈ s.body.readSources outputs o, BearsClear outputs name := by
  have hwritesNothing : ∀ {x : Except CoreError Unit} {done : Performed},
      (x >>= fun _ => pure {}) = .ok done → done.output = none := by
    intro x done hx
    obtain ⟨u, -, hx⟩ := bind_eq_ok.mp hx
    obtain rfl := pure_eq_ok.mp hx
    rfl
  unfold perform at h
  cases hbody : s.body with
  | query params relationshipState =>
    simp only [hbody] at h
    obtain ⟨resolved, -, h⟩ := bind_eq_ok.mp h
    obtain ⟨state, -, h⟩ := bind_eq_ok.mp h
    obtain ⟨outcome, -, h⟩ := bind_eq_ok.mp h
    obtain rfl := pure_eq_ok.mp h
    obtain rfl : queryOutput outcome = o := by simpa using ho
    constructor
    · intro q hq
      obtain rfl : outcome = q := by simpa using hq
      exact unflagged_queryOutput hclear
    · simp [StepBody.readSources]
  | provider name input =>
    simp only [hbody] at h
    obtain ⟨resolved, -, h⟩ := bind_eq_ok.mp h
    obtain ⟨result, -, h⟩ := bind_eq_ok.mp h
    obtain ⟨metadata, hmetadata, h⟩ := bind_eq_ok.mp h
    obtain rfl := pure_eq_ok.mp h
    obtain rfl : providerOutput result metadata = o := by simpa using ho
    exact ⟨by simp, fun n hn => providerOutput_clear hmetadata hclear n hn⟩
  | assertCondition condition message | assertNotTruncated step
  | assertCount step actual op value message | assertExists ref message =>
    simp only [hbody] at h
    exact absurd ho (by simp [hwritesNothing h])
  | shapeItems spec =>
    simp only [hbody] at h
    obtain ⟨output, houtput, h⟩ := bind_eq_ok.mp h
    obtain rfl := pure_eq_ok.mp h
    obtain rfl : output = o := by simpa using ho
    exact ⟨by simp, shapeItems_clear houtput hclear⟩
  | joinItems spec =>
    simp only [hbody] at h
    obtain ⟨output, houtput, h⟩ := bind_eq_ok.mp h
    obtain rfl := pure_eq_ok.mp h
    obtain rfl : output = o := by simpa using ho
    exact ⟨by simp, joinItems_clear houtput hclear⟩
  | filterItems spec =>
    simp only [hbody] at h
    obtain ⟨output, houtput, h⟩ := bind_eq_ok.mp h
    obtain rfl := pure_eq_ok.mp h
    obtain rfl : output = o := by simpa using ho
    exact ⟨by simp, filterItems_clear houtput hclear⟩
  | artifact spec =>
    simp only [hbody] at h
    obtain ⟨payload, -, h⟩ := bind_eq_ok.mp h
    obtain rfl := pure_eq_ok.mp h
    obtain rfl : artifactOutput spec outputs payload = o := by simpa using ho
    refine ⟨by simp, ?_⟩
    intro name hname
    simp only [StepBody.readSources] at hname
    split_ifs at hname with hattaches
    · cases hitems : spec.items with
      | none => simp [hitems] at hname
      | some template =>
        rw [hitems, Option.elim_some] at hname
        exact artifactOutput_clear hclear hattaches hitems name hname
    · cases hname

theorem perform_assertNotTruncated {step : String} (h : perform env clock outputs s = .ok done)
    (hbody : s.body.asserted = some step) : BearsClear outputs step := by
  unfold perform at h
  cases hs : s.body with
  | assertNotTruncated name =>
    obtain rfl : name = step := by simpa [hs, StepBody.asserted] using hbody
    simp only [hs] at h
    obtain ⟨u, h, -⟩ := bind_eq_ok.mp h
    rw [executeAssert, assertNotTruncated, bind_eq_ok] at h
    obtain ⟨output, houtput, h⟩ := h
    obtain ⟨u', hmetadata, h⟩ := bind_eq_ok.mp h
    obtain ⟨reasons, -, h⟩ := bind_eq_ok.mp h
    refine ⟨output, ?_, by simpa using hmetadata, by simpa using h⟩
    unfold getGuardSourceOutput at houtput
    cases hget : outputs.get? name with
    | none => simp [hget] at houtput
    | some v =>
      obtain rfl : v = output := by simpa [hget] using houtput
      rfl
  | _ => simp [hs, StepBody.asserted] at hbody

/-- Every query that a step which bears read metadata refers to, and whose metadata it
does not take over, was complete. -/
def Event.Follows (e : Event) : Prop :=
  ∀ o ∈ e.output, extractReadMetadata (.object o) ≠ [] →
    ∀ name ∈ e.references, name ∈ e.readSources ∨
      ∀ q ∈ restsOn e.rests [name], q.reportsTruncation = false

instance (e : Event) : Decidable (Event.Follows e) :=
  inferInstanceAs (Decidable (∀ o ∈ e.output, extractReadMetadata (.object o) ≠ [] →
    ∀ name ∈ e.references, name ∈ e.readSources ∨
      ∀ q ∈ restsOn e.rests [name], q.reportsTruncation = false))

/-- A passing assertion speaks for all queries that the asserted output rests on. -/
def Event.AssertionHolds (e : Event) : Prop :=
  ∀ step ∈ e.asserted, ∀ q ∈ restsOn e.rests [step], q.reportsTruncation = false

instance (e : Event) : Decidable (Event.AssertionHolds e) :=
  inferInstanceAs (Decidable (∀ step ∈ e.asserted, ∀ q ∈ restsOn e.rests [step],
    q.reportsTruncation = false))

/-- Unflagged outputs rest on complete queries. -/
def Marked (outputs : Outputs) (rests : Dict String (List QueryOutcome)) : Prop :=
  ∀ name, BearsClear outputs name → ∀ q ∈ restsOn rests [name], q.reportsTruncation = false

/-- What a run guarantees when all of its steps follow their references. -/
def Sound (run : Run) : Prop :=
  (∀ e ∈ run.trace, Event.Follows e) →
    Marked run.outputs run.rests ∧ ∀ e ∈ run.trace, Event.AssertionHolds e

theorem restsOn_set (rests : Dict String (List QueryOutcome)) (key name : String)
    (queries : List QueryOutcome) : restsOn (rests.set key queries) [name] =
      if key = name then queries else restsOn rests [name] := by
  simp only [restsOn, List.flatMap_cons, List.flatMap_nil, List.append_nil, Dict.get?_set]
  split_ifs <;> rfl

variable {rests : Dict String (List QueryOutcome)}

theorem mem_restsOn {names : List String} :
    q ∈ restsOn rests names ↔ ∃ n ∈ names, q ∈ restsOn rests [n] := by
  simp [restsOn]

theorem Marked.set (h : Marked outputs rests) (key : String) {queries : List QueryOutcome}
    (ho : extractReadMetadata (.object o) ≠ [] →
      unflagged (extractReadMetadata (.object o)) = true →
        ∀ q ∈ queries, q.reportsTruncation = false) :
    Marked (outputs.set key (.object o)) (rests.set key queries) := by
  intro name hname q hq
  rw [restsOn_set] at hq
  by_cases hkey : key = name
  · subst hkey
    obtain ⟨v, hv, hbears, hclear⟩ := hname
    rw [Dict.get?_set_self, Option.some.injEq] at hv
    subst hv
    rw [if_pos rfl] at hq
    exact ho hbears hclear q hq
  · rw [if_neg hkey] at hq
    obtain ⟨v, hv, hbears, hclear⟩ := hname
    rw [Dict.get?_set_of_ne _ _ hkey] at hv
    exact h name ⟨v, hv, hbears, hclear⟩ q hq

theorem references_complete {e : Event} (hfollows : Event.Follows e)
    (hmarked : Marked e.outputs e.rests) (ho : e.output = some o)
    (hbears : extractReadMetadata (.object o) ≠ [])
    (hsources : ∀ name ∈ e.readSources, BearsClear e.outputs name) :
    ∀ q ∈ restsOn e.rests e.references, q.reportsTruncation = false := by
  intro q hq
  obtain ⟨name, hname, hq⟩ := mem_restsOn.mp hq
  obtain hsource | hcomplete := hfollows o ho hbears name hname
  · exact hmarked name (hsources name hsource) q hq
  · exact hcomplete q hq

theorem executeStep_sound (env : RunEnv) (h : Sound run) (s : PlanStep) :
    Sound (executeStep env run s) := by
  unfold executeStep
  split_ifs with hfailed
  · exact h
  · cases hdone : perform env run.trace.length run.outputs s with
    | error e => exact h
    | ok done =>
      simp only
      intro hfollows
      have hold : ∀ e ∈ run.trace, Event.Follows e := fun e he => hfollows e (by simp [he])
      obtain ⟨hmarked, hassertions⟩ := h hold
      constructor
      · cases ho : done.output with
        | none => simpa [ho] using hmarked
        | some o =>
          simp only [Option.elim_some, Option.isSome_some, if_true]
          apply hmarked.set
          intro hbears hclear q hq
          obtain ⟨hquery, hsources⟩ := perform_clear hdone ho hclear
          rw [List.mem_append] at hq
          obtain hq | hq := hq
          · exact hquery q (by simpa using hq)
          · have hthis := hfollows _ (List.mem_append_right _ (List.mem_singleton_self _))
            exact references_complete hthis hmarked ho hbears
              (by simpa [ho] using hsources) q hq
      · intro e he
        rw [List.mem_append, List.mem_singleton] at he
        obtain he | rfl := he
        · exact hassertions e he
        · intro step hstep q hq
          exact hmarked step (perform_assertNotTruncated hdone hstep) q hq

theorem foldl_executeStep_sound (env : RunEnv) (steps : List PlanStep) (h : Sound run) :
    Sound (steps.foldl (executeStep env) run) := by
  induction steps generalizing run with
  | nil => exact h
  | cons s steps ih => exact ih (executeStep_sound env h s)

theorem executeStep_trace (env : RunEnv) (run : Run) (s : PlanStep) :
    run.trace <+: (executeStep env run s).trace := by
  unfold executeStep
  split_ifs with hfailed
  · exact List.prefix_rfl
  · cases perform env run.trace.length run.outputs s with
    | error e => exact List.prefix_rfl
    | ok done => simp

theorem foldl_executeStep_trace (env : RunEnv) (steps : List PlanStep) (run : Run) :
    run.trace <+: (steps.foldl (executeStep env) run).trace := by
  induction steps generalizing run with
  | nil => exact List.prefix_rfl
  | cons s steps ih => exact (executeStep_trace env run s).trans (ih _)

theorem Sound.giveUp {attempt : Run} (hrun : Sound run) (hattempt : Sound attempt)
    (htrace : run.trace <+: attempt.trace) (failed : Option CoreError) :
    Sound { run with trace := attempt.trace, failed := failed } := by
  intro hfollows
  have houter := hrun fun e he => hfollows e (htrace.subset he)
  exact ⟨houter.1, (hattempt hfollows).2⟩

theorem executeAttempts_sound (env : RunEnv) (stepId : String) (asName : Option String)
    (untilSpec : ComparisonSpec) (steps : List PlanStep) (left attempts : Nat) (h : Sound run) :
    Sound (executeAttempts env stepId asName untilSpec steps left attempts run) := by
  induction left generalizing attempts run with
  | zero => exact h
  | succ left ih =>
    have hattempt := foldl_executeStep_sound env steps h
    have htrace := foldl_executeStep_trace env steps run
    rw [executeAttempts]
    generalize steps.foldl (executeStep env) run = attempt at hattempt htrace
    simp only
    split
    · exact h.giveUp hattempt htrace _
    · exact h.giveUp hattempt htrace _
    · exact ih _ (h.giveUp hattempt htrace _)
    · intro hfollows
      have hold : ∀ e ∈ attempt.trace, Event.Follows e := fun e he => hfollows e (by simp [he])
      obtain ⟨hmarked, hassertions⟩ := hattempt hold
      have houter := h fun e he => hold e (htrace.subset he)
      have hthis := hfollows _ (List.mem_append_right _ (List.mem_singleton_self _))
      constructor
      · apply houter.1.set
        intro hbears hclear q hq
        exact references_complete hthis hmarked rfl hbears (by simp) q hq
      · intro e he
        rw [List.mem_append, List.mem_singleton] at he
        obtain he | rfl := he
        · exact hassertions e he
        · intro step hstep
          cases hstep

theorem executeItem_sound (env : RunEnv) (h : Sound run) (item : PlanItem) :
    Sound (executeItem env run item) := by
  cases item with
  | step s => exact executeStep_sound env h s
  | repeatSteps stepId asName maxAttempts untilSpec steps =>
    unfold executeItem
    split_ifs with hfailed
    · exact h
    · exact executeAttempts_sound env stepId asName untilSpec steps maxAttempts 0 h

theorem execute_sound (env : RunEnv) (plan : List PlanItem) : Sound (execute env plan) := by
  have hstart : Sound {} := by
    intro hfollows
    constructor
    · intro name hname q hq
      simp [restsOn] at hq
    · intro e he
      cases he
  exact List.foldlRecOn plan (executeItem env) hstart fun run hrun item _ =>
    executeItem_sound env hrun item

/-- In a run whose steps all follow their references, a passing assertion that an
output was not truncated speaks for every query that the output rests on. -/
theorem passing_assertions_hold (env : RunEnv) (plan : List PlanItem)
    (h : ∀ e ∈ (execute env plan).trace, Event.Follows e) :
    ∀ e ∈ (execute env plan).trace, Event.AssertionHolds e :=
  (execute_sound env plan h).2

def listing (truncated : Bool) : QueryOutcome where
  results := [.object [("id", .str "a")]]
  totalResults := 1
  truncated := truncated
  limitTruncated := truncated
  pathTruncated := false
  receiptId := "RCP-1"

/-- The query of step `rules` is cut by its limit, the others are complete. -/
def listingEnv : RunEnv where
  input := []
  runQuery := fun _ s _ _ => .ok (listing (s.stepId = "rules"))
  callProvider := fun _ _ _ => .ok []
  payload := fun _ _ _ => .ok fun _ => .null
  cast := fun _ _ v _ => .ok v
  compare := fun _ _ _ => .ok true

def queryStep (stepId : String) : PlanItem :=
  .step { stepId := stepId, body := .query (.object []) none }

def assetShape (field : Value) : ShapeItemsSpec where
  items := .str "$steps.assets.results"
  fields := [("value", field)]

/-- Assets with a field, and an assertion on the result. -/
def shapedAssets (field : Value) : List PlanItem :=
  [queryStep "assets", queryStep "rules",
    .step { stepId := "shaped", body := .shapeItems (assetShape field) },
    .step { stepId := "complete", body := .assertNotTruncated "shaped" }]

theorem shaped_item_assertion_holds :
    (∀ e ∈ (execute listingEnv (shapedAssets (.str "$item.id"))).trace, Event.Follows e) ∧
      (execute listingEnv (shapedAssets (.str "$item.id"))).trace.length = 4 ∧
      ∀ e ∈ (execute listingEnv (shapedAssets (.str "$item.id"))).trace,
        Event.AssertionHolds e :=
  have hfollows : ∀ e ∈ (execute listingEnv (shapedAssets (.str "$item.id"))).trace,
      Event.Follows e := by decide +kernel
  ⟨hfollows, by decide +kernel, passing_assertions_hold _ _ hfollows⟩

/-- A field of the shape holds the truncated rules, and the assertion passes. -/
theorem shaped_field_hides_truncated_rules :
    ¬ ∀ e ∈ (execute listingEnv (shapedAssets (.str "$steps.rules.results"))).trace,
      Event.AssertionHolds e := by
  decide +kernel

end Cruxible.TruncationTaint
