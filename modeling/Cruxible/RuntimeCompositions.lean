import Cruxible.BuildReferences
import Cruxible.Compositions
import Mathlib.Data.List.Pairwise

/-!
# Composing for a runtime

A runtime composition takes from every layer but the last its canonical
workflows, with the tests in the same layer that run them, and then drops the
providers that only those workflows call. Whether what remains still validates
depends on who else names the workflows that went: a test in another layer, or a
receipt profile whose surface is a workflow. Resolution profiles and decision
policies never do, since they ask for a workflow that is not canonical.
-/
namespace Cruxible.RuntimeCompositions

open JsonValue PythonDict Fallible ConfigLayers MergedConfigs ComposedLayers Compositions
open BuildReferences hiding textField
open PropertyValidation hiding CoreConfig

def mergeAll : List CoreConfig → Option CoreConfig
  | [] => none
  | c :: cs => some (cs.foldl extend c)

theorem mergedConfig_eq (env : ComposerEnv) (runtime : Bool) (layers : List Layer) :
    mergedConfig env runtime layers =
      (mergeAll (contributions env (flagged runtime layers))).map fun c =>
        { (if runtime then dropProviders (removedProviders (flagged runtime layers)) c else c) with
          extendsPath := none } := by
  unfold mergedConfig
  cases contributions env (flagged runtime layers) with
  | nil => rfl
  | cons c cs => rfl

theorem clearBuilds_extend (a b : CoreConfig) :
    clearBuilds (extend a b) = extend (clearBuilds a) (clearBuilds b) := by
  have hmaps : (clearBuilds (extend a b)).maps =
      (extend (clearBuilds a) (clearBuilds b)).maps := by
    funext m
    cases m <;> rfl
  have hlists : (clearBuilds (extend a b)).lists =
      (extend (clearBuilds a) (clearBuilds b)).lists := by
    funext l
    cases l <;> rfl
  calc clearBuilds (extend a b)
      = { clearBuilds (extend a b) with
          maps := (extend (clearBuilds a) (clearBuilds b)).maps
          lists := (extend (clearBuilds a) (clearBuilds b)).lists } := by rw [← hmaps, ← hlists]
    _ = extend (clearBuilds a) (clearBuilds b) := rfl

theorem mergeAll_clearBuilds (cs : List CoreConfig) :
    mergeAll (cs.map clearBuilds) = (mergeAll cs).map clearBuilds := by
  have hfold : ∀ (cs : List CoreConfig) c,
      (cs.map clearBuilds).foldl extend (clearBuilds c) = clearBuilds (cs.foldl extend c) := by
    intro cs
    induction cs with
    | nil => exact fun _ => rfl
    | cons b cs ih =>
      intro c
      rw [List.map_cons, List.foldl_cons, List.foldl_cons, ← clearBuilds_extend, ih]
  cases cs with
  | nil => rfl
  | cons c cs => exact congrArg some (hfold cs c)

variable {c a b : CoreConfig} {workflow : Value}

theorem mergeAll_sections {cs : List CoreConfig} (hfits : cs.Pairwise Fits)
    (h : mergeAll cs = some c) :
    (∀ m, (c.maps m).entries = cs.flatMap fun b => (b.maps m).entries) ∧
      ∀ l, c.lists l = cs.flatMap fun b => b.lists l := by
  cases cs with
  | nil => cases h
  | cons b cs =>
    obtain rfl := Option.some.inj h
    have ⟨hmaps, _, hlists⟩ := foldl_extend_sections (fitsInTurn_iff.mpr hfits)
    exact ⟨hmaps, hlists⟩

theorem eq_of_builds (hrest : clearBuilds a = clearBuilds b)
    (hworkflows : a.maps .workflows = b.maps .workflows)
    (hproviders : a.maps .providers = b.maps .providers) (htests : a.lists .tests = b.lists .tests)
    : a = b := by
  have hmaps : a.maps = b.maps := by
    funext m
    cases m with
    | workflows => exact hworkflows
    | providers => exact hproviders
    | entityTypes => exact congrArg (fun c => c.maps .entityTypes) hrest
    | namedQueries => exact congrArg (fun c => c.maps .namedQueries) hrest
    | enums => exact congrArg (fun c => c.maps .enums) hrest
    | gates => exact congrArg (fun c => c.maps .gates) hrest
    | feedbackProfiles => exact congrArg (fun c => c.maps .feedbackProfiles) hrest
    | outcomeProfiles => exact congrArg (fun c => c.maps .outcomeProfiles) hrest
    | contracts => exact congrArg (fun c => c.maps .contracts) hrest
    | artifacts => exact congrArg (fun c => c.maps .artifacts) hrest
  have hlists : a.lists = b.lists := by
    funext l
    cases l with
    | tests => exact htests
    | constraints => exact congrArg (fun c => c.lists .constraints) hrest
    | qualityChecks => exact congrArg (fun c => c.lists .qualityChecks) hrest
    | mutationGuards => exact congrArg (fun c => c.lists .mutationGuards) hrest
    | decisionPolicies => exact congrArg (fun c => c.lists .decisionPolicies) hrest
  calc a = { clearBuilds a with maps := a.maps, lists := a.lists } := rfl
    _ = { clearBuilds b with maps := b.maps, lists := b.lists } := by rw [hrest, hmaps, hlists]
    _ = b := rfl

theorem flagged_true (init : List Layer) (last : Layer) :
    flagged true (init ++ [last]) = init.map (fun l => (true, l)) ++ [(false, last)] := by
  unfold flagged
  rw [List.zipIdx_append, List.map_append]
  congr 1
  · have hflags : ∀ l ∈ init.zipIdx, (true && decide (l.2 ≠ (init ++ [last]).length - 1), l.1) =
        (true, l.1) := by
      intro l hl
      have hlt := (List.mem_zipIdx hl).2.1
      have hne : l.2 ≠ (init ++ [last]).length - 1 := by
        rw [List.length_append, List.length_singleton]
        omega
      rw [decide_eq_true hne]
      rfl
    rw [List.map_congr_left hflags,
      show (fun l : Layer × Nat => (true, l.1)) = (fun l => (true, l)) ∘ Prod.fst from rfl,
      ← List.map_map, List.zipIdx_map_fst]
  · simp

theorem contribution_stripped (env : ComposerEnv) (l : Layer) :
    contribution env true l = stripCanonical (contribution env false l) := by
  unfold contribution
  cases l.sourceDir with
  | none => rfl
  | some dir =>
    have hmaps : (rebased env dir (stripCanonical l.source.load)).maps =
        (stripCanonical (rebased env dir l.source.load)).maps := by
      funext m
      cases m <;> simp [rebased, withMap, stripCanonical]
    have hlists : (rebased env dir (stripCanonical l.source.load)).lists =
        (stripCanonical (rebased env dir l.source.load)).lists := by
      funext k
      cases k <;> simp [rebased, withMap, stripCanonical, canonicalWorkflows]
    calc rebased env dir (stripCanonical l.source.load)
        = { rebased env dir l.source.load with
            maps := (rebased env dir (stripCanonical l.source.load)).maps
            lists := (rebased env dir (stripCanonical l.source.load)).lists } := rfl
      _ = stripCanonical (rebased env dir l.source.load) := by
          rw [hmaps, hlists]
          rfl

theorem contribution_maps (env : ComposerEnv) (l : Layer) {m : MapKey} (hm : m ≠ .artifacts) :
    (contribution env false l).maps m = l.source.maps m := by
  unfold contribution
  cases l.sourceDir with
  | none => rfl
  | some dir => simp [rebased, withMap, LayerSource.load, hm]

theorem contribution_workflows (env : ComposerEnv) (l : Layer) :
    (contribution env false l).maps .workflows = l.source.maps .workflows :=
  contribution_maps env l (by decide)

theorem contribution_tests (env : ComposerEnv) (l : Layer) :
    (contribution env false l).lists .tests = l.source.lists .tests := by
  unfold contribution
  cases l.sourceDir <;> rfl

theorem clearBuilds_stripCanonical (c : CoreConfig) :
    clearBuilds (stripCanonical c) = clearBuilds c := by
  simp [clearBuilds, stripCanonical, Function.update_idem]

/-- What is stripped defines no more than it did. -/
theorem fits_mono {a' b' : CoreConfig} (h : Fits a b) (ha : ∀ m, (a'.maps m).keys ⊆ (a.maps m).keys)
    (hb : ∀ m, (b'.maps m).keys ⊆ (b.maps m).keys)
    (harest : a'.relationships = a.relationships ∧ a'.cruxibleVersion = a.cruxibleVersion)
    (hbrest : b'.relationships = b.relationships ∧ b'.cruxibleVersion = b.cruxibleVersion) :
    Fits a' b' := by
  have ⟨hredefines, hstamps⟩ := h
  constructor
  · rintro (⟨m, k, hk, hk'⟩ | ⟨n, hn, hn'⟩)
    · exact hredefines (.inl ⟨m, k, ha m hk, hb m hk'⟩)
    · rw [harest.1] at hn
      rw [hbrest.1] at hn'
      exact hredefines (.inr ⟨n, hn, hn'⟩)
  · unfold StampsDiffer
    rw [harest.2, hbrest.2]
    exact hstamps

theorem stripCanonical_keys (c : CoreConfig) (m : MapKey) :
    ((stripCanonical c).maps m).keys ⊆ (c.maps m).keys := by
  by_cases hm : m = .workflows
  · subst hm
    simp only [stripCanonical, Function.update_self, Dict.keys, Dict.entries_ofList_filter]
    exact (List.filter_sublist.map Prod.fst).subset
  · simp [stripCanonical, hm]

/-- The canonical workflows of all layers but the last. -/
def upstreamCanonical (layers : List Layer) : List (String × Value) :=
  layers.dropLast.flatMap fun l => canonicalWorkflows l.source.load

def upstreamNames (layers : List Layer) : List String := (upstreamCanonical layers).map Prod.fst

/-- The providers that the steps of a workflow name. -/
def calledProviders (workflow : Value) : List String :=
  (stepsOf workflow).filterMap fun step => BuildReferences.textField step "provider"

/-- The full composition without the canonical workflows of all layers but the
last, without the tests of those workflows, and without those of their providers
that no remaining workflow uses. -/
def withoutUpstreamBuilds (layers : List Layer) (full : CoreConfig) : CoreConfig :=
  let kept := (full.maps .workflows).entries.filter fun w => decide (w.1 ∉ upstreamNames layers)
  let lost := (upstreamCanonical layers).flatMap fun w => calledProviders w.2
  let used := kept.flatMap fun w => calledProviders w.2
  { full with
    maps := Function.update (Function.update full.maps .workflows (Dict.ofList kept)) .providers
      (Dict.ofList ((full.maps .providers).entries.filter fun p =>
        decide (¬(p.1 ∈ lost ∧ p.1 ∉ used))))
    lists := Function.update full.lists .tests ((full.lists .tests).filter fun t =>
      decide (∀ n ∈ testWorkflow t, n ∉ upstreamNames layers)) }

/-- The tests of upstream canonical workflows are declared beside them. -/
def TestsBeside (layers : List Layer) : Prop :=
  ∀ l ∈ layers, ∀ t ∈ l.source.lists .tests, ∀ n ∈ testWorkflow t,
    n ∈ upstreamNames layers → n ∈ (canonicalWorkflows l.source.load).map Prod.fst

/-- Nothing outside a layer refers to its canonical workflows: their tests are
declared beside them, no receipt profile is about one of them, and a provider
whose name is empty is still used when they used it. -/
structure SelfContained (layers : List Layer) : Prop where
  tests : TestsBeside layers
  profiles : ∀ l ∈ layers, ∀ p ∈ (l.source.maps .outcomeProfiles).entries, ∀ n,
    receiptWorkflow p.2 = some n → n ∉ upstreamNames layers
  unnamed : (∃ l ∈ layers, "" ∈ (l.source.maps .providers).keys) →
    (∃ w ∈ upstreamCanonical layers, "" ∈ calledProviders w.2) →
    ∃ l ∈ layers, ∃ w ∈ (l.source.maps .workflows).entries,
      w.1 ∉ upstreamNames layers ∧ "" ∈ calledProviders w.2

theorem clearBuilds_withoutUpstreamBuilds (layers : List Layer) (full : CoreConfig) :
    clearBuilds (withoutUpstreamBuilds layers full) = clearBuilds full := by
  have hmaps : (clearBuilds (withoutUpstreamBuilds layers full)).maps = (clearBuilds full).maps := by
    funext m
    cases m <;> simp [clearBuilds, withoutUpstreamBuilds]
  have hlists : (clearBuilds (withoutUpstreamBuilds layers full)).lists =
      (clearBuilds full).lists := by
    funext k
    cases k <;> simp [clearBuilds, withoutUpstreamBuilds]
  calc clearBuilds (withoutUpstreamBuilds layers full)
      = { clearBuilds full with
          maps := (clearBuilds (withoutUpstreamBuilds layers full)).maps
          lists := (clearBuilds (withoutUpstreamBuilds layers full)).lists } := rfl
    _ = clearBuilds full := by rw [hmaps, hlists]

theorem calledProviders_of_reference {ref : String × String} (h : ref ∈ providerReferences workflow)
    : ref.2 ∈ calledProviders workflow := by
  have hsub : ∀ (steps : List Value) ids, distinctSteps ids steps ⊆ steps := by
    intro steps
    induction steps with
    | nil => exact fun _ => List.Subset.refl _
    | cons step steps ih =>
      intro ids
      unfold distinctSteps
      dsimp only
      split_ifs
      · exact fun s hs => List.mem_cons_of_mem _ (ih _ hs)
      · exact List.cons_subset_cons _ (ih _)
  have ⟨step, hstep, href⟩ := List.mem_filterMap.mp h
  unfold stepProvider at href
  split_ifs at href
  have ⟨p, hp, hpair⟩ := Option.map_eq_some_iff.mp href
  rw [← hpair]
  exact List.mem_filterMap.mpr ⟨step, hsub _ _ hstep, hp⟩

/-- The composer passes over an empty provider name. -/
theorem mem_workflowProviderNames {p : String} :
    p ∈ workflowProviderNames workflow ↔ p ∈ calledProviders workflow ∧ p ≠ "" := by
  unfold workflowProviderNames calledProviders stepsOf BuildReferences.textField
  cases workflow.field "steps" with
  | array steps =>
    simp only [List.mem_filterMap]
    constructor
    case mp =>
      rintro ⟨step, hstep, hp⟩
      cases hfield : step.field "provider" with
      | str s =>
        simp only [hfield] at hp
        split_ifs at hp with hempty
        obtain rfl := Option.some.inj hp
        exact ⟨⟨step, hstep, by rw [hfield]⟩, hempty⟩
      | null | bool | int | float | array | object => simp [hfield] at hp
    case mpr =>
      rintro ⟨⟨step, hstep, hp⟩, hempty⟩
      refine ⟨step, hstep, ?_⟩
      cases hfield : step.field "provider" with
      | str s =>
        simp only [hfield] at hp ⊢
        obtain rfl := Option.some.inj hp
        rw [if_neg hempty]
      | null | bool | int | float | array | object => simp [hfield] at hp
  | null | bool | int | float | str | object => simp

section Merge

variable {env : ComposerEnv} {init : List Layer} {last : Layer}

theorem contributions_flagged_true :
    contributions env (flagged true (init ++ [last])) =
      (init.map fun l => stripCanonical (contribution env false l)) ++
        [contribution env false last] := by
  rw [flagged_true, contributions, List.map_append, List.map_map]
  congr 1
  apply List.map_congr_left
  intro l _
  exact contribution_stripped env l

theorem removedProviders_flagged_true :
    removedProviders (flagged true (init ++ [last])) =
      init.flatMap fun l => canonicalProviders l.source.load := by
  rw [flagged_true, removedProviders, List.flatMap_append, List.flatMap_map]
  simp

theorem intentsOf_flagged_true (layers : List Layer) :
    intentsOf ∅ (flagged true layers) = layerIntents layers := by
  unfold intentsOf layerIntents flagged
  rw [List.foldl_map]
  have hzip : ∀ (ls : List Layer) n intents,
      (ls.zipIdx n).foldl (fun intents l => intents.update l.1.allAdjacentQueries) intents =
        ls.foldl (fun (intents : Dict String Value) l => intents.update l.allAdjacentQueries)
          intents := by
    intro ls
    induction ls with
    | nil => exact fun _ _ => rfl
    | cons l ls ih => exact fun n intents => ih (n + 1) _
  exact hzip layers 0 ∅

variable (hfits : (init ++ [last]).Pairwise fun a b => Fits a.source.load b.source.load)

include hfits in
theorem stripped_fit : (contributions env (flagged true (init ++ [last]))).Pairwise Fits := by
  rw [contributions_flagged_true]
  have hfull : ((init ++ [last]).map (contribution env false)).Pairwise Fits := by
    rw [List.pairwise_map]
    simpa only [fits_contribution] using hfits
  rw [List.map_append, List.pairwise_append] at hfull
  have ⟨hinit, _, hlast⟩ := hfull
  rw [List.pairwise_append]
  refine ⟨?_, List.pairwise_singleton _ _, ?_⟩
  · rw [List.pairwise_map] at hinit ⊢
    apply hinit.imp
    intro a b h
    exact fits_mono h (stripCanonical_keys _) (stripCanonical_keys _) ⟨rfl, rfl⟩ ⟨rfl, rfl⟩
  · intro a ha b hb
    have ⟨l, hl, hstrip⟩ := List.mem_map.mp ha
    rw [← hstrip]
    exact fits_mono (hlast _ (List.mem_map_of_mem hl) b hb) (stripCanonical_keys _)
      (fun _ => List.Subset.refl _) ⟨rfl, rfl⟩ ⟨rfl, rfl⟩

/-- The tests that a runtime composition keeps. -/
def remainingTests (init : List Layer) (last : Layer) : List Value :=
  (init.flatMap fun l => (stripCanonical l.source.load).lists .tests) ++ last.source.lists .tests

theorem mem_upstreamNames_iff {n : String} :
    n ∈ upstreamNames (init ++ [last]) ↔
      ∃ l ∈ init, ∃ w ∈ (l.source.maps .workflows).entries,
        isCanonicalWorkflow w.2 = true ∧ w.1 = n := by
  unfold upstreamNames upstreamCanonical canonicalWorkflows
  rw [List.dropLast_concat]
  simp only [List.mem_map, List.mem_flatMap, List.mem_filter, LayerSource.load]
  constructor
  case mp =>
    rintro ⟨w, ⟨l, hl, hw, hcanonical⟩, hname⟩
    exact ⟨l, hl, w, hw, hcanonical, hname⟩
  case mpr =>
    rintro ⟨l, hl, w, hw, hcanonical, hname⟩
    exact ⟨w, ⟨l, hl, hw, hcanonical⟩, hname⟩

variable {w : String × Value}

section
include hfits

theorem last_not_upstream (hw : w ∈ (last.source.maps .workflows).entries) :
    w.1 ∉ upstreamNames (init ++ [last]) := by
  intro hmem
  have ⟨l, hl, v, hv, _, hname⟩ := mem_upstreamNames_iff.mp hmem
  have hlast := (List.pairwise_append.mp hfits).2.2 l hl last (List.mem_singleton_self last)
  apply hlast.1
  exact .inl ⟨.workflows, w.1, hname ▸ List.mem_map_of_mem hv, List.mem_map_of_mem hw⟩

theorem upstream_iff {l : Layer} (hl : l ∈ init) (hw : w ∈ (l.source.maps .workflows).entries) :
    w.1 ∈ upstreamNames (init ++ [last]) ↔ isCanonicalWorkflow w.2 = true := by
  constructor
  case mp =>
    intro hmem
    have ⟨x, hx, v, hv, hcanonical, hname⟩ := mem_upstreamNames_iff.mp hmem
    by_cases hsame : x = l
    · subst hsame
      have hget := Dict.get?_of_mem (q := v.1) (v := v.2) hv
      rw [hname, Dict.get?_of_mem (q := w.1) (v := w.2) hw] at hget
      rw [Option.some.inj hget]
      exact hcanonical
    · have happart := (List.pairwise_append.mp hfits).1.imp (S := fun a b : Layer =>
        ∀ k, ¬(k ∈ (a.source.maps .workflows).keys ∧ k ∈ (b.source.maps .workflows).keys))
        fun hab k hk => hab.1 (.inl ⟨.workflows, k, hk.1, hk.2⟩)
      have hsymm : Std.Symm fun a b : Layer =>
          ∀ k, ¬(k ∈ (a.source.maps .workflows).keys ∧ k ∈ (b.source.maps .workflows).keys) :=
        ⟨fun a b hab k hk => hab k hk.symm⟩
      have hshared : w.1 ∈ (x.source.maps .workflows).keys ∧ w.1 ∈ (l.source.maps .workflows).keys :=
        ⟨hname ▸ List.mem_map_of_mem hv, List.mem_map_of_mem hw⟩
      exact absurd hshared (happart.forall hx hl hsame w.1)
  case mpr =>
    intro hcanonical
    exact mem_upstreamNames_iff.mpr ⟨l, hl, w, hw, hcanonical, rfl⟩

theorem remaining_workflows :
    (init.flatMap fun l => (l.source.maps .workflows).entries.filter fun w =>
        !isCanonicalWorkflow w.2) ++ (last.source.maps .workflows).entries =
      ((init ++ [last]).flatMap fun l => (l.source.maps .workflows).entries).filter fun w =>
        decide (w.1 ∉ upstreamNames (init ++ [last])) := by
  rw [List.flatMap_append, List.filter_append, List.filter_flatMap]
  congr 1
  · apply List.flatMap_congr
    intro l hl
    apply List.filter_congr
    intro w hw
    cases hcanonical : isCanonicalWorkflow w.2 with
    | true | false => simp [upstream_iff hfits hl hw, hcanonical]
  · rw [List.flatMap_singleton]
    symm
    apply List.filter_eq_self.mpr
    intro w hw
    exact decide_eq_true (last_not_upstream hfits hw)

theorem runtime_merge {full : CoreConfig}
    (hfull : mergeAll ((init ++ [last]).map (contribution env false)) = some full) :
    ∃ merged, mergeAll (contributions env (flagged true (init ++ [last]))) = some merged ∧
      clearBuilds merged = clearBuilds full ∧
      (merged.maps .workflows).entries = ((full.maps .workflows).entries.filter fun w =>
        decide (w.1 ∉ upstreamNames (init ++ [last]))) ∧
      merged.maps .providers = full.maps .providers ∧
      merged.lists .tests = remainingTests init last := by
  have hcleared : (contributions env (flagged true (init ++ [last]))).map clearBuilds =
      ((init ++ [last]).map (contribution env false)).map clearBuilds := by
    rw [contributions_flagged_true]
    simp [clearBuilds_stripCanonical]
  have hmerged := mergeAll_clearBuilds (contributions env (flagged true (init ++ [last])))
  rw [hcleared, mergeAll_clearBuilds, hfull, Option.map_some] at hmerged
  have ⟨merged, hmerge, hrest⟩ := Option.map_eq_some_iff.mp hmerged.symm
  have hpair : ((init ++ [last]).map (contribution env false)).Pairwise Fits := by
    rw [List.pairwise_map]
    simpa only [fits_contribution] using hfits
  have ⟨hfullmaps, _⟩ := mergeAll_sections hpair hfull
  have ⟨hmaps, hlists⟩ := mergeAll_sections (stripped_fit hfits) hmerge
  have hworkflows := hfullmaps .workflows
  rw [List.flatMap_map] at hworkflows
  simp only [contribution_workflows] at hworkflows
  refine ⟨merged, hmerge, hrest, ?_, ?_, ?_⟩
  · rw [hmaps, contributions_flagged_true, List.flatMap_append, List.flatMap_map,
      List.flatMap_singleton, hworkflows, ← remaining_workflows hfits]
    simp only [stripCanonical, Function.update_self, Dict.entries_ofList_filter,
      contribution_workflows]
  · apply Dict.ext_entries
    rw [hmaps, hfullmaps, contributions_flagged_true, List.map_append, List.flatMap_append,
      List.flatMap_append, List.flatMap_map, List.flatMap_map]
    rfl
  · rw [hlists, contributions_flagged_true, List.flatMap_append, List.flatMap_map,
      List.flatMap_singleton, contribution_tests, remainingTests]
    congr 1
    apply List.flatMap_congr
    intro l _
    simp only [stripCanonical, Function.update_self, contribution_tests, canonicalWorkflows,
      contribution_workflows, LayerSource.load]

end

end Merge

section Validity

variable {schema semantic : SectionChecks} {rebaseUri : String → String → String}
  {expand : String → Value → List Value → Dict String Value → Except CoreError Value}
  {c : CoreConfig}

theorem settle_checked {intents : Dict String Value} {merged : CoreConfig} :
    settle (checkedComposer schema semantic rebaseUri expand) true intents merged = .ok c ↔
      ∃ q, Regenerated (checkedComposer schema semantic rebaseUri expand) merged.relationships
          (merged.maps .entityTypes) intents (merged.maps .namedQueries) q ∧
        c = withMap merged .namedQueries q ∧
        schema.errors c = [] ∧ configErrors semantic c = [] := by
  constructor
  case mp =>
    intro h
    have ⟨q, hq, hc⟩ := settle_eq_ok h
    refine ⟨q, hq, hc, ?_⟩
    unfold settle at h
    have ⟨composed, hcomposed, hrest⟩ := bind_eq_ok.mp h
    have ⟨hschema, hvalid⟩ := refuseIf_bind_eq_ok.mp hrest
    have ⟨hsemantic, hlast⟩ := refuseIf_bind_eq_ok.mp hvalid
    obtain rfl := Except.ok.inj hlast
    exact ⟨not_not.mp hschema, not_not.mp hsemantic⟩
  case mpr =>
    intro ⟨q, hq, hc, hschema, hsemantic⟩
    subst hc
    exact settle_of_queries true (regenerateQueries_eq_ok.mpr hq)
      (refuseIf_eq_ok.mpr (not_not.mpr hschema)) (refuseIf_eq_ok.mpr (not_not.mpr hsemantic))

theorem composed_valid {layers : List Layer}
    (h : composeConfigSequence (checkedComposer schema semantic rebaseUri expand) false true
      layers = .ok c) : configErrors semantic c = [] := by
  have ⟨_, _, _, hsettle⟩ := compose_eq_ok.mp h
  have ⟨_, _, _, _, hvalid⟩ := settle_checked.mp hsettle
  exact hvalid

theorem clearBuilds_withMap_providers (c : CoreConfig) (providers : Dict String Value) :
    clearBuilds (withMap c .providers providers) = clearBuilds c := by
  have hmaps : (clearBuilds (withMap c .providers providers)).maps = (clearBuilds c).maps := by
    funext m
    cases m <;> simp [clearBuilds, withMap]
  calc clearBuilds (withMap c .providers providers)
      = { clearBuilds c with maps := (clearBuilds (withMap c .providers providers)).maps } := rfl
    _ = clearBuilds c := by rw [hmaps]

theorem clearBuilds_withMap_queries (c : CoreConfig) (queries : Dict String Value) :
    clearBuilds (withMap c .namedQueries queries) = withMap (clearBuilds c) .namedQueries queries := by
  have hmaps : (clearBuilds (withMap c .namedQueries queries)).maps =
      (withMap (clearBuilds c) .namedQueries queries).maps := by
    funext m
    cases m <;> simp [clearBuilds, withMap]
  calc clearBuilds (withMap c .namedQueries queries)
      = { clearBuilds c with maps := (clearBuilds (withMap c .namedQueries queries)).maps } := rfl
    _ = withMap (clearBuilds c) .namedQueries queries := by
        rw [hmaps]
        rfl

theorem mem_workflowProviders {p : String} :
    p ∈ workflowProviders c ↔
      (∃ w ∈ (c.maps .workflows).entries, p ∈ calledProviders w.2) ∧ p ≠ "" := by
  unfold workflowProviders
  simp only [List.mem_flatMap, mem_workflowProviderNames]
  constructor
  case mp =>
    intro ⟨w, hw, hp, hempty⟩
    exact ⟨⟨w, hw, hp⟩, hempty⟩
  case mpr =>
    intro ⟨⟨w, hw, hp⟩, hempty⟩
    exact ⟨w, hw, hp, hempty⟩

variable {init : List Layer} {last : Layer}

theorem mem_removedProviders {p : String} :
    p ∈ removedProviders (flagged true (init ++ [last])) ↔
      (∃ w ∈ upstreamCanonical (init ++ [last]), p ∈ calledProviders w.2) ∧ p ≠ "" := by
  rw [removedProviders_flagged_true]
  unfold upstreamCanonical canonicalProviders
  rw [List.dropLast_concat]
  simp only [List.mem_flatMap, mem_workflowProviderNames]
  constructor
  case mp =>
    intro ⟨l, hl, w, hw, hp, hempty⟩
    exact ⟨⟨w, ⟨l, hl, hw⟩, hp⟩, hempty⟩
  case mpr =>
    intro ⟨⟨w, ⟨l, hl, hw⟩, hp⟩, hempty⟩
    exact ⟨l, hl, w, hw, hp, hempty⟩

/-- The providers of the runtime composition. -/
def remainingProviders (init : List Layer) (last : Layer) (full merged : CoreConfig) :
    Dict String Value :=
  Dict.ofList ((full.maps .providers).entries.filter fun p =>
    decide (p.1 ∉ (removedProviders (flagged true (init ++ [last]))).filter fun p =>
      p ∉ workflowProviders merged))

theorem runtime_candidate {full : CoreConfig}
    (h : composeConfigSequence (checkedComposer schema semantic rebaseUri expand) false true
      (init ++ [last]) = .ok full) :
    ∃ r, Reduced (upstreamNames (init ++ [last])) full r ∧
      r.lists .tests = remainingTests init last ∧
      r.maps .providers = remainingProviders init last full r ∧
      ∀ y, composeConfigSequence (checkedComposer schema semantic rebaseUri expand) true true
        (init ++ [last]) = .ok y ↔ configErrors semantic r = [] ∧ y = r := by
  obtain ⟨hfits, merged, hmerged, hsettle⟩ := compose_eq_ok.mp h
  rw [mergedConfig_eq, contributions_flagged_false] at hmerged
  obtain ⟨fold, hfold, hopen⟩ := Option.map_eq_some_iff.mp hmerged
  obtain ⟨rfold, hrfold, hrest, hworkflows, hproviders, htests⟩ := runtime_merge hfits hfold
  obtain ⟨q, hq, hfull, hschema, hsemantic⟩ := settle_checked.mp hsettle
  obtain ⟨base, hbase⟩ : ∃ base : CoreConfig, base =
      { dropProviders (removedProviders (flagged true (init ++ [last]))) rfold with
        extendsPath := none } := ⟨_, rfl⟩
  have hclear : clearBuilds base = clearBuilds merged := by
    calc clearBuilds base
        = { clearBuilds (dropProviders (removedProviders (flagged true (init ++ [last]))) rfold) with
            extendsPath := none } := by rw [hbase]; rfl
      _ = { clearBuilds fold with extendsPath := none } := by
          rw [dropProviders, clearBuilds_withMap_providers, hrest]
      _ = clearBuilds merged := by rw [← hopen]; rfl
  have hrels : base.relationships = merged.relationships :=
    congrArg (fun c => c.relationships) hclear
  have htypes : base.maps .entityTypes = merged.maps .entityTypes :=
    congrArg (fun c => c.maps .entityTypes) hclear
  have hnamed : base.maps .namedQueries = merged.maps .namedQueries :=
    congrArg (fun c => c.maps .namedQueries) hclear
  obtain ⟨r, hr⟩ : ∃ r, r = withMap base .namedQueries q := ⟨_, rfl⟩
  have hrworkflows : r.maps .workflows = rfold.maps .workflows := by
    rw [hr, hbase]
    simp [withMap, dropProviders]
  have hfullmaps : ∀ m, m ≠ .namedQueries → full.maps m = fold.maps m := by
    intro m hm
    rw [hfull, ← hopen]
    simp [withMap, hm]
  have hrtests : r.lists .tests = remainingTests init last := by
    rw [hr, hbase, ← htests]
    rfl
  have hrproviders : r.maps .providers = remainingProviders init last full r := by
    have hused : workflowProviders r = workflowProviders rfold := by
      unfold workflowProviders
      rw [hrworkflows]
    unfold remainingProviders
    have hquery : r.maps .providers = base.maps .providers := by
      rw [hr]
      simp [withMap]
    rw [hused, hfullmaps .providers (by decide), ← hproviders, hquery, hbase]
    simp only [dropProviders, withMap, Function.update_self]
  have hpair : ((init ++ [last]).map (contribution (checkedComposer schema semantic rebaseUri
      expand) false)).Pairwise Fits := by
    rw [List.pairwise_map]
    simpa only [fits_contribution] using hfits
  obtain ⟨hsections, hlists⟩ := mergeAll_sections hpair hfold
  have hreduced : Reduced (upstreamNames (init ++ [last])) full r := by
    constructor
    case rest =>
      rw [hr, hfull, clearBuilds_withMap_queries, clearBuilds_withMap_queries, hclear]
    case workflows => rw [hrworkflows, hworkflows, hfullmaps .workflows (by decide)]
    case canonical =>
      intro w hw hname
      rw [hfullmaps .workflows (by decide), hsections, List.flatMap_map] at hw
      obtain ⟨l, hl, hwl⟩ := List.mem_flatMap.mp hw
      rw [contribution_workflows] at hwl
      rcases List.mem_append.mp hl with hl | hl
      · exact (upstream_iff hfits hl hwl).mp hname
      · obtain rfl := List.mem_singleton.mp hl
        exact absurd hname (last_not_upstream hfits hwl)
    case tests =>
      have hfulltests : full.lists .tests =
          (init ++ [last]).flatMap fun l => l.source.lists .tests := by
        have hfoldtests := hlists .tests
        rw [List.flatMap_map] at hfoldtests
        simp only [contribution_tests] at hfoldtests
        rw [hfull, ← hfoldtests, ← hopen]
        rfl
      rw [hrtests, hfulltests, remainingTests, List.flatMap_append, List.flatMap_singleton]
      apply List.Sublist.append_right
      have hstrip : ∀ ls : List Layer,
          (ls.flatMap fun l => (stripCanonical l.source.load).lists .tests).Sublist
            (ls.flatMap fun l => l.source.lists .tests) := by
        intro ls
        induction ls with
        | nil => exact List.Sublist.slnil
        | cons l ls ih =>
          rw [List.flatMap_cons, List.flatMap_cons]
          refine List.Sublist.append ?_ ih
          simp only [stripCanonical, Function.update_self]
          exact List.filter_sublist
      exact hstrip init
    case providers =>
      rw [hrproviders, remainingProviders, Dict.entries_ofList_filter]
      exact List.filter_sublist
    case called =>
      intro w hw ref href
      have hcalled := calledProviders_of_reference href
      have hkept : ref.2 ∉ (removedProviders (flagged true (init ++ [last]))).filter fun p =>
          p ∉ workflowProviders r := by
        intro hmem
        obtain ⟨hremoved, hunused⟩ := List.mem_filter.mp hmem
        have hempty := (mem_removedProviders.mp hremoved).2
        exact of_decide_eq_true hunused (mem_workflowProviders.mpr ⟨⟨w, hw, hcalled⟩, hempty⟩)
      rw [hrproviders, remainingProviders, Dict.get?_ofList_filter (full.maps .providers)
        (fun k => decide (k ∉ (removedProviders (flagged true (init ++ [last]))).filter fun p =>
          p ∉ workflowProviders r)), if_pos (decide_eq_true hkept)]
  refine ⟨r, hreduced, hrtests, hrproviders, ?_⟩
  intro y
  have hcandidate : mergedConfig (checkedComposer schema semantic rebaseUri expand) true
      (init ++ [last]) = some base := by
    rw [mergedConfig_eq, hrfold, hbase]
    rfl
  rw [composeConfigSequence_eq_ok, hcandidate, intentsOf_flagged_true]
  simp only [Option.mem_def, Option.some.injEq, exists_eq_left', settle_checked, hrels, htypes,
    hnamed]
  constructor
  case mp =>
    rintro ⟨_, q', hq', hy, _, hvalid⟩
    rw [hq'.unique hq, ← hr] at hy
    rw [← hy]
    exact ⟨hvalid, rfl⟩
  case mpr =>
    rintro ⟨hvalid, hy⟩
    rw [hy]
    exact ⟨stripped_fit hfits, q, hq, hr, hreduced.section_errors hschema, hvalid⟩

end Validity

section Law

variable {env : ComposerEnv} {init : List Layer} {last : Layer} {full r : CoreConfig}

theorem composed_sections {validate : Bool} {layers : List Layer} {c : CoreConfig}
    (h : composeConfigSequence env false validate layers = .ok c) :
    (∀ m, m ≠ .namedQueries → m ≠ .artifacts →
      (c.maps m).entries = layers.flatMap fun l => (l.source.maps m).entries) ∧
      ∀ k, c.lists k = layers.flatMap fun l => l.source.lists k := by
  have ⟨hfits, merged, hmerged, hsettle⟩ := compose_eq_ok.mp h
  have ⟨queries, _, hc⟩ := settle_eq_ok hsettle
  have ⟨hmaps, _, hlists⟩ := mergedConfig_sections hfits hmerged
  constructor
  case left =>
    intro m hnamed hartifacts
    have hkept : c.maps m = merged.maps m := by
      rw [hc]
      simp [withMap, hnamed]
    rw [hkept, hmaps m]
    apply List.flatMap_congr
    intro l _
    rw [contribution_maps env l hartifacts]
  case right =>
    intro k
    rw [hc, ← hlists k]
    rfl

theorem stripped_test_iff {l : Layer} {t : Value} :
    ((canonicalWorkflows l.source.load).any fun w => t.field "workflow" == .str w.1) = true ↔
      ∃ n ∈ testWorkflow t, n ∈ (canonicalWorkflows l.source.load).map Prod.fst := by
  simp only [List.any_eq_true, beq_iff_eq, testWorkflow, BuildReferences.textField, List.mem_map]
  constructor
  case mp =>
    intro ⟨w, hw, hfield⟩
    exact ⟨w.1, by rw [hfield]; rfl, w, hw, rfl⟩
  case mpr =>
    intro ⟨n, hn, w, hw, hname⟩
    refine ⟨w, hw, ?_⟩
    cases hfield : t.field "workflow" with
    | str s =>
      rw [hfield] at hn
      rw [hname, Option.some.inj hn]
    | null | bool | int | float | array | object =>
      rw [hfield] at hn
      cases hn

theorem remainingTests_eq
    (hfits : (init ++ [last]).Pairwise fun a b => Fits a.source.load b.source.load)
    (hbeside : TestsBeside (init ++ [last])) :
    remainingTests init last =
      ((init ++ [last]).flatMap fun l => l.source.lists .tests).filter fun t =>
        decide (∀ n ∈ testWorkflow t, n ∉ upstreamNames (init ++ [last])) := by
  rw [remainingTests, List.flatMap_append, List.filter_append, List.filter_flatMap,
    List.flatMap_singleton]
  congr 1
  · apply List.flatMap_congr
    intro l hl
    simp only [stripCanonical, Function.update_self, LayerSource.load]
    apply List.filter_congr
    intro t ht
    rw [Bool.eq_iff_iff, Bool.not_eq_true', Bool.eq_false_iff, decide_eq_true_iff]
    constructor
    case mp =>
      intro hkept n hn hmem
      exact hkept (stripped_test_iff.mpr ⟨n, hn,
        hbeside l (List.mem_append_left _ hl) t ht n hn hmem⟩)
    case mpr =>
      intro hkept hstrip
      obtain ⟨n, hn, hcanonical⟩ := stripped_test_iff.mp hstrip
      obtain ⟨w, hw, hname⟩ := List.mem_map.mp hcanonical
      obtain ⟨hentry, htype⟩ := List.mem_filter.mp hw
      exact hkept n hn (mem_upstreamNames_iff.mpr ⟨l, hl, w, hentry, htype, hname⟩)
  · symm
    apply List.filter_eq_self.mpr
    intro t ht
    apply decide_eq_true
    intro n hn hmem
    have hcanonical := hbeside last (List.mem_append_right _ (List.mem_singleton_self last)) t ht n
      hn hmem
    obtain ⟨w, hw, hname⟩ := List.mem_map.mp hcanonical
    exact last_not_upstream hfits (List.mem_filter.mp hw).1 (hname ▸ hmem)

theorem testsBeside_of_remaining
    (h : ∀ t ∈ remainingTests init last, ∀ n ∈ testWorkflow t,
      n ∉ upstreamNames (init ++ [last])) : TestsBeside (init ++ [last]) := by
  intro l hl t ht n hn hmem
  by_contra hother
  have hkept : t ∈ remainingTests init last := by
    rcases List.mem_append.mp hl with hl | hl
    · apply List.mem_append_left
      refine List.mem_flatMap.mpr ⟨l, hl, ?_⟩
      simp only [stripCanonical, Function.update_self, LayerSource.load]
      refine List.mem_filter.mpr ⟨ht, ?_⟩
      rw [Bool.not_eq_true', Bool.eq_false_iff]
      intro hstrip
      obtain ⟨m, hm, hcanonical⟩ := stripped_test_iff.mp hstrip
      obtain rfl : n = m := Option.some.inj (hn.symm.trans hm)
      exact hother hcanonical
    · obtain rfl := List.mem_singleton.mp hl
      exact List.mem_append_right _ ht
  exact h t hkept n hn hmem

theorem filter_eq_filter_iff {α : Type} {p q : α → Bool} {xs : List α} :
    xs.filter p = xs.filter q ↔ ∀ x ∈ xs, p x = q x := by
  constructor
  case mp =>
    intro h x hx
    rw [Bool.eq_iff_iff]
    constructor
    · intro hp
      have hmem : x ∈ xs.filter q := h ▸ List.mem_filter.mpr ⟨hx, hp⟩
      exact (List.mem_filter.mp hmem).2
    · intro hq
      have hmem : x ∈ xs.filter p := h ▸ List.mem_filter.mpr ⟨hx, hq⟩
      exact (List.mem_filter.mp hmem).2
  case mpr => exact List.filter_congr

/-- The providers are those the law leaves unless the empty name makes a
difference. -/
theorem remainingProviders_eq_iff
    (hworkflows : (r.maps .workflows).entries = (full.maps .workflows).entries.filter fun w =>
      decide (w.1 ∉ upstreamNames (init ++ [last]))) :
    (withoutUpstreamBuilds (init ++ [last]) full).maps .providers =
        remainingProviders init last full r ↔
      ("" ∈ (full.maps .providers).keys →
        (∃ w ∈ upstreamCanonical (init ++ [last]), "" ∈ calledProviders w.2) →
        ∃ w ∈ (r.maps .workflows).entries, "" ∈ calledProviders w.2) := by
  have hentries : ∀ d e : Dict String Value, d = e ↔ d.entries = e.entries := fun d e =>
    ⟨congrArg Dict.entries, Dict.ext_entries⟩
  simp only [withoutUpstreamBuilds, remainingProviders, Function.update_self, ← hworkflows]
  rw [hentries, Dict.entries_ofList_filter, Dict.entries_ofList_filter, filter_eq_filter_iff]
  simp only [decide_eq_decide, List.mem_filter, mem_removedProviders, mem_workflowProviders,
    List.mem_flatMap, decide_eq_true_eq]
  constructor
  case mp =>
    intro h hknown hlost
    have ⟨v, hv⟩ := Dict.mem_keys.mp hknown
    have hempty := h ("", v) (Dict.mem_of_get? hv)
    by_contra hunused
    have hdropped : ¬(¬((∃ w ∈ upstreamCanonical (init ++ [last]), "" ∈ calledProviders w.2) ∧
        ¬∃ w ∈ (r.maps .workflows).entries, "" ∈ calledProviders w.2)) := not_not.mpr ⟨hlost, hunused⟩
    rw [hempty] at hdropped
    exact hdropped fun hmem => hmem.1.2 rfl
  case mpr =>
    intro h p hp
    by_cases hname : p.1 = ""
    case neg => simp [hname]
    case pos =>
      have hmem : "" ∈ (full.maps .providers).keys := hname ▸ List.mem_map_of_mem hp
      rw [hname]
      constructor
      · intro _ hremoved
        exact hremoved.1.2 rfl
      · intro _ hlost
        exact hlost.2 (h hmem hlost.1)

end Law

/-- **Runtime composition.** For layers whose full composition is valid, the
runtime composition is the full one without the upstream canonical builds
exactly when the layers are self-contained. -/
theorem runtime_composition_iff (schema semantic : SectionChecks)
    (rebaseUri : String → String → String)
    (expand : String → Value → List Value → Dict String Value → Except CoreError Value)
    (layers : List Layer) (full : CoreConfig)
    (h : composeConfigSequence (checkedComposer schema semantic rebaseUri expand) false true
      layers = .ok full) :
    composeConfigSequence (checkedComposer schema semantic rebaseUri expand) true true layers =
        .ok (withoutUpstreamBuilds layers full) ↔
      SelfContained layers := by
  obtain ⟨hfits, merged, hmerged, _⟩ := compose_eq_ok.mp h
  have hne : layers ≠ [] := by
    rintro rfl
    cases hmerged
  have hsplit := List.dropLast_append_getLast hne
  generalize layers.dropLast = init at hsplit
  generalize layers.getLast hne = last at hsplit
  subst hsplit
  obtain ⟨hsections, hlists⟩ := composed_sections h
  have hvalid := composed_valid h
  obtain ⟨r, hreduced, htests, hproviders, hresult⟩ := runtime_candidate h
  have hprofiles : (∀ p ∈ (full.maps .outcomeProfiles).entries, ∀ n,
      receiptWorkflow p.2 = some n → n ∉ upstreamNames (init ++ [last])) ↔
      ∀ l ∈ init ++ [last], ∀ p ∈ (l.source.maps .outcomeProfiles).entries, ∀ n,
        receiptWorkflow p.2 = some n → n ∉ upstreamNames (init ++ [last]) := by
    rw [hsections .outcomeProfiles (by decide) (by decide)]
    constructor
    case mp => exact fun hall l hl p hp => hall p (List.mem_flatMap.mpr ⟨l, hl, hp⟩)
    case mpr =>
      intro hall p hp
      obtain ⟨l, hl, hpl⟩ := List.mem_flatMap.mp hp
      exact hall l hl p hpl
  have hnamed : "" ∈ (full.maps .providers).keys ↔
      ∃ l ∈ init ++ [last], "" ∈ (l.source.maps .providers).keys := by
    rw [Dict.keys, hsections .providers (by decide) (by decide), List.map_flatMap, List.mem_flatMap]
    rfl
  have hcallers : (∃ w ∈ (r.maps .workflows).entries, "" ∈ calledProviders w.2) ↔
      ∃ l ∈ init ++ [last], ∃ w ∈ (l.source.maps .workflows).entries,
        w.1 ∉ upstreamNames (init ++ [last]) ∧ "" ∈ calledProviders w.2 := by
    rw [hreduced.workflows, hsections .workflows (by decide) (by decide)]
    constructor
    case mp =>
      rintro ⟨w, hw, hcall⟩
      obtain ⟨hmem, hkept⟩ := List.mem_filter.mp hw
      obtain ⟨l, hl, hwl⟩ := List.mem_flatMap.mp hmem
      exact ⟨l, hl, w, hwl, of_decide_eq_true hkept, hcall⟩
    case mpr =>
      rintro ⟨l, hl, w, hwl, hkept, hcall⟩
      exact ⟨w, List.mem_filter.mpr ⟨List.mem_flatMap.mpr ⟨l, hl, hwl⟩, decide_eq_true hkept⟩, hcall⟩
  have hunnamed := remainingProviders_eq_iff hreduced.workflows
  rw [hnamed, hcallers, ← hproviders] at hunnamed
  rw [hresult, hreduced.config_errors_iff hvalid, hprofiles]
  constructor
  case mp =>
    rintro ⟨⟨hkept, hreceipts⟩, heq⟩
    rw [htests] at hkept
    exact ⟨testsBeside_of_remaining hkept, hreceipts, hunnamed.mp (by rw [heq])⟩
  case mpr =>
    rintro ⟨hbeside, hreceipts, hunused⟩
    have hremaining := remainingTests_eq hfits hbeside
    rw [← hlists .tests] at hremaining
    refine ⟨⟨?_, hreceipts⟩, ?_⟩
    · intro t ht
      rw [htests, hremaining] at ht
      exact of_decide_eq_true (List.mem_filter.mp ht).2
    · apply eq_of_builds
      case hrest =>
        rw [hreduced.rest, clearBuilds_withoutUpstreamBuilds]
      case hworkflows =>
        apply Dict.ext_entries
        rw [hreduced.workflows]
        simp [withoutUpstreamBuilds, Dict.entries_ofList_filter]
      case hproviders => exact hunnamed.mpr hunused
      case htests =>
        rw [htests, hremaining]
        simp [withoutUpstreamBuilds]

/-! A base that builds its assets with a canonical workflow, and an overlay over
it. In the second stack a receipt profile of the base is about that workflow. -/

def acceptingChecks : SectionChecks where
  rest := fun _ => []
  workflow := fun _ _ _ => []
  provider := fun _ _ _ => []
  test := fun _ => []

def buildAssets : Value :=
  .object [("type", .str "canonical"), ("contract_in", .str "cruxible.EmptyInput"),
    ("steps", .array [
      .object [("id", .str "load"), ("provider", .str "asset_loader"), ("params", .object []),
        ("include_source", .bool false), ("input", .object []), ("as", .str "rows")],
      .object [("id", .str "make"), ("make_entities", .object [("entity_type", .str "Asset"),
        ("items", .str "$steps.rows.items"), ("entity_id", .str "$item.asset_id"),
        ("properties", .object [])]), ("params", .object []), ("include_source", .bool false),
        ("input", .object []), ("as", .str "assets")],
      .object [("id", .str "apply"), ("apply_entities",
        .object [("entities_from", .str "assets")]), ("params", .object []),
        ("include_source", .bool false), ("input", .object []), ("as", .str "applied")]]),
    ("returns", .str "applied")]

def assetLoader : Value :=
  .object [("kind", .str "function"), ("contract_in", .str "cruxible.EmptyInput"),
    ("contract_out", .str "cruxible.JsonItems"), ("ref", .str "assets.load"),
    ("version", .str "1"), ("deterministic", .bool true), ("runtime", .str "python"),
    ("side_effects", .bool false), ("config", .object [])]

def assetMaps : MapKey → Dict String Value
  | .entityTypes => Dict.ofList [("Asset", .object [("properties", .object [("asset_id",
      .object [("type", .str "string"), ("primary_key", .bool true)])])])]
  | .providers => Dict.ofList [("asset_loader", assetLoader)]
  | .workflows => Dict.ofList [("build_assets", buildAssets)]
  | _ => ∅

def buildTest : Value :=
  .object [("name", .str "builds"), ("workflow", .str "build_assets"), ("input", .object []),
    ("expect", .object [])]

def buildReceipts : Value :=
  .object [("anchor_type", .str "receipt"), ("version", .int 1), ("surface_type", .str "workflow"),
    ("surface_name", .str "build_assets"), ("outcome_codes", .object []),
    ("scope_keys", .object [])]

/-- The base with the given receipt profiles and a test of its workflow. -/
def buildingBase (profiles : Dict String Value) : Layer where
  source :=
    { name := "assets"
      maps := fun m => if m = .outcomeProfiles then profiles else assetMaps m
      lists := fun l => if l = .tests then [buildTest] else [] }

def triageLayer : Layer where
  source := { name := "triage", extendsPath := some "assets.yaml" }

def buildComposer : ComposerEnv :=
  checkedComposer acceptingChecks acceptingChecks (fun uri _ => uri) fun _ body _ _ => .ok body

theorem acceptingChecks_errors (c : CoreConfig) : acceptingChecks.errors c = [] := by
  simp [SectionChecks.errors, acceptingChecks]

variable {profiles : Dict String Value}

theorem building_valid
    (h : profiles = ∅ ∨ profiles = Dict.ofList [("build_receipts", buildReceipts)])
    (hworkflows : c.maps .workflows = assetMaps .workflows)
    (hproviders : c.maps .providers = assetMaps .providers)
    (hprofiles : c.maps .outcomeProfiles = profiles) (hpolicies : c.lists .decisionPolicies = [])
    (htests : c.lists .tests = [buildTest]) : configErrors acceptingChecks c = [] := by
  have houtcomes : (profiles.entries.flatMap fun p =>
      outcomeWorkflowErrors (assetMaps .workflows) p.1 p.2) = [] := by
    rcases h with rfl | rfl
    · rfl
    · rw [Dict.entries_ofList (by simp)]
      simp [outcomeWorkflowErrors, buildReceipts, BuildReferences.textField, Value.field, assetMaps,
        Dict.contains, Dict.get?_ofList, Bindings.get?]
  have hcalls : ((assetMaps .workflows).entries.flatMap fun w =>
      workflowProviderErrors (assetMaps .providers) w.1 w.2) = [] := by
    simp [assetMaps, Dict.entries_ofList, workflowProviderErrors, providerReferences, stepsOf,
      buildAssets, distinctSteps, stepProvider, BuildReferences.textField, Value.field,
      isCanonicalWorkflow, canonicalProviderErrors, assetLoader, Dict.contains, Dict.get?_ofList,
      Bindings.get?]
  have htest : testErrors (assetMaps .workflows) [] [buildTest] = [] := by
    simp [testErrors, testWorkflow, buildTest, BuildReferences.textField, Value.field, assetMaps,
      Dict.contains, Dict.get?_ofList, Bindings.get?]
  rw [configErrors, acceptingChecks_errors, hworkflows, hproviders, hprofiles, hpolicies, htests,
    houtcomes, hcalls, htest]
  rfl

theorem building_composes
    (h : profiles = ∅ ∨ profiles = Dict.ofList [("build_receipts", buildReceipts)]) :
    ∃ full, composeConfigSequence buildComposer false true
      [buildingBase profiles, triageLayer] = .ok full := by
  have hfits : [buildingBase profiles, triageLayer].Pairwise fun a b =>
      Fits a.source.load b.source.load :=
    List.pairwise_pair.mpr (fits_of_relationships (fun _ => rfl) rfl nofun)
  have hmerged := mergedConfig_cons buildComposer (buildingBase profiles) [triageLayer]
  refine ⟨_, compose_eq_ok.mpr ⟨hfits, _, hmerged, settle_checked.mpr ⟨∅, ?_, rfl, ?_, ?_⟩⟩⟩
  · exact ⟨rfl, fun _ _ => rfl, fun _ _ h => by cases h⟩
  · exact acceptingChecks_errors _
  · exact building_valid h rfl rfl rfl rfl rfl

theorem upstreamNames_building (profiles : Dict String Value) :
    upstreamNames [buildingBase profiles, triageLayer] = ["build_assets"] := by
  simp [upstreamNames, upstreamCanonical, canonicalWorkflows, buildingBase, LayerSource.load,
    assetMaps, Dict.entries_ofList, isCanonicalWorkflow, buildAssets, Value.field]

theorem building_is_self_contained : SelfContained [buildingBase ∅, triageLayer] where
  tests := by
    intro l hl t ht n hn hmem
    rw [upstreamNames_building] at hmem
    have hlayer : l = buildingBase ∅ ∨ l = triageLayer := by simpa using hl
    rcases hlayer with rfl | rfl
    · simpa [canonicalWorkflows, buildingBase, LayerSource.load, assetMaps, Dict.entries_ofList,
        isCanonicalWorkflow, buildAssets, Value.field] using hmem
    · cases ht
  profiles := by
    intro l hl p hp
    have hlayer : l = buildingBase ∅ ∨ l = triageLayer := by simpa using hl
    rcases hlayer with rfl | rfl <;> cases hp
  unnamed := by
    rintro ⟨l, hl, hname⟩
    have hlayer : l = buildingBase ∅ ∨ l = triageLayer := by simpa using hl
    rcases hlayer with rfl | rfl
    · simp [buildingBase, assetMaps, Dict.keys, Dict.entries_ofList] at hname
    · cases hname

theorem canonical_build_is_stripped :
    ∃ full, composeConfigSequence buildComposer false true [buildingBase ∅, triageLayer] =
        .ok full ∧
      composeConfigSequence buildComposer true true [buildingBase ∅, triageLayer] =
        .ok (withoutUpstreamBuilds [buildingBase ∅, triageLayer] full) := by
  have ⟨full, hfull⟩ := building_composes (.inl rfl)
  exact ⟨full, hfull, (runtime_composition_iff acceptingChecks acceptingChecks _ _
    [buildingBase ∅, triageLayer] full hfull).mpr building_is_self_contained⟩

/-- A receipt profile about a canonical build makes the runtime composition fail. -/
theorem profiled_build_does_not_compose :
    ∃ full, composeConfigSequence buildComposer false true
        [buildingBase (Dict.ofList [("build_receipts", buildReceipts)]), triageLayer] = .ok full ∧
      ∀ r, composeConfigSequence buildComposer true true
        [buildingBase (Dict.ofList [("build_receipts", buildReceipts)]), triageLayer] ≠ .ok r := by
  have ⟨full, hfull⟩ := building_composes (.inr rfl)
  refine ⟨full, hfull, ?_⟩
  intro r hr
  have hlayers : composeConfigSequence buildComposer false true
      ([buildingBase (Dict.ofList [("build_receipts", buildReceipts)])] ++ [triageLayer]) =
        .ok full := hfull
  have ⟨candidate, hreduced, _, _, hresult⟩ := runtime_candidate hlayers
  have hvalid := ((hresult r).mp hr).1
  have hprofile := ((hreduced.config_errors_iff (composed_valid hlayers)).mp hvalid).2
    ("build_receipts", buildReceipts)
  rw [(composed_sections hlayers).1 .outcomeProfiles (by decide) (by decide)] at hprofile
  have hreceipt : receiptWorkflow buildReceipts = some "build_assets" := by
    simp [receiptWorkflow, buildReceipts, BuildReferences.textField, Value.field]
  have hupstream := upstreamNames_building (Dict.ofList [("build_receipts", buildReceipts)])
  apply hprofile (by decide +kernel) "build_assets" hreceipt
  exact hupstream ▸ List.mem_singleton_self _

end Cruxible.RuntimeCompositions
