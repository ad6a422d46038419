import Cruxible.MergedConfigs

/-!
# The composition of a sequence of layers

What `compose_config_sequence` computes, said of configurations: each layer
contributes what it loads as (less its canonical workflows, for the layers below
the last of a runtime composition), the contributions are folded by `extend`,
and the merged configuration has its queries expanded again before the
validators see it.
-/
namespace Cruxible.ComposedLayers

open JsonValue PythonDict Fallible ConfigLayers MergedConfigs
open PropertyValidation hiding CoreConfig

def canonicalWorkflows (c : CoreConfig) : List (String × Value) :=
  (c.maps .workflows).entries.filter fun w => isCanonicalWorkflow w.2

/-- The configuration without its canonical workflows and their tests. -/
def stripCanonical (c : CoreConfig) : CoreConfig :=
  { c with
    maps := Function.update c.maps .workflows
      (Dict.ofList ((c.maps .workflows).entries.filter fun w => !isCanonicalWorkflow w.2))
    lists := Function.update c.lists .tests ((c.lists .tests).filter fun t =>
      !(canonicalWorkflows c).any fun w => t.field "workflow" == .str w.1) }

/-- The providers that the canonical workflows name. -/
def canonicalProviders (c : CoreConfig) : List String :=
  (canonicalWorkflows c).flatMap fun w => workflowProviderNames w.2

variable {c a b : CoreConfig} {d : Dump} {acc : Accumulated} {env : ComposerEnv} {l : Bool × Layer}
  {ls : List (Bool × Layer)} {intents named types : Dict String Value} {relationships : List Value}

theorem stripCanonical_eq_self (h : canonicalWorkflows c = []) : stripCanonical c = c := by
  have hworkflows : Dict.ofList ((c.maps .workflows).entries.filter fun w =>
      !isCanonicalWorkflow w.2) = c.maps .workflows := by
    apply Dict.ofList_filter_eq_self
    intro w hw
    have hplain := List.filter_eq_nil_iff.mp h w hw
    simpa using hplain
  have htests : ((c.lists .tests).filter fun t =>
      !(canonicalWorkflows c).any fun w => t.field "workflow" == .str w.1) = c.lists .tests := by
    apply List.filter_eq_self.mpr
    intro t _
    rw [h]
    rfl
  rw [stripCanonical, hworkflows, htests, Function.update_eq_self, Function.update_eq_self]

theorem stripCanonicalRuntimeConfig_reads (h : Reads d c) :
    Reads (stripCanonicalRuntimeConfig d).1 (stripCanonical c) ∧
      (stripCanonicalRuntimeConfig d).2 = canonicalProviders c := by
  unfold stripCanonicalRuntimeConfig
  simp only [h.entriesAt_map, h.itemsAt_list]
  change Reads (if canonicalWorkflows c = [] then (d, []) else _).1 _ ∧
    (if canonicalWorkflows c = [] then (d, []) else _).2 = _
  split_ifs with hnone
  · rw [stripCanonical_eq_self hnone, canonicalProviders, hnone]
    exact ⟨h, rfl⟩
  · refine ⟨?_, rfl⟩
    apply Reads.set (h.set_map .workflows _)
    case hk => simp [sectionAt, stripCanonical, canonicalWorkflows]
    case hother =>
      intro q hq
      cases q with
      | list l =>
        have hl : l ≠ .tests := fun hl => hq (congrArg Key.list hl)
        simp [sectionAt, stripCanonical, withMap, hl]
      | version | name | description | cruxibleVersion | extendsPath | relationships | runtime
      | map m => rfl

/-- The configuration with its artifact URIs read relative to a directory. -/
def rebased (env : ComposerEnv) (dir : String) (c : CoreConfig) : CoreConfig :=
  withMap c .artifacts (Dict.ofList
    ((c.maps .artifacts).entries.map fun a => (a.1, rebaseArtifact env dir a.2)))

theorem rebaseArtifactUris_reads (h : Reads d c) (env : ComposerEnv) (dir : String) :
    Reads (rebaseArtifactUris env d dir) (rebased env dir c) := by
  unfold rebaseArtifactUris
  rw [h (.map .artifacts)]
  exact h.set_map .artifacts _

/-- What a layer contributes to a composition. -/
def contribution (env : ComposerEnv) (stripped : Bool) (layer : Layer) : CoreConfig :=
  let c := if stripped then stripCanonical layer.source.load else layer.source.load
  layer.sourceDir.elim c fun dir => rebased env dir c

theorem layerData_reads (env : ComposerEnv) (stripped : Bool) (layer : Layer) :
    Reads (layerData env stripped layer).1 (contribution env stripped layer) ∧
      (layerData env stripped layer).2 =
        if stripped then canonicalProviders layer.source.load else [] := by
  have hload := reads_modelDump layer.source.load
  have ⟨hstrip, hproviders⟩ := stripCanonicalRuntimeConfig_reads hload
  unfold layerData contribution
  generalize layer.source.load.modelDump = data at hload hstrip hproviders ⊢
  cases stripped with
  | false =>
    cases layer.sourceDir with
    | none => exact ⟨hload, rfl⟩
    | some dir => exact ⟨rebaseArtifactUris_reads hload env dir, rfl⟩
  | true =>
    cases layer.sourceDir with
    | none => exact ⟨hstrip, hproviders⟩
    | some dir => exact ⟨rebaseArtifactUris_reads hstrip env dir, hproviders⟩

theorem redefines_extend : Redefines (extend a b) c ↔ Redefines a c ∨ Redefines b c := by
  unfold Redefines
  simp only [extend, Dict.mem_keys_update, List.map_append, List.mem_append]
  constructor
  case mp =>
    rintro (⟨m, k, hk | hk, hc⟩ | ⟨n, hn | hn, hc⟩)
    · exact .inl (.inl ⟨m, k, hk, hc⟩)
    · exact .inr (.inl ⟨m, k, hk, hc⟩)
    · exact .inl (.inr ⟨n, hn, hc⟩)
    · exact .inr (.inr ⟨n, hn, hc⟩)
  case mpr =>
    rintro ((⟨m, k, hk, hc⟩ | ⟨n, hn, hc⟩) | (⟨m, k, hk, hc⟩ | ⟨n, hn, hc⟩))
    · exact .inl ⟨m, k, .inl hk, hc⟩
    · exact .inr ⟨n, .inl hn, hc⟩
    · exact .inl ⟨m, k, .inr hk, hc⟩
    · exact .inr ⟨n, .inr hn, hc⟩

theorem stampsDiffer_extend (h : ¬StampsDiffer a b) :
    StampsDiffer (extend a b) c ↔ StampsDiffer a c ∨ StampsDiffer b c := by
  unfold StampsDiffer at h ⊢
  cases ha : a.cruxibleVersion <;> cases hb : b.cruxibleVersion <;> simp_all [extend]

theorem fits_extend (h : Fits a b) : Fits (extend a b) c ↔ Fits a c ∧ Fits b c := by
  unfold Fits
  rw [redefines_extend, stampsDiffer_extend h.2]
  tauto

/-- Each layer fits onto what the layers before it compose to. -/
def FitsInTurn : CoreConfig → List CoreConfig → Prop
  | _, [] => True
  | a, b :: bs => Fits a b ∧ FitsInTurn (extend a b) bs

theorem fitsInTurn_iff {bs : List CoreConfig} : FitsInTurn a bs ↔ (a :: bs).Pairwise Fits := by
  induction bs generalizing a with
  | nil => simp [FitsInTurn]
  | cons b bs ih =>
    rw [FitsInTurn, ih, List.pairwise_cons, List.pairwise_cons, List.pairwise_cons,
      List.forall_mem_cons]
    constructor
    case mp =>
      intro ⟨hfirst, hothers, hrest⟩
      exact ⟨⟨hfirst, fun c hc => ((fits_extend hfirst).mp (hothers c hc)).1⟩,
        fun c hc => ((fits_extend hfirst).mp (hothers c hc)).2, hrest⟩
    case mpr =>
      intro ⟨⟨hfirst, ha⟩, hb, hrest⟩
      exact ⟨hfirst, fun c hc => (fits_extend hfirst).mpr ⟨ha c hc, hb c hc⟩, hrest⟩

/-- The layers with the flag that says which lose their canonical workflows. -/
def flagged (runtime : Bool) (layers : List Layer) : List (Bool × Layer) :=
  layers.zipIdx.map fun l => (runtime && decide (l.2 ≠ layers.length - 1), l.1)

def contributions (env : ComposerEnv) (ls : List (Bool × Layer)) : List CoreConfig :=
  ls.map fun l => contribution env l.1 l.2

/-- The providers that the removed workflows named. -/
def removedProviders (ls : List (Bool × Layer)) : List String :=
  ls.flatMap fun l => if l.1 then canonicalProviders l.2.source.load else []

/-- The intents of all layers, the later ones over the earlier. -/
def intentsOf (intents : Dict String Value) (ls : List (Bool × Layer)) : Dict String Value :=
  ls.foldl (fun intents l => intents.update l.2.allAdjacentQueries) intents

variable {acc' : Accumulated} {r : CoreConfig} {validate : Bool}

theorem composeLayer_eq_ok :
    composeLayer env l.1 acc l.2 = .ok acc' ↔
      ∃ composed, acc.composed.elim (.ok (layerData env l.1 l.2).1)
          (fun base => composeMapping base (layerData env l.1 l.2).1) = .ok composed ∧
        acc' = { composed := some composed,
                 removedProviderNames := acc.removedProviderNames ++ removedProviders [l],
                 intents := acc.intents.update l.2.allAdjacentQueries } := by
  have hremoved : removedProviders [l] = (layerData env l.1 l.2).2 := by
    rw [(layerData_reads env l.1 l.2).2]
    exact List.append_nil _
  unfold composeLayer
  dsimp only
  rw [bind_eq_ok, hremoved]
  simp only [Except.ok.injEq, eq_comm]

theorem composeLayers_reads (hd : acc.composed = some d) (hc : Reads d c)
    (h : ls.foldlM (fun acc l => composeLayer env l.1 acc l.2) acc = .ok acc') :
    FitsInTurn c (contributions env ls) ∧
      (∃ d', acc'.composed = some d' ∧ Reads d' ((contributions env ls).foldl extend c)) ∧
      acc'.removedProviderNames = acc.removedProviderNames ++ removedProviders ls ∧
      acc'.intents = intentsOf acc.intents ls := by
  induction ls generalizing acc d c with
  | nil =>
    obtain rfl := foldlM_nil_eq_ok.mp h
    exact ⟨trivial, ⟨d, hd, hc⟩, (List.append_nil _).symm, rfl⟩
  | cons l ls ih =>
    have ⟨next, hstep, hrest⟩ := foldlM_cons_eq_ok.mp h
    have ⟨composed, hcomposed, hnext⟩ := composeLayer_eq_ok.mp hstep
    rw [hd] at hcomposed
    have ⟨hfits, hreads⟩ := composeMapping_reads hc (layerData_reads env l.1 l.2).1 hcomposed
    subst hnext
    have ⟨hturn, hdata, hremoved, hintents⟩ := ih rfl hreads hrest
    refine ⟨⟨hfits, hturn⟩, hdata, ?_, hintents⟩
    rw [hremoved, List.append_assoc, removedProviders, removedProviders, removedProviders,
      ← List.flatMap_append]
    rfl

theorem composeLayers_total (hd : acc.composed = some d) (hc : Reads d c)
    (h : FitsInTurn c (contributions env ls)) :
    ∃ acc', ls.foldlM (fun acc l => composeLayer env l.1 acc l.2) acc = .ok acc' := by
  induction ls generalizing acc d c with
  | nil => exact ⟨acc, rfl⟩
  | cons l ls ih =>
    have hlayer := (layerData_reads env l.1 l.2).1
    have ⟨composed, hcomposed⟩ := composeMapping_total hc hlayer h.1
    have ⟨_, hreads⟩ := composeMapping_reads hc hlayer hcomposed
    have ⟨next, hnext⟩ : ∃ next : Accumulated, next =
        { composed := some composed,
          removedProviderNames := acc.removedProviderNames ++ removedProviders [l],
          intents := acc.intents.update l.2.allAdjacentQueries } := ⟨_, rfl⟩
    have hstep := composeLayer_eq_ok.mpr ⟨composed, by rw [hd]; exact hcomposed, hnext⟩
    have hcomposed' : next.composed = some composed := by rw [hnext]
    have ⟨acc', hacc'⟩ := ih hcomposed' hreads h.2
    refine ⟨acc', ?_⟩
    rw [List.foldlM_cons, bind_eq_ok]
    exact ⟨next, hstep, hacc'⟩

theorem composeFirst_eq_ok :
    composeLayer env l.1 {} l.2 = .ok acc ↔
      acc = { composed := some (layerData env l.1 l.2).1,
              removedProviderNames := removedProviders [l],
              intents := intentsOf ∅ [l] } := by
  rw [composeLayer_eq_ok]
  simp [intentsOf]

theorem composeAll_reads
    (h : (l :: ls).foldlM (fun acc l => composeLayer env l.1 acc l.2) {} = .ok acc) :
    FitsInTurn (contribution env l.1 l.2) (contributions env ls) ∧
      (∃ d, acc.composed = some d ∧
        Reads d ((contributions env ls).foldl extend (contribution env l.1 l.2))) ∧
      acc.removedProviderNames = removedProviders (l :: ls) ∧
      acc.intents = intentsOf ∅ (l :: ls) := by
  have ⟨first, hstep, hrest⟩ := foldlM_cons_eq_ok.mp h
  rw [composeFirst_eq_ok] at hstep
  subst hstep
  have ⟨hfits, hdata, hremoved, hintents⟩ :=
    composeLayers_reads rfl (layerData_reads env l.1 l.2).1 hrest
  refine ⟨hfits, hdata, ?_, hintents⟩
  rw [hremoved, removedProviders, removedProviders, removedProviders, ← List.flatMap_append]
  rfl

theorem composeAll_total (h : FitsInTurn (contribution env l.1 l.2) (contributions env ls)) :
    ∃ acc, (l :: ls).foldlM (fun acc l => composeLayer env l.1 acc l.2) {} = .ok acc := by
  have ⟨first, hfirst⟩ : ∃ first : Accumulated, first =
      { composed := some (layerData env l.1 l.2).1,
        removedProviderNames := removedProviders [l],
        intents := intentsOf ∅ [l] } := ⟨_, rfl⟩
  have hcomposed : first.composed = some (layerData env l.1 l.2).1 := by rw [hfirst]
  have ⟨acc, hacc⟩ := composeLayers_total hcomposed (layerData_reads env l.1 l.2).1 h
  refine ⟨acc, ?_⟩
  rw [List.foldlM_cons, bind_eq_ok]
  exact ⟨first, composeFirst_eq_ok.mpr hfirst, hacc⟩

/-- The loop of `materialize_all_adjacent_queries`. -/
def regenerateQueries (env : ComposerEnv) (relationships : List Value) (types : Dict String Value)
    (intents named : Dict String Value) : Except CoreError (Dict String Value) :=
  intents.entries.foldlM (fun acc q =>
    if acc.contains q.1 then do
      let body ← env.expandNamedQuery q.1 q.2 relationships types
      .ok (acc.set q.1 body)
    else .ok acc) named

/-- The named queries after the expansion: those with an intent are expanded
against the relationships and entity types at hand, and the others stay. -/
structure Regenerated (env : ComposerEnv) (relationships : List Value)
    (types intents named queries : Dict String Value) : Prop where
  keys : queries.keys = named.keys
  authored : ∀ k, intents.get? k = none → queries.get? k = named.get? k
  generated : ∀ k body, intents.get? k = some body → k ∈ named.keys →
    ∃ v, env.expandNamedQuery k body relationships types = .ok v ∧ queries.get? k = some v

theorem Regenerated.unique {q q' : Dict String Value}
    (h : Regenerated env relationships types intents named q)
    (h' : Regenerated env relationships types intents named q') : q = q' := by
  apply Dict.ext_keys (h.keys.trans h'.keys.symm)
  intro k
  cases hk : intents.get? k with
  | none => rw [h.authored k hk, h'.authored k hk]
  | some body =>
    by_cases hmem : k ∈ named.keys
    case pos =>
      have ⟨v, hv, hq⟩ := h.generated k body hk hmem
      have ⟨v', hv', hq'⟩ := h'.generated k body hk hmem
      rw [hv] at hv'
      rw [hq, hq', Except.ok.inj hv']
    case neg =>
      have hgone := Dict.get?_eq_none.mpr (h.keys ▸ hmem)
      have hgone' := Dict.get?_eq_none.mpr (h'.keys ▸ hmem)
      rw [hgone, hgone']

variable {queries : Dict String Value}

theorem regenerateEntries_spec {intents : List (String × Value)}
    (hnodup : (intents.map Prod.fst).Nodup) (h : intents.foldlM (fun acc q =>
      if acc.contains q.1 then do
        let body ← env.expandNamedQuery q.1 q.2 relationships types
        .ok (acc.set q.1 body)
      else .ok acc) named = .ok queries) :
    queries.keys = named.keys ∧
      (∀ k, Bindings.get? intents k = none → queries.get? k = named.get? k) ∧
      ∀ k body, Bindings.get? intents k = some body → k ∈ named.keys →
        ∃ v, env.expandNamedQuery k body relationships types = .ok v ∧ queries.get? k = some v := by
  induction intents generalizing named with
  | nil =>
    obtain rfl := foldlM_nil_eq_ok.mp h
    exact ⟨rfl, fun _ _ => rfl, nofun⟩
  | cons e intents ih =>
    obtain ⟨hfresh, hrest⟩ := List.nodup_cons.mp hnodup
    obtain ⟨next, hstep, hlast⟩ := foldlM_cons_eq_ok.mp h
    obtain ⟨hkeys, hauthored, hgenerated⟩ := ih hrest hlast
    have hturn : next.keys = named.keys ∧ (∀ k, k ≠ e.1 → next.get? k = named.get? k) ∧
        (e.1 ∈ named.keys → ∃ v, env.expandNamedQuery e.1 e.2 relationships types = .ok v ∧
          next.get? e.1 = some v) := by
      split_ifs at hstep with hmem
      case pos =>
        obtain ⟨v, hv, hset⟩ := bind_eq_ok.mp hstep
        cases hset
        rw [Dict.contains_eq_true] at hmem
        refine ⟨?_, ?_, fun _ => ⟨v, hv, Dict.get?_set_self _ _ _⟩⟩
        · rw [Dict.keys_set, if_pos hmem]
        · intro k hk
          exact Dict.get?_set_of_ne _ _ (Ne.symm hk)
      case neg =>
        cases hstep
        rw [Dict.contains_eq_true] at hmem
        exact ⟨rfl, fun _ _ => rfl, fun h => absurd h hmem⟩
    obtain ⟨hsame, hothers, hthis⟩ := hturn
    refine ⟨hkeys.trans hsame, ?_, ?_⟩
    · intro k hk
      have hne : e.1 ≠ k := by
        intro heq
        simp [Bindings.get?, heq] at hk
      rw [hauthored k (by simpa [Bindings.get?, hne] using hk), hothers k hne.symm]
    · intro k body hbody hmem
      by_cases hk : e.1 = k
      case pos =>
        subst hk
        obtain ⟨v, hv, hnext⟩ := hthis hmem
        have hvalue : e.2 = body := by simpa [Bindings.get?] using hbody
        have hlater := hauthored e.1 (Bindings.get?_eq_none.mpr hfresh)
        exact ⟨v, hvalue ▸ hv, hlater.trans hnext⟩
      case neg =>
        exact hgenerated k body (by simpa [Bindings.get?, hk] using hbody) (hsame ▸ hmem)

theorem regenerateEntries_total {intents : List (String × Value)}
    (hok : ∀ q ∈ intents, q.1 ∈ named.keys →
      ∃ v, env.expandNamedQuery q.1 q.2 relationships types = .ok v) :
    ∃ queries, intents.foldlM (fun acc q =>
      if acc.contains q.1 then do
        let body ← env.expandNamedQuery q.1 q.2 relationships types
        .ok (acc.set q.1 body)
      else .ok acc) named = .ok queries := by
  induction intents generalizing named with
  | nil => exact ⟨named, rfl⟩
  | cons e intents ih =>
    simp only [List.foldlM_cons, bind_eq_ok]
    by_cases hmem : e.1 ∈ named.keys
    case pos =>
      obtain ⟨v, hv⟩ := hok e List.mem_cons_self hmem
      have hkeys : (named.set e.1 v).keys = named.keys := by
        rw [Dict.keys_set, if_pos hmem]
      have hlater : ∀ q ∈ intents, q.1 ∈ (named.set e.1 v).keys →
          ∃ v, env.expandNamedQuery q.1 q.2 relationships types = .ok v := fun q hq hk =>
        hok q (List.mem_cons_of_mem _ hq) (hkeys ▸ hk)
      obtain ⟨queries, hqueries⟩ := ih hlater
      refine ⟨queries, named.set e.1 v, ?_, hqueries⟩
      rw [if_pos (Dict.contains_eq_true.mpr hmem), hv]
      rfl
    case neg =>
      obtain ⟨queries, hqueries⟩ := ih fun q hq hk => hok q (List.mem_cons_of_mem _ hq) hk
      refine ⟨queries, named, ?_, hqueries⟩
      rw [if_neg fun h => hmem (Dict.contains_eq_true.mp h)]

theorem regenerateQueries_eq_ok :
    regenerateQueries env relationships types intents named = .ok queries ↔
      Regenerated env relationships types intents named queries := by
  have hspec : ∀ q, regenerateQueries env relationships types intents named = .ok q →
      Regenerated env relationships types intents named q := by
    intro q h
    have ⟨hkeys, hauthored, hgenerated⟩ := regenerateEntries_spec intents.nodup h
    exact ⟨hkeys, hauthored, hgenerated⟩
  constructor
  case mp => exact hspec queries
  case mpr =>
    intro h
    have ⟨q, hq⟩ : ∃ q, regenerateQueries env relationships types intents named = .ok q := by
      apply regenerateEntries_total
      intro e he hmem
      have ⟨v, hv, _⟩ := h.generated e.1 e.2 (Dict.get?_of_mem he) hmem
      exact ⟨v, hv⟩
    rw [h.unique (hspec q hq), hq]

theorem withMap_self (c : CoreConfig) (m : MapKey) : withMap c m (c.maps m) = c := by
  rw [withMap, Function.update_eq_self]

/-- The queries of a configuration expanded again. -/
def regenerate (env : ComposerEnv) (intents : Dict String Value) (c : CoreConfig) :
    Except CoreError CoreConfig := do
  let queries ← regenerateQueries env c.relationships (c.maps .entityTypes) intents
    (c.maps .namedQueries)
  .ok (withMap c .namedQueries queries)

theorem materialize_reads (env : ComposerEnv) (h : Reads d c) (intents : Dict String Value) :
    (∀ r, materializeAllAdjacentQueries env d intents = .ok r →
      ∃ c', regenerate env intents c = .ok c' ∧ Reads r c') ∧
    ∀ c', regenerate env intents c = .ok c' →
      ∃ r, materializeAllAdjacentQueries env d intents = .ok r ∧ Reads r c' := by
  have hidle : ∀ q, regenerateQueries env c.relationships (c.maps .entityTypes) intents
      (c.maps .namedQueries) = .ok q →
      (intents.entries.any fun e => (c.maps .namedQueries).contains e.1) = false →
      q = c.maps .namedQueries := by
    intro q hq hnone
    have hspec := regenerateQueries_eq_ok.mp hq
    apply Dict.ext_keys hspec.keys
    intro k
    cases hk : intents.get? k with
    | none => exact hspec.authored k hk
    | some body =>
      have hmiss := List.any_eq_false.mp hnone (k, body) (Dict.mem_of_get? hk)
      rw [Dict.contains_eq_true] at hmiss
      rw [Dict.get?_eq_none.mpr hmiss, Dict.get?_eq_none.mpr (hspec.keys ▸ hmiss)]
  have hunfold : ∀ r, materializeAllAdjacentQueries env d intents = .ok r ↔
      ∃ q, regenerateQueries env c.relationships (c.maps .entityTypes) intents
          (c.maps .namedQueries) = .ok q ∧
        r = if intents.entries.any fun e => (c.maps .namedQueries).contains e.1 then
          d.set (.map .namedQueries) (.entries q) else d := by
    intro r
    unfold materializeAllAdjacentQueries
    simp only [h.entriesAt_map, h.itemsAt_relationships]
    rw [bind_eq_ok]
    apply exists_congr
    intro q
    apply and_congr Iff.rfl
    split_ifs <;> simp only [Except.ok.injEq, eq_comm]
  have hreads : ∀ q, regenerateQueries env c.relationships (c.maps .entityTypes) intents
      (c.maps .namedQueries) = .ok q →
      Reads (if intents.entries.any fun e => (c.maps .namedQueries).contains e.1 then
        d.set (.map .namedQueries) (.entries q) else d) (withMap c .namedQueries q) := by
    intro q hq
    split_ifs with hany
    · exact h.set_map .namedQueries q
    · rw [hidle q hq (by simpa using hany), withMap_self]
      exact h
  constructor
  case left =>
    intro r hr
    have ⟨q, hq, hset⟩ := (hunfold r).mp hr
    exact ⟨_, bind_eq_ok.mpr ⟨q, hq, rfl⟩, hset ▸ hreads q hq⟩
  case right =>
    intro c' hc'
    have ⟨q, hq, hset⟩ := bind_eq_ok.mp hc'
    cases hset
    exact ⟨_, (hunfold _).mpr ⟨q, hq, rfl⟩, hreads q hq⟩

def workflowProviders (c : CoreConfig) : List String :=
  (c.maps .workflows).entries.flatMap fun w => workflowProviderNames w.2

/-- The configuration without those of the named providers that no workflow uses. -/
def dropProviders (removed : List String) (c : CoreConfig) : CoreConfig :=
  withMap c .providers (Dict.ofList ((c.maps .providers).entries.filter fun p =>
    decide (p.1 ∉ removed.filter fun p => p ∉ workflowProviders c)))

theorem stripRemovedRuntimeProviders_reads (h : Reads d c) (removed : List String) :
    Reads (stripRemovedRuntimeProviders d removed) (dropProviders removed c) := by
  unfold stripRemovedRuntimeProviders dropProviders
  simp only [h.entriesAt_map]
  change Reads (if (removed.filter fun p => p ∉ workflowProviders c) = [] then d else _) _
  split_ifs with hnone
  · rw [hnone, Dict.ofList_filter_eq_self (by simp), withMap_self]
    exact h
  · exact h.set_map .providers _

/-- The configuration that the layers merge into, before its queries are
expanded again and its validators run. -/
def mergedConfig (env : ComposerEnv) (runtime : Bool) (layers : List Layer) : Option CoreConfig :=
  match contributions env (flagged runtime layers) with
  | [] => none
  | first :: rest =>
      let merged := rest.foldl extend first
      let kept := if runtime then dropProviders (removedProviders (flagged runtime layers)) merged
        else merged
      some { kept with extendsPath := none }

/-- What the composition does with the merged configuration. -/
def settle (env : ComposerEnv) (validate : Bool) (intents : Dict String Value) (merged : CoreConfig) :
    Except CoreError CoreConfig := do
  let composed ← regenerate env intents merged
  env.modelValidators composed
  if validate then env.validateConfig composed
  .ok composed

theorem Reads.erase_extends (h : Reads d c) :
    Reads (d.erase .extendsPath) { c with extendsPath := none } := by
  intro k
  rw [Dict.get?_erase]
  split_ifs with hk
  · rw [← hk]
    rfl
  · rw [h k]
    cases k with
    | extendsPath => exact absurd rfl hk
    | version | name | description | cruxibleVersion | relationships | runtime | list l | map m =>
      rfl

theorem settle_reads (h : Reads d c) :
    (do
      let data ← materializeAllAdjacentQueries env d intents
      let composed ← CoreConfig.modelValidate env data
      if validate then env.validateConfig composed
      Except.ok composed) = .ok r ↔ settle env validate intents c = .ok r := by
  have ⟨hsound, htotal⟩ := materialize_reads env h intents
  unfold settle
  simp only [bind_eq_ok]
  constructor
  case mp =>
    intro ⟨data, hdata, composed, hvalid, hrest⟩
    have ⟨c', hc', hreads⟩ := hsound data hdata
    have ⟨hmodel, hcomposed⟩ := (modelValidate_eq_ok hreads).mp hvalid
    subst hcomposed
    exact ⟨composed, hc', (), hmodel, hrest⟩
  case mpr =>
    intro ⟨c', hc', _, hmodel, hrest⟩
    have ⟨data, hdata, hreads⟩ := htotal c' hc'
    exact ⟨data, hdata, c', (modelValidate_eq_ok hreads).mpr ⟨hmodel, rfl⟩, hrest⟩

theorem composeConfigSequence_eq_ok {runtime : Bool} {layers : List Layer} :
    composeConfigSequence env runtime validate layers = .ok r ↔
      (contributions env (flagged runtime layers)).Pairwise Fits ∧
        ∃ merged ∈ mergedConfig env runtime layers,
          settle env validate (intentsOf ∅ (flagged runtime layers)) merged = .ok r := by
  have hfold : (flagged runtime layers).foldlM (fun acc l => composeLayer env l.1 acc l.2) {} =
      layers.zipIdx.foldlM (fun acc l =>
        composeLayer env (runtime && decide (l.2 ≠ layers.length - 1)) acc l.1) {} := by
    rw [flagged, List.foldlM_map]
  unfold composeConfigSequence
  rw [← hfold]
  unfold mergedConfig
  cases hls : flagged runtime layers with
  | nil =>
    simp [contributions, bind, Except.bind, pure, Except.pure]
  | cons l ls =>
    have hkept : ∀ {acc d c}, Reads d c →
        Reads ((if runtime then stripRemovedRuntimeProviders d acc else d).erase .extendsPath)
          { (if runtime then dropProviders acc c else c) with extendsPath := none } := by
      intro acc d c hreads
      apply Reads.erase_extends
      split_ifs
      · exact stripRemovedRuntimeProviders_reads hreads acc
      · exact hreads
    simp only [contributions, List.map_cons, Option.mem_def, Option.some.injEq, exists_eq_left']
    rw [← fitsInTurn_iff, bind_eq_ok]
    constructor
    case mp =>
      rintro ⟨acc, hloop, hrest⟩
      obtain ⟨hfits, ⟨d, hd, hreads⟩, hremoved, hintents⟩ := composeAll_reads hloop
      rw [hd, hremoved, hintents] at hrest
      exact ⟨hfits, (settle_reads (hkept hreads)).mp hrest⟩
    case mpr =>
      rintro ⟨hfits, hsettle⟩
      have hturn : FitsInTurn (contribution env l.1 l.2) (contributions env ls) := hfits
      obtain ⟨acc, hloop⟩ := composeAll_total hturn
      obtain ⟨_, ⟨d, hd, hreads⟩, hremoved, hintents⟩ := composeAll_reads hloop
      refine ⟨acc, hloop, ?_⟩
      rw [hd, hremoved, hintents]
      exact (settle_reads (hkept hreads)).mpr hsettle

end Cruxible.ComposedLayers
