import Cruxible.ConfigLayers

/-!
# What a silent overlay does to the settings of its base

The settings of a configuration are its version, its description and the three
options of its runtime section. Under the law of inheritance a setting that an
overlay does not state keeps the value it had below. Composition reads dumps, in
which a default is a value like any other: of the settings only the description,
whose default is `None` and leaves the dump, is inherited. The other four are
those of the last layer as it was loaded.
-/
namespace Cruxible.SilentOverlays

open JsonValue PythonDict Fallible ConfigLayers

section Inheritance

variable {α : Type}

/-- The value of a setting after the layers, base first: each layer that states
it decides, and each layer that does not leaves it alone. -/
def inherited (setting : LayerSource → Option α) (fallback : α) (layers : List LayerSource) : α :=
  layers.foldl (fun value layer => (setting layer).getD value) fallback

@[simp] theorem inherited_append_singleton (setting : LayerSource → Option α) (fallback : α)
    (layers : List LayerSource) (overlay : LayerSource) :
    inherited setting fallback (layers ++ [overlay]) =
      (setting overlay).getD (inherited setting fallback layers) := by
  simp [inherited]

/-- An overlay leaves a setting as the law wants it when it states the setting,
or when what it would inherit is the default that loading supplies. -/
def Keeps (setting : LayerSource → Option α) (fallback : α) (base : List LayerSource)
    (overlay : LayerSource) : Prop :=
  (setting overlay).isSome ∨ inherited setting fallback base = fallback

instance [DecidableEq α] (setting : LayerSource → Option α) (fallback : α)
    (base : List LayerSource) (overlay : LayerSource) :
    Decidable (Keeps setting fallback base overlay) :=
  inferInstanceAs (Decidable (_ ∨ _))

theorem loaded_eq_inherited_iff (setting : LayerSource → Option α) (fallback : α)
    (base : List LayerSource) (overlay : LayerSource) :
    (setting overlay).getD fallback = inherited setting fallback (base ++ [overlay]) ↔
      Keeps setting fallback base overlay := by
  rw [inherited_append_singleton]
  cases h : setting overlay with
  | none => simp [Keeps, h, eq_comm]
  | some v => simp [Keeps, h]

end Inheritance

/-- A stated description, as a setting whose value may be absent. -/
def statedDescription (layer : LayerSource) : Option (Option String) := layer.description.map some

/-- The law: every setting of the composed configuration is the one inherited
along the layers. -/
structure Inherits (layers : List LayerSource) (c : CoreConfig) : Prop where
  tracePayloads : c.runtime.tracePayloads = inherited LayerSource.tracePayloads .preview layers
  mutationPayloads :
    c.runtime.mutationPayloads = inherited LayerSource.mutationPayloads .metadata layers
  defaultWritePolicy :
    c.runtime.defaultWritePolicy = inherited LayerSource.defaultWritePolicy .direct layers
  version : c.version = inherited LayerSource.version "1.0" layers
  description : c.description = inherited statedDescription none layers

/-- The keys that hold settings. -/
def IsSetting : Key → Prop
  | .version | .description | .runtime => True
  | _ => False

variable {q : Key} {env : ComposerEnv} {r base : Dump} {layers : List LayerSource}

theorem get?_set_list (hq : IsSetting q) (d : Dump) (l : ListKey) (s : Section) :
    (d.set (.list l) s).get? q = d.get? q := by
  cases q <;> simp_all [IsSetting, Dict.get?_set]

theorem get?_set_map (hq : IsSetting q) (d : Dump) (m : MapKey) (s : Section) :
    (d.set (.map m) s).get? q = d.get? q := by
  cases q <;> simp_all [IsSetting, Dict.get?_set]

theorem get?_stripCanonicalRuntimeConfig (hq : IsSetting q) (d : Dump) :
    (stripCanonicalRuntimeConfig d).1.get? q = d.get? q := by
  unfold stripCanonicalRuntimeConfig
  simp only
  split_ifs with h
  · rfl
  · simp only
    rw [get?_set_list hq, get?_set_map hq]

theorem get?_stripRemovedRuntimeProviders (hq : IsSetting q) (d : Dump) (removed : List String) :
    (stripRemovedRuntimeProviders d removed).get? q = d.get? q := by
  unfold stripRemovedRuntimeProviders
  simp only
  split_ifs with h
  · rfl
  · rw [get?_set_map hq]

theorem get?_rebaseArtifactUris (hq : IsSetting q) (env : ComposerEnv) (d : Dump) (dir : String) :
    (rebaseArtifactUris env d dir).get? q = d.get? q := by
  unfold rebaseArtifactUris
  split
  · rw [get?_set_map hq]
  · rfl

theorem get?_materializeAllAdjacentQueries (hq : IsSetting q) {d : Dump}
    {intents : Dict String Value} (h : materializeAllAdjacentQueries env d intents = .ok r) :
    r.get? q = d.get? q := by
  unfold materializeAllAdjacentQueries at h
  obtain ⟨expanded, -, hrest⟩ := bind_eq_ok.mp h
  split_ifs at hrest with hc
  · cases hrest
    rw [get?_set_map hq]
  · cases hrest
    rfl

theorem get?_setCollections (hq : IsSetting q) (c : CoreConfig) (ks : List (MapKey ⊕ ListKey))
    (d : Dump) : (ks.foldl (setCollection c) d).get? q = d.get? q := by
  induction ks generalizing d with
  | nil => rfl
  | cons k ks ih =>
    rw [List.foldl_cons, ih]
    cases k with
    | inl m => exact get?_set_map hq d m _
    | inr l => exact get?_set_list hq d l _

theorem modelDump_texts (c : CoreConfig) : c.modelDump.get? .version = some (.text c.version) ∧
    c.modelDump.get? .description = c.description.map .text := by
  unfold CoreConfig.modelDump
  simp only
  constructor <;> rw [get?_set_list (by trivial), Dict.get?_set_of_ne _ _ (by decide),
    get?_setCollections (by trivial), Dict.get?_set_of_ne _ _ (by decide),
    get?_set_map (by trivial)] <;> simp [Dict.get?_set]

theorem modelDump_runtime (c : CoreConfig) :
    c.modelDump.get? .runtime = some (.options c.runtime.modelDump) := by
  unfold CoreConfig.modelDump
  simp only
  rw [get?_set_list (by trivial), Dict.get?_set_self]

theorem get?_layerData (hq : IsSetting q) (env : ComposerEnv) (stripped : Bool) (layer : Layer) :
    (layerData env stripped layer).1.get? q = layer.source.load.modelDump.get? q := by
  unfold layerData
  have hstrip : (if stripped then stripCanonicalRuntimeConfig layer.source.load.modelDump
      else (layer.source.load.modelDump, [])).1.get? q = layer.source.load.modelDump.get? q := by
    split_ifs
    · exact get?_stripCanonicalRuntimeConfig hq _
    · rfl
  cases layer.sourceDir with
  | none => exact hstrip
  | some dir => exact (get?_rebaseArtifactUris hq env _ dir).trans hstrip

/-- What the loop writes under a setting's key. -/
def overriding (base : Dump) (key : Key) (value : Section) : Section :=
  match key with
  | .runtime => .options ((optionsAt base key).update value.optionsOf)
  | _ => value

variable {result : Dump} {layer overlay : Layer} {stripped : Bool} {acc acc' : Accumulated}

theorem composeKey_get? (hq : IsSetting q) {key : Key} {value : Section}
    (h : composeKey base result key value = .ok r) :
    r.get? q = if key = q then some (overriding base q value) else result.get? q := by
  have hset : ∀ s, r = result.set key s → (key = q → s = overriding base q value) →
      r.get? q = if key = q then some (overriding base q value) else result.get? q := by
    intro s hr hs
    rw [hr, Dict.get?_set]
    split_ifs with hk
    · rw [hs hk]
    · rfl
  cases key with
  | version | description =>
    cases h
    exact hset value rfl (by rintro rfl; rfl)
  | name | extendsPath =>
    cases h
    exact hset value rfl (by rintro rfl; exact hq.elim)
  | runtime =>
    cases h
    exact hset _ rfl (by rintro rfl; rfl)
  | list l =>
    cases h
    exact hset _ rfl (by rintro rfl; exact hq.elim)
  | relationships | map m =>
    obtain ⟨merged, -, hr⟩ := bind_eq_ok.mp h
    cases hr
    exact hset _ rfl (by rintro rfl; exact hq.elim)
  | cruxibleVersion =>
    obtain ⟨_, -, hr⟩ := bind_eq_ok.mp h
    cases hr
    exact hset _ rfl (by rintro rfl; exact hq.elim)

theorem composeEntries_get? (hq : IsSetting q) {entries : List (Key × Section)}
    (hn : (entries.map Prod.fst).Nodup)
    (h : entries.foldlM (fun result e => composeKey base result e.1 e.2) result = .ok r) :
    r.get? q = (Bindings.get? entries q).elim (result.get? q)
      (fun value => some (overriding base q value)) := by
  induction entries generalizing result with
  | nil =>
    obtain rfl := foldlM_nil_eq_ok.mp h
    rfl
  | cons e entries ih =>
    obtain ⟨key, value⟩ := e
    rw [List.map_cons, List.nodup_cons] at hn
    obtain ⟨next, hstep, hrest⟩ := foldlM_cons_eq_ok.mp h
    have hnext := composeKey_get? hq hstep
    rw [ih hn.2 hrest, hnext]
    by_cases hk : key = q
    · subst hk
      simp [Bindings.get?, Bindings.get?_eq_none.mpr hn.1]
    · simp [Bindings.get?, hk]

theorem composeMapping_get? (hq : IsSetting q) {overlay : Dump}
    (h : composeMapping base overlay = .ok r) :
    r.get? q = (overlay.get? q).elim (base.get? q) (fun value => some (overriding base q value)) :=
  composeEntries_get? hq overlay.nodup h

/-- The settings of the data composed from the layers whose last is `last`. -/
structure Effective (layers : List LayerSource) (last : LayerSource) (d : Dump) : Prop where
  version : d.get? .version = some (.text last.load.version)
  description : d.get? .description = (inherited statedDescription none layers).map .text
  runtime : ∃ o, d.get? .runtime = some (.options o) ∧
    ∀ k, o.get? k = last.load.runtime.modelDump.get? k

theorem runtimeDump_isSome (r : RuntimeConfig) (k : RuntimeKey) :
    ∃ s, r.modelDump.get? k = some s := by
  cases k <;> simp [RuntimeConfig.modelDump, Dict.get?_set]

theorem effective_first (env : ComposerEnv) (stripped : Bool) (layer : Layer) :
    Effective [layer.source] layer.source (layerData env stripped layer).1 where
  version := by
    rw [get?_layerData (by trivial), (modelDump_texts _).1]
  description := by
    rw [get?_layerData (by trivial), (modelDump_texts _).2]
    cases h : layer.source.description <;> simp [inherited, statedDescription, LayerSource.load, h]
  runtime := by
    refine ⟨layer.source.load.runtime.modelDump, ?_, fun _ => rfl⟩
    rw [get?_layerData (by trivial), modelDump_runtime]

theorem effective_next {last : LayerSource} {d : Dump} (hd : Effective layers last d)
    (h : composeMapping d (layerData env stripped layer).1 = .ok r) :
    Effective (layers ++ [layer.source]) layer.source r where
  version := by
    rw [composeMapping_get? (by trivial) h, get?_layerData (by trivial), (modelDump_texts _).1]
    rfl
  description := by
    rw [composeMapping_get? (by trivial) h, get?_layerData (by trivial), (modelDump_texts _).2,
      inherited_append_singleton]
    cases hdesc : layer.source.description with
    | none => simp [LayerSource.load, statedDescription, hdesc, hd.description]
    | some s => simp [LayerSource.load, statedDescription, hdesc, overriding]
  runtime := by
    refine ⟨(optionsAt d .runtime).update layer.source.load.runtime.modelDump, ?_, ?_⟩
    · rw [composeMapping_get? (by trivial) h, get?_layerData (by trivial), modelDump_runtime]
      rfl
    · intro k
      obtain ⟨s, hs⟩ := runtimeDump_isSome layer.source.load.runtime k
      rw [Dict.get?_update, hs]
      rfl

/-- What the loop has composed after the layers `layers`. -/
def Carries (layers : List LayerSource) (acc : Accumulated) : Prop :=
  (layers = [] ∧ acc.composed = none) ∨
    ∃ init last d, layers = init ++ [last] ∧ acc.composed = some d ∧ Effective layers last d

theorem carries_composeLayer (hc : Carries layers acc)
    (h : composeLayer env stripped acc layer = .ok acc') :
    Carries (layers ++ [layer.source]) acc' := by
  unfold composeLayer at h
  simp only at h
  obtain ⟨composed, hcomposed, hrest⟩ := bind_eq_ok.mp h
  cases hrest
  right
  refine ⟨layers, layer.source, composed, rfl, rfl, ?_⟩
  rcases hc with ⟨rfl, hnone⟩ | ⟨init, last, d, -, hsome, hd⟩
  · rw [hnone] at hcomposed
    cases hcomposed
    exact effective_first env stripped layer
  · rw [hsome] at hcomposed
    exact effective_next hd hcomposed

theorem carries_composeLayers {f : Layer × Nat → Bool} {ls : List (Layer × Nat)}
    (hc : Carries layers acc)
    (h : ls.foldlM (fun acc l => composeLayer env (f l) acc l.1) acc = .ok acc') :
    Carries (layers ++ ls.map (fun l => l.1.source)) acc' := by
  induction ls generalizing layers acc with
  | nil =>
    obtain rfl := foldlM_nil_eq_ok.mp h
    simpa using hc
  | cons l ls ih =>
    obtain ⟨next, hstep, hrest⟩ := foldlM_cons_eq_ok.mp h
    have hnext := ih (carries_composeLayer hc hstep) hrest
    simpa using hnext

theorem modelValidate_runtimeDump {o : Dict RuntimeKey String} {r r' : RuntimeConfig}
    (ho : ∀ k, o.get? k = r.modelDump.get? k) (h : RuntimeConfig.modelValidate o = .ok r') :
    r' = r := by
  unfold RuntimeConfig.modelValidate at h
  rw [ho, ho, ho] at h
  simp [RuntimeConfig.modelDump, Dict.get?_set] at h
  exact h.symm

theorem composed_settings {runtime validate : Bool} {base : List Layer} {c : CoreConfig}
    (h : composeConfigSequence env runtime validate (base ++ [overlay]) = .ok c) :
    c.version = overlay.source.load.version ∧ c.runtime = overlay.source.load.runtime ∧
      c.description =
        inherited statedDescription none (base.map Layer.source ++ [overlay.source]) := by
  unfold composeConfigSequence at h
  obtain ⟨acc, hloop, hrest⟩ := bind_eq_ok.mp h
  have hcarried := carries_composeLayers
    (f := fun l => runtime && decide (l.2 ≠ (base ++ [overlay]).length - 1))
    (Or.inl ⟨rfl, rfl⟩) hloop
  have hsources : [] ++ ((base ++ [overlay]).zipIdx.map fun l => l.1.source) =
      base.map Layer.source ++ [overlay.source] := by
    rw [List.nil_append, show (fun l : Layer × Nat => l.1.source) = Layer.source ∘ Prod.fst from rfl,
      ← List.map_map, List.zipIdx_map_fst]
    simp
  rw [hsources] at hcarried
  rcases hcarried with ⟨hnil, -⟩ | ⟨init, last, d, hlast, hsome, hd⟩
  · simp at hnil
  · obtain rfl : overlay.source = last := (List.append_inj' hlast rfl).2 |> List.singleton_inj.mp
    rw [hsome] at hrest
    simp only at hrest
    obtain ⟨data, hdata, hrest⟩ := bind_eq_ok.mp hrest
    obtain ⟨composed, hvalid, hrest⟩ := bind_eq_ok.mp hrest
    have hkept : ∀ q, IsSetting q → data.get? q = d.get? q := by
      intro q hq
      rw [get?_materializeAllAdjacentQueries hq hdata, Dict.get?_erase,
        if_neg (by rintro rfl; exact hq.elim)]
      split_ifs
      · exact get?_stripRemovedRuntimeProviders hq _ _
      · rfl
    have hc : c = composed := by
      split_ifs at hrest with hv
      · obtain ⟨_, -, hrest⟩ := bind_eq_ok.mp hrest
        cases hrest
        rfl
      · cases hrest
        rfl
    subst hc
    unfold CoreConfig.modelValidate at hvalid
    obtain ⟨name, -, hvalid⟩ := bind_eq_ok.mp hvalid
    obtain ⟨rt, hrt, hvalid⟩ := bind_eq_ok.mp hvalid
    simp only at hvalid
    obtain ⟨_, -, hvalid⟩ := bind_eq_ok.mp hvalid
    cases hvalid
    obtain ⟨o, hruntime, ho⟩ := hd.runtime
    rw [optionsAt, hkept .runtime trivial, hruntime] at hrt
    refine ⟨?_, modelValidate_runtimeDump ho hrt, ?_⟩
    · simp only
      rw [hkept .version trivial, hd.version]
      rfl
    · simp only
      rw [hkept .description trivial, hd.description, Option.map_map]
      exact congrFun Option.map_id _

/-- The settings whose default is a value: composition inherits them exactly
when the overlay states each of them or would inherit the default anyway. -/
def KeepsSettings (base : List LayerSource) (overlay : LayerSource) : Prop :=
  Keeps LayerSource.tracePayloads .preview base overlay ∧
    Keeps LayerSource.mutationPayloads .metadata base overlay ∧
    Keeps LayerSource.defaultWritePolicy .direct base overlay ∧
    Keeps LayerSource.version "1.0" base overlay

instance (base : List LayerSource) (overlay : LayerSource) :
    Decidable (KeepsSettings base overlay) :=
  inferInstanceAs (Decidable (_ ∧ _))

theorem composed_inherits_iff (env : ComposerEnv) (runtime validate : Bool) (base : List Layer)
    (overlay : Layer) (c : CoreConfig)
    (h : composeConfigSequence env runtime validate (base ++ [overlay]) = .ok c) :
    Inherits (base.map Layer.source ++ [overlay.source]) c ↔
      KeepsSettings (base.map Layer.source) overlay.source := by
  obtain ⟨hversion, hruntime, hdescription⟩ := composed_settings h
  constructor
  · intro hi
    refine ⟨?_, ?_, ?_, ?_⟩
    · exact (loaded_eq_inherited_iff _ _ _ _).mp
        ((congrArg RuntimeConfig.tracePayloads hruntime).symm.trans hi.tracePayloads)
    · exact (loaded_eq_inherited_iff _ _ _ _).mp
        ((congrArg RuntimeConfig.mutationPayloads hruntime).symm.trans hi.mutationPayloads)
    · exact (loaded_eq_inherited_iff _ _ _ _).mp
        ((congrArg RuntimeConfig.defaultWritePolicy hruntime).symm.trans hi.defaultWritePolicy)
    · exact (loaded_eq_inherited_iff _ _ _ _).mp (hversion.symm.trans hi.version)
  · rintro ⟨htrace, hmutation, hpolicy, hver⟩
    constructor
    · exact (congrArg RuntimeConfig.tracePayloads hruntime).trans
        ((loaded_eq_inherited_iff _ _ _ _).mpr htrace)
    · exact (congrArg RuntimeConfig.mutationPayloads hruntime).trans
        ((loaded_eq_inherited_iff _ _ _ _).mpr hmutation)
    · exact (congrArg RuntimeConfig.defaultWritePolicy hruntime).trans
        ((loaded_eq_inherited_iff _ _ _ _).mpr hpolicy)
    · exact hversion.trans ((loaded_eq_inherited_iff _ _ _ _).mpr hver)
    · exact hdescription

/-! A proposal-only base, one overlay that says nothing of the runtime and one
that repeats what the base says. -/

/-- Paths are taken as they are and every validator accepts. -/
def plainComposer : ComposerEnv where
  rebaseArtifactUri := fun uri _ => uri
  expandNamedQuery := fun _ body _ _ => .ok body
  modelValidators := fun _ => .ok ()
  validateConfig := fun _ => .ok ()

def assetTypes : MapKey → Dict String Value
  | .entityTypes => Dict.ofList [("Asset", .object [("properties", .object [])])]
  | _ => ∅

def governedBase : Layer where
  source :=
    { version := some "2.0", name := "reference", defaultWritePolicy := some .proposalOnly,
      maps := assetTypes }

def silentOverlay : Layer where
  source := { name := "triage", extendsPath := some "../reference/config.yaml" }

def repeatingOverlay : Layer where
  source :=
    { version := some "2.0", name := "triage", extendsPath := some "../reference/config.yaml",
      defaultWritePolicy := some .proposalOnly }

/-- The composition of two layers with the plain composer, read through `f`. -/
def composedSetting {α : Type} (f : CoreConfig → α) (base overlay : Layer) : Option α :=
  (composeConfigSequence plainComposer false true ([base] ++ [overlay])).toOption.map f

theorem exists_of_composedSetting {α : Type} {f : CoreConfig → α} {base : Layer} {a : α}
    (h : composedSetting f base overlay = some a) :
    ∃ c, composeConfigSequence plainComposer false true ([base] ++ [overlay]) = .ok c ∧ f c = a := by
  unfold composedSetting at h
  cases hc : composeConfigSequence plainComposer false true ([base] ++ [overlay]) with
  | error e =>
    rw [hc] at h
    cases h
  | ok c =>
    rw [hc] at h
    exact ⟨c, rfl, Option.some.inj h⟩

theorem repeating_overlay_inherits :
    ∃ c, composeConfigSequence plainComposer false true ([governedBase] ++ [repeatingOverlay]) =
      .ok c ∧ Inherits [governedBase.source, repeatingOverlay.source] c := by
  obtain ⟨c, hc, -⟩ := exists_of_composedSetting (f := CoreConfig.version) (a := "2.0")
    (show composedSetting _ governedBase repeatingOverlay = some _ by decide +kernel)
  exact ⟨c, hc, (composed_inherits_iff plainComposer false true [governedBase] repeatingOverlay c
    hc).mpr (by decide)⟩

/-- Under a silent overlay a proposal-only base composes to direct writes. -/
theorem silent_overlay_opens_direct_writes :
    ∃ c, composeConfigSequence plainComposer false true ([governedBase] ++ [silentOverlay]) =
        .ok c ∧
      c.runtime.defaultWritePolicy = .direct ∧
      inherited LayerSource.defaultWritePolicy .direct
        [governedBase.source, silentOverlay.source] = .proposalOnly ∧
      ¬ Inherits [governedBase.source, silentOverlay.source] c := by
  obtain ⟨c, hc, hdirect⟩ := exists_of_composedSetting
    (f := fun c => c.runtime.defaultWritePolicy) (a := .direct)
    (show composedSetting _ governedBase silentOverlay = some _ by decide +kernel)
  refine ⟨c, hc, hdirect, rfl, ?_⟩
  intro hi
  have hlaw := hi.defaultWritePolicy
  rw [hdirect] at hlaw
  exact absurd hlaw (by decide)

end Cruxible.SilentOverlays
