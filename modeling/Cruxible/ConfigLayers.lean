import Cruxible.CanonicalJson
import Cruxible.PropertyValidation

/-!
# Composing configuration layers

A layer is authored as YAML, where a field may be absent. Loading it fills the
absent fields with the model's defaults, and composition works on the dumps of
the loaded layers: every field that is not `None` is in the dump, whether the
author wrote it or the model supplied it. The layers are folded base first by
`compose_mapping`, key by key, and the result is validated as a configuration
again.

The parts of a layer that composition moves without reading (the schema of an
entity type, the body of a workflow step) stay JSON values.
-/
namespace Cruxible.ConfigLayers

open JsonValue PythonDict Fallible PropertyValidation

/-- Retention of traced provider payloads and of mutation payloads. -/
inductive PayloadRetention where
  | full
  | preview
  | metadata
  deriving DecidableEq, Repr

def PayloadRetention.text : PayloadRetention → String
  | .full => "full"
  | .preview => "preview"
  | .metadata => "metadata"

def PayloadRetention.ofText? (s : String) : Option PayloadRetention :=
  if s = "full" then some .full
  else if s = "preview" then some .preview
  else if s = "metadata" then some .metadata
  else none

@[simp] theorem PayloadRetention.ofText?_text (r : PayloadRetention) :
    PayloadRetention.ofText? r.text = some r := by
  cases r <;> rfl

/-- The values that the runtime section allows for `default_write_policy`. -/
inductive DefaultWritePolicy where
  | direct
  | proposalOnly
  deriving DecidableEq, Repr

def DefaultWritePolicy.text : DefaultWritePolicy → String
  | .direct => "direct"
  | .proposalOnly => "proposal_only"

def DefaultWritePolicy.ofText? (s : String) : Option DefaultWritePolicy :=
  if s = "direct" then some .direct
  else if s = "proposal_only" then some .proposalOnly
  else none

@[simp] theorem DefaultWritePolicy.ofText?_text (p : DefaultWritePolicy) :
    DefaultWritePolicy.ofText? p.text = some p := by
  cases p <;> rfl

/-- `RuntimeConfigSchema` with its defaults. -/
structure RuntimeConfig where
  tracePayloads : PayloadRetention := .preview
  mutationPayloads : PayloadRetention := .metadata
  defaultWritePolicy : DefaultWritePolicy := .direct
  deriving DecidableEq, Repr

inductive RuntimeKey where
  | tracePayloads
  | mutationPayloads
  | defaultWritePolicy
  deriving DecidableEq, Repr

/-- `_SAFE_LIST_KEYS`. -/
inductive ListKey where
  | constraints
  | qualityChecks
  | mutationGuards
  | decisionPolicies
  | tests
  deriving DecidableEq, Repr

/-- `_KEYED_MAP_KEYS`. -/
inductive MapKey where
  | entityTypes
  | namedQueries
  | enums
  | gates
  | feedbackProfiles
  | outcomeProfiles
  | contracts
  | artifacts
  | providers
  | workflows
  deriving DecidableEq, Repr

def MapKey.text : MapKey → String
  | .entityTypes => "entity_types"
  | .namedQueries => "named_queries"
  | .enums => "enums"
  | .gates => "gates"
  | .feedbackProfiles => "feedback_profiles"
  | .outcomeProfiles => "outcome_profiles"
  | .contracts => "contracts"
  | .artifacts => "artifacts"
  | .providers => "providers"
  | .workflows => "workflows"

/-- The top-level keys of a configuration; the schema forbids any other. -/
inductive Key where
  | version
  | name
  | description
  | cruxibleVersion
  | extendsPath
  | relationships
  | runtime
  | list (l : ListKey)
  | map (m : MapKey)
  deriving DecidableEq, Repr

/-- What a layer's author wrote. An absent option is one that the YAML does not
mention; an absent collection and an empty one are the same. -/
structure LayerSource where
  version : Option String := none
  name : String
  description : Option String := none
  cruxibleVersion : Option String := none
  extendsPath : Option String := none
  tracePayloads : Option PayloadRetention := none
  mutationPayloads : Option PayloadRetention := none
  defaultWritePolicy : Option DefaultWritePolicy := none
  relationships : List Value := []
  lists : ListKey → List Value := fun _ => []
  maps : MapKey → Dict String Value := fun _ => ∅

/-- `CoreConfig`: the loaded model, in which a default is a value like any other. -/
structure CoreConfig where
  version : String := "1.0"
  name : String
  description : Option String := none
  cruxibleVersion : Option String := none
  extendsPath : Option String := none
  relationships : List Value := []
  lists : ListKey → List Value := fun _ => []
  maps : MapKey → Dict String Value := fun _ => ∅
  runtime : RuntimeConfig := {}

/-- `CoreConfig.model_validate` of an authored layer: absent fields take the
defaults of `RuntimeConfigSchema` and `CoreConfig`. -/
def LayerSource.load (s : LayerSource) : CoreConfig where
  version := s.version.getD "1.0"
  name := s.name
  description := s.description
  cruxibleVersion := s.cruxibleVersion
  extendsPath := s.extendsPath
  relationships := s.relationships
  lists := s.lists
  maps := s.maps
  runtime :=
    { tracePayloads := s.tracePayloads.getD .preview
      mutationPayloads := s.mutationPayloads.getD .metadata
      defaultWritePolicy := s.defaultWritePolicy.getD .direct }

/-- One entry of a dumped configuration. -/
inductive Section where
  | text (s : String)
  | options (o : Dict RuntimeKey String)
  | items (xs : List Value)
  | entries (m : Dict String Value)
  deriving DecidableEq

abbrev Dump := Dict Key Section

def Section.textOf : Section → String
  | .text s => s
  | _ => ""

def Section.optionsOf : Section → Dict RuntimeKey String
  | .options o => o
  | _ => ∅

def Section.itemsOf : Section → List Value
  | .items xs => xs
  | _ => []

def Section.entriesOf : Section → Dict String Value
  | .entries m => m
  | _ => ∅

/-- `dict(data.get(key, {}))` of a mapping-valued key, `[]` of a list-valued one. -/
def optionsAt (d : Dump) (k : Key) : Dict RuntimeKey String :=
  (d.get? k).elim ∅ Section.optionsOf

def itemsAt (d : Dump) (k : Key) : List Value := (d.get? k).elim [] Section.itemsOf

def entriesAt (d : Dump) (k : Key) : Dict String Value := (d.get? k).elim ∅ Section.entriesOf

/-- `exclude_none`: a field that is `None` is not in the dump. -/
def setUnlessNone (d : Dump) (k : Key) : Option String → Dump
  | none => d
  | some s => d.set k (.text s)

@[simp] theorem get?_setUnlessNone (d : Dump) (k : Key) (o : Option String) (q : Key) :
    (setUnlessNone d k o).get? q = if k = q then (o.map Section.text).or (d.get? q) else d.get? q := by
  cases o with
  | none => simp [setUnlessNone]
  | some s =>
    by_cases h : k = q
    · simp [setUnlessNone, h]
    · simp [setUnlessNone, h, Dict.get?_set]

def RuntimeConfig.modelDump (r : RuntimeConfig) : Dict RuntimeKey String :=
  ((((∅ : Dict RuntimeKey String).set .tracePayloads r.tracePayloads.text).set .mutationPayloads
    r.mutationPayloads.text).set .defaultWritePolicy r.defaultWritePolicy.text)

/-- The collections in the order of the model's fields up to `workflows`; the
runtime section and the tests follow. -/
def collectionKeys : List (MapKey ⊕ ListKey) :=
  [.inl .namedQueries, .inl .enums, .inr .constraints, .inl .gates, .inl .feedbackProfiles,
    .inl .outcomeProfiles, .inr .qualityChecks, .inr .mutationGuards, .inr .decisionPolicies,
    .inl .contracts, .inl .artifacts, .inl .providers, .inl .workflows]

def setCollection (c : CoreConfig) (d : Dump) : MapKey ⊕ ListKey → Dump
  | .inl m => d.set (.map m) (.entries (c.maps m))
  | .inr l => d.set (.list l) (.items (c.lists l))

/-- `model_dump(mode="python", by_alias=True, exclude_none=True)`. -/
def CoreConfig.modelDump (c : CoreConfig) : Dump :=
  let metadata := setUnlessNone (setUnlessNone (setUnlessNone
    (((∅ : Dump).set .version (.text c.version)).set .name (.text c.name))
    .description c.description) .cruxibleVersion c.cruxibleVersion) .extendsPath c.extendsPath
  let types := (metadata.set (.map .entityTypes) (.entries (c.maps .entityTypes))).set
    .relationships (.items c.relationships)
  let collections := collectionKeys.foldl (setCollection c) types
  (collections.set .runtime (.options c.runtime.modelDump)).set (.list .tests)
    (.items (c.lists .tests))

/-- `rel["name"]`; the schema requires a string. -/
def nameOf (rel : Value) : String :=
  match rel.field "name" with
  | .str s => s
  | _ => ""

/-- `_compose_relationships`: the overlay's names are checked against the base's. -/
def composeRelationships (baseRels overlayRels : List Value) : Except CoreError (List Value) :=
  overlayRels.foldlM (fun merged rel => do
    refuseIf (nameOf rel ∈ baseRels.map nameOf)
      (.config s!"Overlay cannot redefine upstream relationship '{nameOf rel}'")
    .ok (merged ++ [rel])) baseRels

/-- The keyed-map branch: an overlay adds children and never redefines one. -/
def composeKeyedMap (m : MapKey) (baseMap overlayMap : Dict String Value) :
    Except CoreError (Dict String Value) :=
  overlayMap.entries.foldlM (fun acc child => do
    refuseIf (acc.contains child.1 = true)
      (.config s!"Overlay cannot redefine upstream '{m.text}' entry '{child.1}'")
    .ok (acc.set child.1 child.2)) baseMap

/-- One turn of the loop of `_compose_mapping`. -/
def composeKey (base result : Dump) (key : Key) (value : Section) : Except CoreError Dump :=
  match key with
  | .extendsPath | .name | .description | .version => .ok (result.set key value)
  | .runtime =>
      .ok (result.set key (.options ((optionsAt base key).update value.optionsOf)))
  | .list _ => .ok (result.set key (.items (itemsAt base key ++ value.itemsOf)))
  | .relationships => do
      let merged ← composeRelationships (itemsAt base key) value.itemsOf
      .ok (result.set key (.items merged))
  | .map m => do
      let merged ← composeKeyedMap m (entriesAt base key) value.entriesOf
      .ok (result.set key (.entries merged))
  | .cruxibleVersion => do
      refuseIf (result.get? key ≠ none ∧ result.get? key ≠ some value)
        (.config "Overlay cannot override upstream field 'cruxible_version'")
      .ok (result.set key value)

/-- `_compose_mapping`. -/
def composeMapping (base overlay : Dump) : Except CoreError Dump :=
  overlay.entries.foldlM (fun result e => composeKey base result e.1 e.2) base

/-- `_workflow_provider_names`. -/
def workflowProviderNames (workflow : Value) : List String :=
  match workflow.field "steps" with
  | .array steps => steps.filterMap fun step =>
      match step.field "provider" with
      | .str p => if p = "" then none else some p
      | _ => none
  | _ => []

def isCanonicalWorkflow (workflow : Value) : Bool := workflow.field "type" == .str "canonical"

/-- `_strip_canonical_runtime_config`: the data without its canonical workflows
and their tests, and the providers that the removed workflows name. -/
def stripCanonicalRuntimeConfig (data : Dump) : Dump × List String :=
  let workflows := (entriesAt data (.map .workflows)).entries
  let removed := workflows.filter fun w => isCanonicalWorkflow w.2
  if removed = [] then (data, [])
  else
    let kept := Dict.ofList (workflows.filter fun w => !isCanonicalWorkflow w.2)
    let tests := (itemsAt data (.list .tests)).filter fun t =>
      !removed.any fun w => t.field "workflow" == .str w.1
    ((data.set (.map .workflows) (.entries kept)).set (.list .tests) (.items tests),
      removed.flatMap fun w => workflowProviderNames w.2)

/-- `_strip_removed_runtime_providers`. -/
def stripRemovedRuntimeProviders (data : Dump) (removedProviderNames : List String) : Dump :=
  let used := (entriesAt data (.map .workflows)).entries.flatMap fun w => workflowProviderNames w.2
  let toRemove := removedProviderNames.filter fun p => p ∉ used
  if toRemove = [] then data
  else
    data.set (.map .providers) (.entries (Dict.ofList
      ((entriesAt data (.map .providers)).entries.filter fun p => p.1 ∉ toRemove)))

/-- What composition calls and does not decide itself: path arithmetic on
artifact URIs, the expansion of one compact query, the model's own validators
and the semantic validation of the composed configuration. -/
structure ComposerEnv where
  rebaseArtifactUri : String → String → String
  expandNamedQuery : String → Value → List Value → Dict String Value → Except CoreError Value
  modelValidators : CoreConfig → Except CoreError Unit
  validateConfig : CoreConfig → Except CoreError Unit

/-- One artifact of `_rebase_artifact_uris`. -/
def rebaseArtifact (env : ComposerEnv) (dir : String) : Value → Value
  | .object fields =>
      .object (fields.map fun f =>
        match f with
        | ("uri", .str uri) => ("uri", .str (env.rebaseArtifactUri uri dir))
        | f => f)
  | v => v

/-- `_rebase_artifact_uris`. -/
def rebaseArtifactUris (env : ComposerEnv) (data : Dump) (dir : String) : Dump :=
  match data.get? (.map .artifacts) with
  | some (.entries artifacts) =>
      data.set (.map .artifacts) (.entries (Dict.ofList
        (artifacts.entries.map fun a => (a.1, rebaseArtifact env dir a.2))))
  | _ => data

/-- `materialize_all_adjacent_queries`: expand again, against the whole
composition, the queries written as "all adjacent". -/
def materializeAllAdjacentQueries (env : ComposerEnv) (data : Dump)
    (intents : Dict String Value) : Except CoreError Dump := do
  let named := entriesAt data (.map .namedQueries)
  let expanded ← intents.entries.foldlM (fun acc q =>
    if acc.contains q.1 then do
      let body ← env.expandNamedQuery q.1 q.2 (itemsAt data .relationships)
        (entriesAt data (.map .entityTypes))
      .ok (acc.set q.1 body)
    else .ok acc) named
  if intents.entries.any fun q => named.contains q.1 then
    .ok (data.set (.map .namedQueries) (.entries expanded))
  else .ok data

/-- `ResolvedConfigLayer`, with the authored text its model was loaded from. -/
structure Layer where
  source : LayerSource
  sourceDir : Option String := none
  allAdjacentQueries : Dict String Value := ∅

def requireText (o : Option String) (msg : String) : Except CoreError String :=
  match o with
  | some s => .ok s
  | none => .error (.config msg)

/-- `RuntimeConfigSchema.model_validate` of a runtime section. -/
def RuntimeConfig.modelValidate (o : Dict RuntimeKey String) : Except CoreError RuntimeConfig :=
  match (o.get? .tracePayloads).elim (some .preview) PayloadRetention.ofText?,
    (o.get? .mutationPayloads).elim (some .metadata) PayloadRetention.ofText?,
    (o.get? .defaultWritePolicy).elim (some .direct) DefaultWritePolicy.ofText? with
  | some t, some m, some p =>
      .ok { tracePayloads := t, mutationPayloads := m, defaultWritePolicy := p }
  | _, _, _ => .error (.config "Config validation failed")

/-- `CoreConfig.model_validate` of composed data. -/
def CoreConfig.modelValidate (env : ComposerEnv) (d : Dump) : Except CoreError CoreConfig := do
  let name ← requireText ((d.get? .name).map Section.textOf) "name: Field required"
  let runtime ← RuntimeConfig.modelValidate (optionsAt d .runtime)
  let config : CoreConfig := CoreConfig.mk ((d.get? .version).elim "1.0" Section.textOf) name
    ((d.get? .description).map Section.textOf) ((d.get? .cruxibleVersion).map Section.textOf)
    ((d.get? .extendsPath).map Section.textOf) (itemsAt d .relationships)
    (fun l => itemsAt d (.list l)) (fun m => entriesAt d (.map m)) runtime
  env.modelValidators config
  .ok config

/-- The data that one layer contributes. `stripped` says that the composition is
for a runtime and the layer is not its last. -/
def layerData (env : ComposerEnv) (stripped : Bool) (layer : Layer) : Dump × List String :=
  let data := layer.source.load.modelDump
  let (data, removed) := if stripped then stripCanonicalRuntimeConfig data else (data, [])
  (layer.sourceDir.elim data (rebaseArtifactUris env data), removed)

/-- The state of the loop of `compose_config_sequence`. -/
structure Accumulated where
  composed : Option Dump := none
  removedProviderNames : List String := []
  intents : Dict String Value := ∅

/-- One turn of the loop of `compose_config_sequence`. -/
def composeLayer (env : ComposerEnv) (stripped : Bool) (acc : Accumulated) (layer : Layer) :
    Except CoreError Accumulated := do
  let (data, removed) := layerData env stripped layer
  let composed ← acc.composed.elim (.ok data) fun base => composeMapping base data
  .ok (Accumulated.mk (some composed) (acc.removedProviderNames ++ removed)
    (acc.intents.update layer.allAdjacentQueries))

/-- `compose_config_sequence`. In a runtime composition every layer but the last
loses its canonical workflows. -/
def composeConfigSequence (env : ComposerEnv) (runtime validate : Bool) (layers : List Layer) :
    Except CoreError CoreConfig := do
  let acc ← layers.zipIdx.foldlM (fun acc l =>
    composeLayer env (runtime && decide (l.2 ≠ layers.length - 1)) acc l.1) {}
  match acc.composed with
  | none => .error (.config "Config composition requires at least one layer")
  | some data =>
      let data := if runtime then stripRemovedRuntimeProviders data acc.removedProviderNames
        else data
      let data ← materializeAllAdjacentQueries env (data.erase .extendsPath) acc.intents
      let composed ← CoreConfig.modelValidate env data
      if validate then env.validateConfig composed
      .ok composed

end Cruxible.ConfigLayers
