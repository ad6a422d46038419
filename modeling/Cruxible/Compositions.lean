import Cruxible.ComposedLayers

/-!
# What composition keeps of its layers

A composition adds and never redefines. It fails when a later layer defines what
an earlier one defines, and when the merged configuration does not validate;
otherwise every section holds the layers' entries, the list sections in the
layers' order. Two things are changed on the way: artifact URIs are rebased onto
the directory of their layer, and a query written as "all adjacent" is expanded
again against the merged relationships, so that a base query comes to include
what an overlay adds. Composing in two stages expands such a query twice, and
the second expansion replaces the first.
-/
namespace Cruxible.Compositions

open JsonValue PythonDict Fallible ConfigLayers MergedConfigs ComposedLayers
open PropertyValidation hiding CoreConfig

theorem flagged_false (layers : List Layer) :
    flagged false layers = layers.map fun l => (false, l) := by
  simp only [flagged, Bool.false_and]
  rw [show (fun l : Layer × Nat => (false, l.1)) = (fun l => (false, l)) ∘ Prod.fst from rfl,
    ← List.map_map, List.zipIdx_map_fst]

/-- The intents of the layers, the later ones over the earlier. -/
def layerIntents (layers : List Layer) : Dict String Value :=
  layers.foldl (fun intents l => intents.update l.allAdjacentQueries) ∅

theorem intentsOf_flagged_false (layers : List Layer) :
    intentsOf ∅ (flagged false layers) = layerIntents layers := by
  rw [flagged_false, intentsOf, layerIntents, List.foldl_map]

theorem contributions_flagged_false (env : ComposerEnv) (layers : List Layer) :
    contributions env (flagged false layers) = layers.map (contribution env false) := by
  rw [flagged_false, contributions, List.map_map]
  rfl

/-- An entry of a layer as composition reads it: artifact URIs are relative to
the layer's directory. -/
def contributedEntry (env : ComposerEnv) (layer : Layer) (m : MapKey) (k : String) : Option Value :=
  ((layer.source.maps m).get? k).map fun v =>
    match m, layer.sourceDir with
    | .artifacts, some dir => rebaseArtifact env dir v
    | _, _ => v

theorem contribution_get? (env : ComposerEnv) (layer : Layer) (m : MapKey) (k : String) :
    ((contribution env false layer).maps m).get? k = contributedEntry env layer m k := by
  unfold contribution contributedEntry
  cases hdir : layer.sourceDir with
  | none =>
    cases m <;> simp [LayerSource.load]
  | some dir =>
    cases m with
    | artifacts => simp [rebased, withMap, LayerSource.load, Dict.get?_ofList_map]
    | entityTypes | namedQueries | enums | gates | feedbackProfiles | outcomeProfiles | contracts
    | providers | workflows => simp [rebased, withMap, LayerSource.load]

theorem contribution_keys (env : ComposerEnv) (layer : Layer) (m : MapKey) :
    ((contribution env false layer).maps m).keys = (layer.source.maps m).keys := by
  unfold contribution
  cases hdir : layer.sourceDir with
  | none => rfl
  | some dir =>
    cases m with
    | artifacts =>
      have hkeys := Dict.keys_map_values (layer.source.maps .artifacts).entries
        (rebaseArtifact env dir)
      have hentries := Dict.entries_ofList (hkeys ▸ (layer.source.maps .artifacts).nodup)
      simp only [Bool.false_eq_true, if_false, Option.elim_some, rebased, withMap,
        LayerSource.load, Function.update_self, Dict.keys, hentries, hkeys]
    | entityTypes | namedQueries | enums | gates | feedbackProfiles | outcomeProfiles | contracts
    | providers | workflows => simp [rebased, withMap, LayerSource.load]

variable {env : ComposerEnv} {c merged : CoreConfig} {layers : List Layer} {validate : Bool}
  {intents : Dict String Value}

theorem fits_contribution {a b : Layer} :
    Fits (contribution env false a) (contribution env false b) ↔
      Fits a.source.load b.source.load := by
  have hrels : ∀ l : Layer, (contribution env false l).relationships = l.source.relationships := by
    intro l
    unfold contribution
    cases l.sourceDir <;> rfl
  have hstamp : ∀ l : Layer,
      (contribution env false l).cruxibleVersion = l.source.cruxibleVersion := by
    intro l
    unfold contribution
    cases l.sourceDir <;> rfl
  simp only [Fits, Redefines, StampsDiffer, contribution_keys, hrels, hstamp, LayerSource.load]

theorem foldl_extend_sections {cs : List CoreConfig} (h : FitsInTurn c cs) :
    (∀ m, ((cs.foldl extend c).maps m).entries =
      (c :: cs).flatMap fun b => (b.maps m).entries) ∧
    (cs.foldl extend c).relationships = ((c :: cs).flatMap fun b => b.relationships) ∧
    ∀ l, (cs.foldl extend c).lists l = (c :: cs).flatMap fun b => b.lists l := by
  induction cs generalizing c with
  | nil => simp
  | cons b cs ih =>
    have ⟨hmaps, hrels, hlists⟩ := ih h.2
    refine ⟨?_, ?_, ?_⟩
    · intro m
      have hdisjoint : ∀ k ∈ (b.maps m).keys, k ∉ (c.maps m).keys := fun k hb hc =>
        h.1.1 (.inl ⟨m, k, hc, hb⟩)
      rw [List.foldl_cons, hmaps m, List.flatMap_cons, extend, Dict.entries_update hdisjoint]
      simp only [List.flatMap_cons, List.append_assoc]
    · rw [List.foldl_cons, hrels, List.flatMap_cons, extend]
      simp only [List.flatMap_cons, List.append_assoc]
    · intro l
      rw [List.foldl_cons, hlists l, List.flatMap_cons, extend]
      simp only [List.flatMap_cons, List.append_assoc]

/-- A later layer defines what an earlier one defines. -/
def Redefined (layers : List Layer) : Prop :=
  ∃ earlier later, [earlier, later].Sublist layers ∧
    Redefines earlier.source.load later.source.load

/-- The merged configuration does not validate, or one of its queries does not
expand. -/
def MergeFails (env : ComposerEnv) (validate : Bool) (layers : List Layer) : Prop :=
  ∃ merged ∈ mergedConfig env false layers,
    ∃ e, settle env validate (layerIntents layers) merged = .error e

/-- No two layers carry different version stamps. -/
def StampsAgree (layers : List Layer) : Prop :=
  ∀ a ∈ layers, ∀ b ∈ layers, ¬StampsDiffer a.source.load b.source.load

/-- The composition holds what its layers contribute and nothing else. -/
structure Conserves (env : ComposerEnv) (layers : List Layer) (c : CoreConfig) : Prop where
  keys : ∀ m, (c.maps m).keys = layers.flatMap fun l => (l.source.maps m).keys
  entries : ∀ layer ∈ layers, ∀ m k v, contributedEntry env layer m k = some v →
    (m = .namedQueries → (layerIntents layers).get? k = none) → (c.maps m).get? k = some v
  /-- A query with an intent is what its intent expands to in the composition. -/
  generated : ∀ k body v, (layerIntents layers).get? k = some body →
    (c.maps .namedQueries).get? k = some v →
    env.expandNamedQuery k body c.relationships (c.maps .entityTypes) = .ok v
  relationships : c.relationships = layers.flatMap fun l => l.source.relationships
  lists : ∀ l, c.lists l = layers.flatMap fun layer => layer.source.lists l

theorem compose_eq_ok :
    composeConfigSequence env false validate layers = .ok c ↔
      (layers.Pairwise fun a b => Fits a.source.load b.source.load) ∧
        ∃ merged ∈ mergedConfig env false layers,
          settle env validate (layerIntents layers) merged = .ok c := by
  rw [composeConfigSequence_eq_ok, contributions_flagged_false, intentsOf_flagged_false,
    List.pairwise_map]
  simp only [fits_contribution]

theorem settle_eq_ok (h : settle env validate intents merged = .ok c) :
    ∃ queries, Regenerated env merged.relationships (merged.maps .entityTypes) intents
      (merged.maps .namedQueries) queries ∧ c = withMap merged .namedQueries queries := by
  unfold settle at h
  dsimp only at h
  have ⟨composed, hcomposed, hrest⟩ := bind_eq_ok.mp h
  have ⟨_, _, hlast⟩ := bind_eq_ok.mp hrest
  have hc : c = composed := by
    split_ifs at hlast with hv
    · have ⟨_, _, hr⟩ := bind_eq_ok.mp hlast
      exact (Except.ok.inj hr).symm
    · exact (Except.ok.inj hlast).symm
  have ⟨queries, hqueries, hset⟩ := bind_eq_ok.mp hcomposed
  exact ⟨queries, regenerateQueries_eq_ok.mp hqueries, hc.trans (Except.ok.inj hset).symm⟩

theorem mergedConfig_cons (env : ComposerEnv) (l : Layer) (ls : List Layer) :
    mergedConfig env false (l :: ls) = some
      { (ls.map (contribution env false)).foldl extend (contribution env false l) with
        extendsPath := none } := by
  unfold mergedConfig
  rw [contributions_flagged_false]
  rfl

variable {queries : Dict String Value}

theorem settle_of_queries (validate : Bool)
    (hqueries : regenerateQueries env merged.relationships (merged.maps .entityTypes) intents
      (merged.maps .namedQueries) = .ok queries)
    (hmodel : env.modelValidators (withMap merged .namedQueries queries) = .ok ())
    (hvalid : env.validateConfig (withMap merged .namedQueries queries) = .ok ()) :
    settle env validate intents merged = .ok (withMap merged .namedQueries queries) := by
  unfold settle regenerate
  rw [hqueries]
  cases validate with
  | false => simp [bind, Except.bind, hmodel]
  | true => simp [bind, Except.bind, hmodel, hvalid]

theorem mergedConfig_sections (hfits : layers.Pairwise fun a b => Fits a.source.load b.source.load)
    (h : merged ∈ mergedConfig env false layers) :
    (∀ m, (merged.maps m).entries =
      layers.flatMap fun l => ((contribution env false l).maps m).entries) ∧
    (merged.relationships = layers.flatMap fun l => l.source.relationships) ∧
    ∀ k, merged.lists k = layers.flatMap fun l => l.source.lists k := by
  have hrels : ∀ l : Layer, (contribution env false l).relationships = l.source.relationships := by
    intro l
    unfold contribution
    cases l.sourceDir <;> rfl
  have hlists : ∀ (l : Layer) k, (contribution env false l).lists k = l.source.lists k := by
    intro l k
    unfold contribution
    cases l.sourceDir <;> rfl
  cases layers with
  | nil => cases h
  | cons l ls =>
    rw [mergedConfig_cons] at h
    obtain rfl := Option.some.inj h
    have hturn : FitsInTurn (contribution env false l) (ls.map (contribution env false)) := by
      rw [fitsInTurn_iff, ← List.map_cons, List.pairwise_map]
      simpa only [fits_contribution] using hfits
    have ⟨hmaps, hrelationships, hsections⟩ := foldl_extend_sections hturn
    refine ⟨?_, ?_, ?_⟩
    · intro m
      have hm := hmaps m
      rw [← List.map_cons, List.flatMap_map] at hm
      exact hm
    · rw [← List.map_cons, List.flatMap_map] at hrelationships
      simpa only [hrels] using hrelationships
    · intro k
      have hk := hsections k
      rw [← List.map_cons, List.flatMap_map] at hk
      simpa only [hlists] using hk

theorem compose_conserves (h : composeConfigSequence env false validate layers = .ok c) :
    Conserves env layers c := by
  obtain ⟨hfits, merged, hmerged, hsettle⟩ := compose_eq_ok.mp h
  obtain ⟨queries, hqueries, hc⟩ := settle_eq_ok hsettle
  obtain ⟨hmaps, hrels, hlists⟩ := mergedConfig_sections hfits hmerged
  have hkeys : ∀ m, (merged.maps m).keys = layers.flatMap fun l => (l.source.maps m).keys := by
    intro m
    rw [Dict.keys, hmaps m, List.map_flatMap]
    apply List.flatMap_congr
    intro l _
    exact contribution_keys env l m
  have hother : ∀ m, m ≠ .namedQueries → c.maps m = merged.maps m := by
    intro m hm
    rw [hc]
    simp [withMap, hm]
  have hnamed : c.maps .namedQueries = queries := by
    rw [hc]
    simp [withMap]
  have hentry : ∀ layer ∈ layers, ∀ m k v, contributedEntry env layer m k = some v →
      (merged.maps m).get? k = some v := by
    intro layer hlayer m k v hv
    apply Dict.get?_of_mem
    rw [hmaps m]
    rw [← contribution_get?] at hv
    exact List.mem_flatMap.mpr ⟨layer, hlayer, Dict.mem_of_get? hv⟩
  constructor
  case keys =>
    intro m
    rw [← hkeys m]
    by_cases hm : m = .namedQueries
    · rw [hm, hnamed, hqueries.keys]
    · rw [hother m hm]
  case entries =>
    intro layer hlayer m k v hv hauthored
    have hmerged := hentry layer hlayer m k v hv
    by_cases hm : m = .namedQueries
    · subst hm
      rw [hnamed, hqueries.authored k (hauthored rfl), hmerged]
    · rw [hother m hm, hmerged]
  case generated =>
    intro k body v hbody hv
    rw [hnamed] at hv
    have hmem : k ∈ (merged.maps .namedQueries).keys := by
      rw [← hqueries.keys]
      exact Dict.mem_keys.mpr ⟨v, hv⟩
    obtain ⟨w, hw, hquery⟩ := hqueries.generated k body hbody hmem
    rw [hv] at hquery
    rw [hother .entityTypes (by decide), hc, Option.some.inj hquery]
    exact hw
  case relationships => rw [hc, ← hrels]; rfl
  case lists =>
    intro l
    rw [hc, ← hlists]
    rfl

/-- **Composition is conservative.** It fails when it is given no layer, when a
later layer redefines, and when the merged configuration does not validate. It
fails for no other reason as long as the layers' stamps agree. What it returns
holds what the layers contribute. -/
theorem composition_exact (env : ComposerEnv) (validate : Bool) (layers : List Layer) :
    (layers = [] ∨ Redefined layers ∨ MergeFails env validate layers →
      ∃ e, composeConfigSequence env false validate layers = .error e) ∧
    ((∃ e, composeConfigSequence env false validate layers = .error e) → StampsAgree layers →
      layers = [] ∨ Redefined layers ∨ MergeFails env validate layers) ∧
    ∀ c, composeConfigSequence env false validate layers = .ok c → Conserves env layers c := by
  refine ⟨?_, ?_, fun c => compose_conserves⟩
  · intro hfails
    cases hrun : composeConfigSequence env false validate layers with
    | error e => exact ⟨e, rfl⟩
    | ok c =>
        have ⟨hfits, merged, hmerged, hsettle⟩ := compose_eq_ok.mp hrun
        rcases hfails with hnil | ⟨a, b, hsub, hredefines⟩ | ⟨merged', hmerged', e, he⟩
        · subst hnil
          cases hmerged
        · exact absurd hredefines (List.pairwise_iff_forall_sublist.mp hfits hsub).1
        · obtain rfl := Option.some.inj (hmerged.symm.trans hmerged')
          rw [hsettle] at he
          cases he
  · intro ⟨e, he⟩ hstamps
    by_contra hfine
    rw [not_or, not_or] at hfine
    have ⟨hne, hkept, hmerges⟩ := hfine
    have hfits : layers.Pairwise fun a b => Fits a.source.load b.source.load := by
      apply List.pairwise_iff_forall_sublist.mpr
      intro a b hsub
      refine ⟨fun h => hkept ⟨a, b, hsub, h⟩, hstamps a ?_ b ?_⟩
      · exact hsub.subset List.mem_cons_self
      · exact hsub.subset (List.mem_cons_of_mem _ List.mem_cons_self)
    cases layers with
    | nil => exact hne rfl
    | cons l ls =>
        have hmerged := mergedConfig_cons env l ls
        cases hsettle : settle env validate (layerIntents (l :: ls)) _ with
        | error e' => exact hmerges ⟨_, hmerged, e', hsettle⟩
        | ok c =>
            have hok := compose_eq_ok.mpr ⟨hfits, _, hmerged, hsettle⟩
            rw [he] at hok
            cases hok

/-! A base with a context dump of its work items, and an overlay that adds a
relationship which touches them. -/

structure RelInfo where
  name : String
  fromEntity : String
  toEntity : String

def textAt (v : Value) (k : String) : String :=
  match v with
  | .object fields =>
      match fields.lookup k with
      | some (.str s) => s
      | _ => ""
  | _ => ""

/-- `_expanded_relationship_index`. -/
def expandedRelationshipIndex (relationships : List Value) : Dict String RelInfo :=
  Dict.ofList (relationships.map fun rel =>
    (textAt rel "name", RelInfo.mk (textAt rel "name") (textAt rel "from") (textAt rel "to")))

/-- `_include_entry` without a cap. -/
def includeEntry (fromRef relationship direction : String) : Value :=
  .object [("from", .str fromRef), ("relationship", .str relationship),
    ("direction", .str direction), ("many", .bool true)]

/-- `_all_adjacent_includes`. -/
def allAdjacentIncludes (anchor fromRef : String) (relIndex : Dict String RelInfo) :
    Dict String Value :=
  relIndex.entries.foldl (fun includes r =>
    if anchor ≠ r.2.fromEntity ∧ anchor ≠ r.2.toEntity then includes
    else if r.2.fromEntity = r.2.toEntity then
      (includes.set (r.1 ++ "_out") (includeEntry fromRef r.1 "outgoing")).set (r.1 ++ "_in")
        (includeEntry fromRef r.1 "incoming")
    else if anchor = r.2.fromEntity then includes.set r.1 (includeEntry fromRef r.1 "outgoing")
    else includes.set r.1 (includeEntry fromRef r.1 "incoming")) ∅

/-- `_adjacent_relationship_names`. -/
def adjacentRelationshipNames (anchor : String) (relIndex : Dict String RelInfo) : List String :=
  (relIndex.entries.filter fun r =>
    decide (anchor = r.2.fromEntity ∨ anchor = r.2.toEntity)).map Prod.fst

/-- What `_expand_named_query` makes of a traversal body with a result type, an
entry point, "include: all_adjacent" and no other key. -/
def contextDump (entryPoint returns : String) (relationships : List Value) : Value :=
  let relIndex := expandedRelationshipIndex relationships
  let includes := allAdjacentIncludes entryPoint "$entry" relIndex
  .object ([("mode", .str "traversal"), ("entry_point", .str entryPoint), ("returns", .str returns),
    ("result_shape", .str "path"),
    ("traversal", .array [.object [("relationship",
      .array ((adjacentRelationshipNames entryPoint relIndex).map .str)),
      ("direction", .str "both"), ("as", .str "context")]])] ++
    (if includes.entries = [] then [] else [("include", .object includes.entries)]) ++
    [("allow_relationship_state_override", .bool true), ("max_paths", .int 500),
      ("max_paths_per_result", .int 50)])

def contextBody (entryPoint returns : String) : Value :=
  .object [("mode", .str "traversal"), ("entry_point", .str entryPoint), ("returns", .str returns),
    ("include", .str "all_adjacent")]

/-- Context dumps are expanded; validators accept and paths are taken as they are. -/
def contextComposer : ComposerEnv where
  rebaseArtifactUri := fun uri _ => uri
  expandNamedQuery := fun _ body relationships _ =>
    if body = contextBody (textAt body "entry_point") (textAt body "returns") then
      .ok (contextDump (textAt body "entry_point") (textAt body "returns") relationships)
    else .error (.config "Query expansion failed")
  modelValidators := fun _ => .ok ()
  validateConfig := fun _ => .ok ()

def relationshipOf (name source target : String) : Value :=
  .object [("name", .str name), ("from", .str source), ("to", .str target)]

def ownedBy : Value := relationshipOf "work_item_owned_by_actor" "WorkItem" "Actor"

def targets : Value := relationshipOf "work_item_targets_release_line" "WorkItem" "ReleaseLine"

def contextQueries (relationships : List Value) : MapKey → Dict String Value
  | .namedQueries =>
      Dict.ofList [("work_item_context", contextDump "WorkItem" "AnyEntity" relationships)]
  | _ => ∅

def contextBase : Layer where
  source :=
    { name := "base", relationships := [ownedBy], maps := contextQueries [ownedBy] }
  allAdjacentQueries :=
    Dict.ofList [("work_item_context", contextBody "WorkItem" "AnyEntity")]

def targetsOverlay : Layer where
  source :=
    { name := "overlay", extendsPath := some "base.yaml", relationships := [targets] }

theorem fits_of_relationships {base overlay : CoreConfig} (hmaps : ∀ m, overlay.maps m = ∅)
    (hstamp : overlay.cruxibleVersion = none)
    (hnames : ∀ n ∈ overlay.relationships.map nameOf, n ∉ base.relationships.map nameOf) :
    Fits base overlay := by
  constructor
  · rintro (⟨m, k, _, hoverlay⟩ | ⟨n, hbase, hoverlay⟩)
    · rw [hmaps m] at hoverlay
      cases hoverlay
    · exact hnames n hoverlay hbase
  · rintro ⟨_, _, t, ht, _⟩
    rw [hstamp] at ht
    cases ht

@[simp] theorem nameOf_relationshipOf (name source target : String) :
    nameOf (relationshipOf name source target) = name := by
  simp [nameOf, relationshipOf, Value.field]

/-- The base's query changes: composed, it also lists the overlay's relationship. -/
theorem overlay_extends_context_dump :
    ∃ c, composeConfigSequence contextComposer false true [contextBase, targetsOverlay] = .ok c ∧
      (contextBase.source.maps .namedQueries).get? "work_item_context" =
        some (contextDump "WorkItem" "AnyEntity" [ownedBy]) ∧
      (c.maps .namedQueries).get? "work_item_context" =
        some (contextDump "WorkItem" "AnyEntity" [ownedBy, targets]) ∧
      contextDump "WorkItem" "AnyEntity" [ownedBy] ≠
        contextDump "WorkItem" "AnyEntity" [ownedBy, targets] := by
  have hqueries : regenerateQueries contextComposer [ownedBy, targets] ∅
      (layerIntents [contextBase, targetsOverlay]) (contextQueries [ownedBy] .namedQueries) =
        .ok (contextQueries [ownedBy, targets] .namedQueries) := by
    decide +kernel
  have hfits : [contextBase, targetsOverlay].Pairwise fun a b => Fits a.source.load b.source.load :=
    List.pairwise_pair.mpr (fits_of_relationships (fun _ => rfl) rfl (by
      simp [contextBase, targetsOverlay, LayerSource.load, ownedBy, targets]))
  have hmerged := mergedConfig_cons contextComposer contextBase [targetsOverlay]
  refine ⟨_, compose_eq_ok.mpr ⟨hfits, _, hmerged, settle_of_queries true hqueries rfl rfl⟩,
    by decide +kernel, by decide +kernel, by decide +kernel⟩

/-- A configuration written out in full. -/
def authored (c : CoreConfig) : LayerSource where
  version := some c.version
  name := c.name
  description := c.description
  cruxibleVersion := c.cruxibleVersion
  extendsPath := c.extendsPath
  tracePayloads := some c.runtime.tracePayloads
  mutationPayloads := some c.runtime.mutationPayloads
  defaultWritePolicy := some c.runtime.defaultWritePolicy
  relationships := c.relationships
  lists := c.lists
  maps := c.maps

/-- The layer that holds a composed configuration, with the intents that the
composition leaves on it and without a source directory. -/
def composedLayer (c : CoreConfig) (intents : Dict String Value) : Layer where
  source := authored c
  allAdjacentQueries := intents

theorem update_empty (intents : Dict String Value) :
    (∅ : Dict String Value).update intents = intents := Dict.ofList_entries intents

/-- The second expansion replaces the first: expanding the queries of the whole
gives the same, whether or not those of a part were expanded before. -/
theorem regenerated_twice {rels rels' : List Value}
    {types types' intents' named named' result : Dict String Value}
    (hfirst : Regenerated env rels types intents named queries)
    (hsecond : Regenerated env rels' types' (intents.update intents') (queries.update named')
      result) :
    Regenerated env rels' types' (intents.update intents') (named.update named') result := by
  have hkeys : (queries.update named').keys = (named.update named').keys :=
    Dict.keys_update_congr named' hfirst.keys
  constructor
  case keys => rw [hsecond.keys, hkeys]
  case authored =>
    intro k hk
    have hnone : intents.get? k = none := by
      rw [Dict.get?_update] at hk
      exact (Option.or_eq_none_iff.mp hk).2
    rw [hsecond.authored k hk, Dict.get?_update, Dict.get?_update, hfirst.authored k hnone]
  case generated =>
    intro k body hbody hmem
    exact hsecond.generated k body hbody (hkeys ▸ hmem)

theorem withMap_congr {d : CoreConfig} (queries : Dict String Value)
    (hmaps : ∀ m, m ≠ .namedQueries → c.maps m = d.maps m) (hrest : { c with maps := d.maps } = d) :
    withMap c .namedQueries queries = withMap d .namedQueries queries := by
  have hupdate : Function.update c.maps .namedQueries queries =
      Function.update d.maps .namedQueries queries := by
    funext m
    by_cases hm : m = .namedQueries
    · simp [hm]
    · simp [hm, hmaps m hm]
  rw [withMap, hupdate]
  rw [← hrest]
  rfl

/-- **Composition is associative.** Composing three layers at once and composing
the third onto the composition of the first two give the same configuration and
the same intents; that configuration holds what the layers contribute and nothing
else, and every query with an intent is what its intent expands to against its
relationships and entity types. -/
theorem composition_associative (env : ComposerEnv) (validate : Bool) (a b c : Layer)
    (ab abc nested : CoreConfig) (hab : composeConfigSequence env false validate [a, b] = .ok ab)
    (habc : composeConfigSequence env false validate [a, b, c] = .ok abc)
    (hnested : composeConfigSequence env false validate
      [composedLayer ab (layerIntents [a, b]), c] = .ok nested) :
    abc = nested ∧
      layerIntents [a, b, c] = layerIntents [composedLayer ab (layerIntents [a, b]), c] ∧
      Conserves env [a, b, c] abc := by
  have hintents : layerIntents [composedLayer ab (layerIntents [a, b]), c] =
      layerIntents [a, b, c] := by
    simp only [layerIntents, List.foldl_cons, List.foldl_nil, composedLayer, update_empty]
  have ⟨_, mergedab, hmergedab, hsettleab⟩ := compose_eq_ok.mp hab
  have ⟨_, merged, hmerged, hsettle⟩ := compose_eq_ok.mp habc
  have ⟨_, mergednested, hmergednested, hsettlenested⟩ := compose_eq_ok.mp hnested
  rw [mergedConfig_cons] at hmergedab hmerged hmergednested
  obtain rfl := Option.some.inj hmergedab
  obtain rfl := Option.some.inj hmerged
  obtain rfl := Option.some.inj hmergednested
  have ⟨qab, hqab, heqab⟩ := settle_eq_ok hsettleab
  have ⟨q, hq, heq⟩ := settle_eq_ok hsettle
  have ⟨qnested, hqnested, heqnested⟩ := settle_eq_ok hsettlenested
  rw [hintents] at hqnested
  have hmaps : ∀ m, m ≠ .namedQueries →
      ab.maps m = (extend (contribution env false a) (contribution env false b)).maps m := by
    intro m hm
    rw [heqab]
    simp [withMap, hm]
  have hnamed : ab.maps .namedQueries = qab := by
    rw [heqab]
    simp [withMap]
  have hrels : ab.relationships =
      (extend (contribution env false a) (contribution env false b)).relationships := by
    rw [heqab]
    rfl
  change Regenerated env (ab.relationships ++ (contribution env false c).relationships)
    ((ab.maps .entityTypes).update ((contribution env false c).maps .entityTypes))
    ((layerIntents [a, b]).update c.allAdjacentQueries)
    ((ab.maps .namedQueries).update ((contribution env false c).maps .namedQueries))
    qnested at hqnested
  rw [hrels, hmaps .entityTypes (by decide), hnamed] at hqnested
  have hqueries : q = qnested := hq.unique (regenerated_twice hqab hqnested)
  subst hqueries
  have hsame : abc = nested := by
    rw [heq, heqnested]
    apply withMap_congr
    case hmaps =>
      intro m hm
      change ((extend (contribution env false a) (contribution env false b)).maps m).update
        ((contribution env false c).maps m) =
          (ab.maps m).update ((contribution env false c).maps m)
      rw [hmaps m hm]
    case hrest =>
      rw [heqab]
      rfl
  exact ⟨hsame, hintents.symm, compose_conserves habc⟩

def depends : Value := relationshipOf "work_item_depends_on_work_item" "WorkItem" "WorkItem"

def dependsOverlay : Layer where
  source :=
    { name := "planning", extendsPath := some "overlay.yaml", relationships := [depends] }

theorem context_dump_composes (hne : layers ≠ [])
    (hfits : layers.Pairwise fun a b => Fits a.source.load b.source.load)
    (hintents : layerIntents layers = contextBase.allAdjacentQueries) :
    ∃ c, composeConfigSequence contextComposer false true layers = .ok c := by
  have hexpand : ∀ rels types named, ∃ queries, regenerateQueries contextComposer rels types
      (layerIntents layers) named = .ok queries := by
    intro rels types named
    apply regenerateEntries_total
    intro q hq _
    rw [hintents] at hq
    obtain rfl := List.mem_singleton.mp hq
    refine ⟨contextDump "WorkItem" "AnyEntity" rels, ?_⟩
    have hbody : textAt (contextBody "WorkItem" "AnyEntity") "entry_point" = "WorkItem" ∧
        textAt (contextBody "WorkItem" "AnyEntity") "returns" = "AnyEntity" := by
      decide
    simp only [contextComposer, hbody, if_true]
  cases layers with
  | nil => exact absurd rfl hne
  | cons l ls =>
    have hmerged := mergedConfig_cons contextComposer l ls
    have ⟨queries, hqueries⟩ := hexpand
      ((ls.map (contribution contextComposer false)).foldl extend
        (contribution contextComposer false l)).relationships
      (((ls.map (contribution contextComposer false)).foldl extend
        (contribution contextComposer false l)).maps .entityTypes)
      (((ls.map (contribution contextComposer false)).foldl extend
        (contribution contextComposer false l)).maps .namedQueries)
    exact ⟨_, compose_eq_ok.mpr ⟨hfits, _, hmerged, settle_of_queries true hqueries rfl rfl⟩⟩

theorem context_dump_composes_in_stages :
    ∃ ab abc nested,
      composeConfigSequence contextComposer false true [contextBase, targetsOverlay] = .ok ab ∧
      composeConfigSequence contextComposer false true
        [contextBase, targetsOverlay, dependsOverlay] = .ok abc ∧
      composeConfigSequence contextComposer false true
        [composedLayer ab (layerIntents [contextBase, targetsOverlay]), dependsOverlay] =
          .ok nested ∧
      abc = nested ∧ Conserves contextComposer [contextBase, targetsOverlay, dependsOverlay] abc := by
  have htargets : Fits contextBase.source.load targetsOverlay.source.load :=
    fits_of_relationships (fun _ => rfl) rfl (by
      simp [contextBase, targetsOverlay, LayerSource.load, ownedBy, targets])
  have hdepends : ∀ base : CoreConfig, base.relationships ⊆ [ownedBy, targets] →
      Fits base dependsOverlay.source.load := by
    intro base hbase
    apply fits_of_relationships (fun _ => rfl) rfl
    intro n hn hmem
    have hold := List.map_subset nameOf hbase hmem
    simp [dependsOverlay, LayerSource.load, depends, ownedBy, targets] at hn hold
    rcases hold with h | h <;> rw [h] at hn <;> exact absurd hn (by decide)
  have ⟨ab, hab⟩ := context_dump_composes (List.cons_ne_nil _ _)
    (List.pairwise_pair.mpr htargets) rfl
  have hthree : [contextBase, targetsOverlay, dependsOverlay].Pairwise fun a b =>
      Fits a.source.load b.source.load := by
    have hbase := hdepends contextBase.source.load (by simp [contextBase, LayerSource.load])
    have hover := hdepends targetsOverlay.source.load (by simp [targetsOverlay, LayerSource.load])
    simp [htargets, hbase, hover]
  have ⟨abc, habc⟩ := context_dump_composes (List.cons_ne_nil _ _) hthree rfl
  have hpart : Fits ab dependsOverlay.source.load := by
    apply hdepends
    rw [(compose_conserves hab).relationships]
    simp [contextBase, targetsOverlay]
  have hpair : [composedLayer ab (layerIntents [contextBase, targetsOverlay]),
      dependsOverlay].Pairwise fun a b => Fits a.source.load b.source.load :=
    List.pairwise_pair.mpr hpart
  have ⟨nested, hnested⟩ := context_dump_composes (List.cons_ne_nil _ _) hpair rfl
  obtain ⟨hsame, -, hconserves⟩ :=
    composition_associative contextComposer true _ _ _ _ _ _ hab habc hnested
  exact ⟨ab, abc, nested, hab, habc, hnested, hsame, hconserves⟩

end Cruxible.Compositions
