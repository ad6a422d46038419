import Cruxible.ConfigLayers

/-!
# Merged configurations

Composition works on dumps. What it computes is said here of the configurations
themselves: `extend` is one configuration over another, `dropProviders` and
`stripCanonical` are what a runtime composition takes away, and a dump `Reads` a
configuration when it holds exactly its sections. Each operation on dumps reads
as the operation on configurations, so `compose_config_sequence` is a fold of
`extend` followed by the expansion of the queries and by the validators.
-/
namespace Cruxible.MergedConfigs

open JsonValue PythonDict Fallible ConfigLayers
open PropertyValidation hiding CoreConfig

/-- What the dump of a configuration holds under a key. -/
def sectionAt (c : CoreConfig) : Key → Option Section
  | .version => some (.text c.version)
  | .name => some (.text c.name)
  | .description => c.description.map .text
  | .cruxibleVersion => c.cruxibleVersion.map .text
  | .extendsPath => c.extendsPath.map .text
  | .relationships => some (.items c.relationships)
  | .runtime => some (.options c.runtime.modelDump)
  | .list l => some (.items (c.lists l))
  | .map m => some (.entries (c.maps m))

/-- The dump holds the sections of the configuration and nothing else. -/
def Reads (d : Dump) (c : CoreConfig) : Prop := ∀ k, d.get? k = sectionAt c k

variable {c a b : CoreConfig} {d base result r : Dump} {k : Key}

theorem Reads.itemsAt_list (h : Reads d c) (l : ListKey) : itemsAt d (.list l) = c.lists l := by
  rw [itemsAt, h]
  rfl

theorem Reads.itemsAt_relationships (h : Reads d c) :
    itemsAt d .relationships = c.relationships := by
  rw [itemsAt, h]
  rfl

theorem Reads.entriesAt_map (h : Reads d c) (m : MapKey) : entriesAt d (.map m) = c.maps m := by
  rw [entriesAt, h]
  rfl

theorem Reads.optionsAt_runtime (h : Reads d c) : optionsAt d .runtime = c.runtime.modelDump := by
  rw [optionsAt, h]
  rfl

theorem get?_setCollections (c : CoreConfig) (ks : List (MapKey ⊕ ListKey)) (d : Dump) (k : Key) :
    (ks.foldl (setCollection c) d).get? k =
      if k ∈ ks.map (Sum.elim Key.map Key.list) then sectionAt c k else d.get? k := by
  induction ks generalizing d with
  | nil => rfl
  | cons e ks ih =>
    rw [List.foldl_cons, ih]
    simp only [List.map_cons, List.mem_cons]
    have hset : (setCollection c d e).get? k =
        if Sum.elim Key.map Key.list e = k then sectionAt c k else d.get? k := by
      cases e with
      | inl m =>
        rw [setCollection, Dict.get?_set, Sum.elim_inl]
        split_ifs with h
        · rw [← h]
          rfl
        · rfl
      | inr l =>
        rw [setCollection, Dict.get?_set, Sum.elim_inr]
        split_ifs with h
        · rw [← h]
          rfl
        · rfl
    rw [hset]
    by_cases hk : k = Sum.elim Key.map Key.list e
    case pos => simp only [hk, true_or, if_true, ite_self]
    case neg => simp only [hk, Ne.symm hk, false_or, if_false]

theorem reads_modelDump (c : CoreConfig) : Reads c.modelDump c := by
  intro k
  unfold CoreConfig.modelDump
  dsimp only
  rw [Dict.get?_set, Dict.get?_set, get?_setCollections]
  cases k with
  | list l => cases l <;> simp [collectionKeys, sectionAt]
  | map m => cases m <;> simp [collectionKeys, sectionAt, Dict.get?_set]
  | description => cases h : c.description <;> simp [collectionKeys, sectionAt, h, Dict.get?_set]
  | cruxibleVersion =>
    cases h : c.cruxibleVersion <;> simp [collectionKeys, sectionAt, h, Dict.get?_set]
  | extendsPath => cases h : c.extendsPath <;> simp [collectionKeys, sectionAt, h, Dict.get?_set]
  | version | name | relationships | runtime =>
    simp [collectionKeys, sectionAt, Dict.get?_set]

variable {s : Section}

theorem Reads.set {c' : CoreConfig} (h : Reads d c) (hk : sectionAt c' k = some s)
    (hother : ∀ q, q ≠ k → sectionAt c' q = sectionAt c q) : Reads (d.set k s) c' := by
  intro q
  rw [Dict.get?_set]
  split_ifs with hq
  · rw [← hq, hk]
  · rw [h q, hother q (Ne.symm hq)]

/-- A configuration with another map section. -/
def withMap (c : CoreConfig) (m : MapKey) (entries : Dict String Value) : CoreConfig :=
  { c with maps := Function.update c.maps m entries }

theorem Reads.set_map (h : Reads d c) (m : MapKey) (entries : Dict String Value) :
    Reads (d.set (.map m) (.entries entries)) (withMap c m entries) := by
  apply h.set
  case hk => simp [sectionAt, withMap]
  case hother =>
    intro q hq
    cases q with
    | map m' =>
      have hm : m' ≠ m := fun hm => hq (congrArg Key.map hm)
      simp [sectionAt, withMap, hm]
    | version | name | description | cruxibleVersion | extendsPath | relationships | runtime
    | list l => rfl

theorem modelValidate_eq_ok {env : ComposerEnv} {r : CoreConfig} (h : Reads d c) :
    CoreConfig.modelValidate env d = .ok r ↔ env.modelValidators c = .ok () ∧ r = c := by
  have hruntime : RuntimeConfig.modelValidate (optionsAt d .runtime) = .ok c.runtime := by
    rw [h.optionsAt_runtime]
    simp [RuntimeConfig.modelValidate, RuntimeConfig.modelDump, Dict.get?_set]
  have hdesc : (d.get? .description).map Section.textOf = c.description := by
    rw [h .description, sectionAt, Option.map_map]
    exact congrFun Option.map_id _
  have hstamp : (d.get? .cruxibleVersion).map Section.textOf = c.cruxibleVersion := by
    rw [h .cruxibleVersion, sectionAt, Option.map_map]
    exact congrFun Option.map_id _
  have hextends : (d.get? .extendsPath).map Section.textOf = c.extendsPath := by
    rw [h .extendsPath, sectionAt, Option.map_map]
    exact congrFun Option.map_id _
  unfold CoreConfig.modelValidate
  rw [hruntime, hdesc, hstamp, hextends, h .name, h .version, h.itemsAt_relationships]
  simp only [h.itemsAt_list, h.entriesAt_map, sectionAt, Option.map_some, requireText,
    Option.elim_some, Section.textOf]
  rw [bind_eq_ok]
  simp only [Except.ok.injEq, exists_eq_left']
  rw [bind_eq_ok]
  simp only [Except.ok.injEq, exists_eq_left', bind_eq_ok]
  constructor
  case mp =>
    intro ⟨_, hvalid, hr⟩
    exact ⟨hvalid, hr.symm⟩
  case mpr =>
    intro ⟨hvalid, hr⟩
    exact ⟨(), hvalid, hr.symm⟩

/-- The overlay over its base, section by section. -/
def extend (base overlay : CoreConfig) : CoreConfig where
  version := overlay.version
  name := overlay.name
  description := overlay.description.or base.description
  cruxibleVersion := overlay.cruxibleVersion.or base.cruxibleVersion
  extendsPath := overlay.extendsPath.or base.extendsPath
  relationships := base.relationships ++ overlay.relationships
  lists l := base.lists l ++ overlay.lists l
  maps m := (base.maps m).update (overlay.maps m)
  runtime := overlay.runtime

/-- The overlay defines a keyed entry or a relationship that its base defines. -/
def Redefines (base overlay : CoreConfig) : Prop :=
  (∃ m, ∃ k ∈ (base.maps m).keys, k ∈ (overlay.maps m).keys) ∨
    ∃ n ∈ base.relationships.map nameOf, n ∈ overlay.relationships.map nameOf

/-- Both are stamped, by different versions. -/
def StampsDiffer (base overlay : CoreConfig) : Prop :=
  ∃ s ∈ base.cruxibleVersion, ∃ t ∈ overlay.cruxibleVersion, s ≠ t

/-- The overlay can be composed onto the base. -/
def Fits (base overlay : CoreConfig) : Prop := ¬Redefines base overlay ∧ ¬StampsDiffer base overlay

theorem composeRelationships_eq_ok {baseRels overlayRels rels : List Value} :
    composeRelationships baseRels overlayRels = .ok rels ↔
      (∀ rel ∈ overlayRels, nameOf rel ∉ baseRels.map nameOf) ∧ rels = baseRels ++ overlayRels := by
  have hfold : ∀ merged, overlayRels.foldlM (fun merged rel => do
      refuseIf (nameOf rel ∈ baseRels.map nameOf)
        (CoreError.config s!"Overlay cannot redefine upstream relationship '{nameOf rel}'")
      .ok (merged ++ [rel])) merged = .ok rels ↔
        (∀ rel ∈ overlayRels, nameOf rel ∉ baseRels.map nameOf) ∧ rels = merged ++ overlayRels := by
    induction overlayRels with
    | nil =>
      intro merged
      rw [List.foldlM_nil, pure_eq_ok, List.append_nil]
      simp [eq_comm]
    | cons rel overlayRels ih =>
      intro merged
      rw [List.foldlM_cons]
      rw [bind_eq_ok, List.forall_mem_cons]
      constructor
      case mp =>
        rintro ⟨next, hstep, hrest⟩
        obtain ⟨hrel, hnext⟩ := refuseIf_bind_eq_ok.mp hstep
        obtain ⟨hothers, hrels⟩ := (ih next).mp hrest
        rw [← Except.ok.inj hnext, List.append_assoc] at hrels
        exact ⟨⟨hrel, hothers⟩, hrels⟩
      case mpr =>
        rintro ⟨⟨hrel, hothers⟩, hrels⟩
        refine ⟨merged ++ [rel], refuseIf_bind_eq_ok.mpr ⟨hrel, rfl⟩, (ih _).mpr ⟨hothers, ?_⟩⟩
        rw [hrels, List.append_assoc]
        rfl
  exact hfold baseRels

theorem composeKeyedMap_eq_ok {m : MapKey} {baseMap overlayMap merged : Dict String Value} :
    composeKeyedMap m baseMap overlayMap = .ok merged ↔
      (∀ k ∈ overlayMap.keys, k ∉ baseMap.keys) ∧ merged = baseMap.update overlayMap := by
  have hfold : ∀ bs : List (String × Value), (bs.map Prod.fst).Nodup → ∀ acc,
      bs.foldlM (fun acc child => do
        refuseIf (acc.contains child.1 = true)
          (CoreError.config s!"Overlay cannot redefine upstream '{m.text}' entry '{child.1}'")
        .ok (acc.set child.1 child.2)) acc = .ok merged ↔
      (∀ k ∈ bs.map Prod.fst, k ∉ acc.keys) ∧
        merged = bs.foldl (fun d b => d.set b.1 b.2) acc := by
    intro bs
    induction bs with
    | nil =>
      intro _ acc
      rw [List.foldlM_nil, pure_eq_ok]
      simp [eq_comm]
    | cons b bs ih =>
      intro hnodup acc
      obtain ⟨hfresh, hrest⟩ := List.nodup_cons.mp hnodup
      have hlater : (∀ k ∈ bs.map Prod.fst, k ∉ (acc.set b.1 b.2).keys) ↔
          ∀ k ∈ bs.map Prod.fst, k ∉ acc.keys := by
        apply forall₂_congr
        intro k hk
        have hne : k ≠ b.1 := fun h => hfresh (h ▸ hk)
        rw [Dict.mem_keys, Dict.mem_keys, Dict.get?_set_of_ne _ _ hne.symm]
      rw [List.foldlM_cons, bind_eq_ok, List.map_cons, List.forall_mem_cons]
      constructor
      case mp =>
        rintro ⟨next, hstep, hlast⟩
        obtain ⟨hb, hnext⟩ := refuseIf_bind_eq_ok.mp hstep
        rw [← Except.ok.inj hnext] at hlast
        obtain ⟨hothers, hmerged⟩ := (ih hrest _).mp hlast
        rw [Dict.contains_eq_true] at hb
        exact ⟨⟨hb, hlater.mp hothers⟩, hmerged⟩
      case mpr =>
        rintro ⟨⟨hb, hothers⟩, hmerged⟩
        refine ⟨acc.set b.1 b.2, refuseIf_bind_eq_ok.mpr ⟨?_, rfl⟩,
          (ih hrest _).mpr ⟨hlater.mpr hothers, hmerged⟩⟩
        rw [Dict.contains_eq_true]
        exact hb
  exact hfold overlayMap.entries overlayMap.nodup baseMap

/-- The section that one turn of the loop of `_compose_mapping` writes. -/
def mergeSection (base : Dump) (key : Key) (value : Section) : Except CoreError Section :=
  match key with
  | .extendsPath | .name | .description | .version => .ok value
  | .runtime => .ok (.options ((optionsAt base key).update value.optionsOf))
  | .list _ => .ok (.items (itemsAt base key ++ value.itemsOf))
  | .relationships => do
      let merged ← composeRelationships (itemsAt base key) value.itemsOf
      .ok (.items merged)
  | .map m => do
      let merged ← composeKeyedMap m (entriesAt base key) value.entriesOf
      .ok (.entries merged)
  | .cruxibleVersion => do
      refuseIf (base.get? key ≠ none ∧ base.get? key ≠ some value)
        (.config "Overlay cannot override upstream field 'cruxible_version'")
      .ok value

theorem composeKey_eq {key : Key} (value : Section) (hsame : result.get? key = base.get? key) :
    composeKey base result key value = (do
      let s ← mergeSection base key value
      .ok (result.set key s)) := by
  cases key with
  | relationships | map m =>
    rw [composeKey, mergeSection, bind_assoc]
    rfl
  | cruxibleVersion =>
    rw [composeKey, mergeSection, hsame, bind_assoc]
    rfl
  | version | name | description | extendsPath | runtime | list l => rfl

theorem composeKey_eq_ok {key : Key} {value : Section} (hsame : result.get? key = base.get? key) :
    composeKey base result key value = .ok r ↔
      ∃ s, mergeSection base key value = .ok s ∧ r = result.set key s := by
  rw [composeKey_eq value hsame, bind_eq_ok]
  simp only [Except.ok.injEq, eq_comm]

variable {entries : List (Key × Section)}

theorem composeEntries_eq_ok (hnodup : (entries.map Prod.fst).Nodup)
    (hsame : ∀ e ∈ entries, result.get? e.1 = base.get? e.1)
    (h : entries.foldlM (fun result e => composeKey base result e.1 e.2) result = .ok r) (k : Key) :
    (Bindings.get? entries k = none → r.get? k = result.get? k) ∧
      ∀ v, Bindings.get? entries k = some v →
        ∃ s, mergeSection base k v = .ok s ∧ r.get? k = some s := by
  induction entries generalizing result with
  | nil =>
    obtain rfl := foldlM_nil_eq_ok.mp h
    exact ⟨fun _ => rfl, nofun⟩
  | cons e entries ih =>
    have ⟨hfresh, hrest⟩ := List.nodup_cons.mp hnodup
    have ⟨next, hstep, hlast⟩ := foldlM_cons_eq_ok.mp h
    have ⟨s, hs, hnext⟩ := (composeKey_eq_ok (hsame e List.mem_cons_self)).mp hstep
    have hkeep : ∀ q, q ≠ e.1 → next.get? q = result.get? q := by
      intro q hq
      rw [hnext, Dict.get?_set_of_ne _ _ hq.symm]
    have hlater : ∀ e' ∈ entries, next.get? e'.1 = base.get? e'.1 := by
      intro e' he'
      have hne : e'.1 ≠ e.1 := fun hk => hfresh (hk ▸ List.mem_map_of_mem he')
      rw [hkeep _ hne]
      exact hsame e' (List.mem_cons_of_mem _ he')
    have ⟨hother, hmerged⟩ := ih hrest hlater hlast
    by_cases hk : e.1 = k
    case pos =>
      have hgone : Bindings.get? entries k = none := Bindings.get?_eq_none.mpr (hk ▸ hfresh)
      constructor
      case left => simp [Bindings.get?, hk]
      case right =>
        intro v hv
        have hvalue : e.2 = v := by simpa [Bindings.get?, hk] using hv
        refine ⟨s, by rw [← hk, ← hvalue, hs], ?_⟩
        rw [hother hgone, hnext, hk, Dict.get?_set_self]
    case neg =>
      constructor
      case left =>
        intro hnone
        rw [hother (by simpa [Bindings.get?, hk] using hnone), hkeep k (Ne.symm hk)]
      case right =>
        intro v hv
        exact hmerged v (by simpa [Bindings.get?, hk] using hv)

theorem composeEntries_total (hnodup : (entries.map Prod.fst).Nodup)
    (hsame : ∀ e ∈ entries, result.get? e.1 = base.get? e.1)
    (hok : ∀ e ∈ entries, ∃ s, mergeSection base e.1 e.2 = .ok s) :
    ∃ r, entries.foldlM (fun result e => composeKey base result e.1 e.2) result = .ok r := by
  induction entries generalizing result with
  | nil => exact ⟨result, rfl⟩
  | cons e entries ih =>
    have ⟨hfresh, hrest⟩ := List.nodup_cons.mp hnodup
    have ⟨s, hs⟩ := hok e List.mem_cons_self
    have hlater : ∀ e' ∈ entries, (result.set e.1 s).get? e'.1 = base.get? e'.1 := by
      intro e' he'
      have hne : e.1 ≠ e'.1 := fun hk => hfresh (hk ▸ List.mem_map_of_mem he')
      rw [Dict.get?_set_of_ne _ _ hne]
      exact hsame e' (List.mem_cons_of_mem _ he')
    have ⟨r, hr⟩ := ih hrest hlater fun e' he' => hok e' (List.mem_cons_of_mem _ he')
    refine ⟨r, ?_⟩
    rw [List.foldlM_cons, bind_eq_ok]
    exact ⟨_, (composeKey_eq_ok (hsame e List.mem_cons_self)).mpr ⟨s, hs, rfl⟩, hr⟩

theorem update_runtimeDump (r r' : RuntimeConfig) :
    r.modelDump.update r'.modelDump = r'.modelDump := by
  apply Dict.ext_entries
  rfl

/-- What the merge of one key demands. -/
def KeyFits (base overlay : CoreConfig) : Key → Prop
  | .relationships => ∀ rel ∈ overlay.relationships, nameOf rel ∉ base.relationships.map nameOf
  | .map m => ∀ k ∈ (overlay.maps m).keys, k ∉ (base.maps m).keys
  | .cruxibleVersion => ¬StampsDiffer base overlay
  | _ => True

theorem forall_keyFits {base overlay : CoreConfig} :
    (∀ k, KeyFits base overlay k) ↔ Fits base overlay := by
  constructor
  case mp =>
    intro hfits
    refine ⟨?_, hfits .cruxibleVersion⟩
    rintro (⟨m, k, hbase, hoverlay⟩ | ⟨n, hbase, hoverlay⟩)
    · exact hfits (.map m) k hoverlay hbase
    · have ⟨rel, hrel, hname⟩ := List.mem_map.mp hoverlay
      exact hfits .relationships rel hrel (hname ▸ hbase)
  case mpr =>
    intro ⟨hredefines, hstamps⟩ k
    cases k with
    | relationships =>
      intro rel hrel hbase
      exact hredefines (.inr ⟨nameOf rel, hbase, List.mem_map_of_mem hrel⟩)
    | map m =>
      intro k hoverlay hbase
      exact hredefines (.inl ⟨m, k, hbase, hoverlay⟩)
    | cruxibleVersion => exact hstamps
    | version | name | description | extendsPath | runtime | list l => trivial

theorem mergeSection_eq_ok (ha : Reads d a) {v : Section} (hv : sectionAt b k = some v) :
    mergeSection d k v = .ok s ↔ KeyFits a b k ∧ sectionAt (extend a b) k = some s := by
  cases k with
  | version | name =>
    cases hv
    simp [mergeSection, KeyFits, sectionAt, extend]
  | description | extendsPath =>
    have ⟨t, ht, htext⟩ := Option.map_eq_some_iff.mp hv
    simp [mergeSection, KeyFits, sectionAt, extend, ht, htext]
  | runtime =>
    cases hv
    simp [mergeSection, KeyFits, sectionAt, extend, Section.optionsOf, ha.optionsAt_runtime,
      update_runtimeDump]
  | list l =>
    cases hv
    simp [mergeSection, KeyFits, sectionAt, extend, Section.itemsOf, ha.itemsAt_list]
  | relationships =>
    cases hv
    simp only [mergeSection, bind_eq_ok, Section.itemsOf, ha.itemsAt_relationships,
      composeRelationships_eq_ok, KeyFits, sectionAt, extend, and_assoc, exists_and_left,
      exists_eq_left, Except.ok.injEq, Option.some.injEq]
  | map m =>
    cases hv
    simp only [mergeSection, bind_eq_ok, Section.entriesOf, ha.entriesAt_map,
      composeKeyedMap_eq_ok, KeyFits, sectionAt, extend, and_assoc, exists_and_left,
      exists_eq_left, Except.ok.injEq, Option.some.injEq]
  | cruxibleVersion =>
    have ⟨t, ht, htext⟩ := Option.map_eq_some_iff.mp hv
    subst htext
    rw [mergeSection, refuseIf_bind_eq_ok, ha .cruxibleVersion]
    cases hstamp : a.cruxibleVersion with
    | none | some u => simp [KeyFits, StampsDiffer, sectionAt, extend, ht, hstamp]

theorem sectionAt_extend_of_none (hv : sectionAt b k = none) :
    sectionAt (extend a b) k = sectionAt a k := by
  cases k with
  | description | cruxibleVersion | extendsPath =>
    simp_all [sectionAt, extend]
  | version | name | relationships | runtime | list l | map m => cases hv

theorem composeMapping_reads {e : Dump} (ha : Reads d a) (hb : Reads e b)
    (h : composeMapping d e = .ok r) : Fits a b ∧ Reads r (extend a b) := by
  have hentry := composeEntries_eq_ok e.nodup (fun _ _ => rfl) h
  have hmerged : ∀ k v, sectionAt b k = some v →
      KeyFits a b k ∧ sectionAt (extend a b) k = r.get? k := by
    intro k v hv
    have ⟨s, hs, hr⟩ := (hentry k).2 v ((hb k).trans hv)
    have ⟨hfits, hsection⟩ := (mergeSection_eq_ok ha hv).mp hs
    exact ⟨hfits, hsection.trans hr.symm⟩
  have hkeys : ∀ k, KeyFits a b k ∧ r.get? k = sectionAt (extend a b) k := by
    intro k
    cases hv : sectionAt b k with
    | some v =>
      have ⟨hfits, hsection⟩ := hmerged k v hv
      exact ⟨hfits, hsection.symm⟩
    | none =>
      have hr : r.get? k = d.get? k := (hentry k).1 ((hb k).trans hv)
      rw [hr, ha k, sectionAt_extend_of_none hv]
      refine ⟨?_, rfl⟩
      cases k with
      | cruxibleVersion => simp_all [KeyFits, StampsDiffer, sectionAt]
      | version | name | relationships | runtime | list l | map m => cases hv
      | description | extendsPath => trivial
  exact ⟨forall_keyFits.mp fun k => (hkeys k).1, fun k => (hkeys k).2⟩

theorem composeMapping_total {e : Dump} (ha : Reads d a) (hb : Reads e b) (h : Fits a b) :
    ∃ r, composeMapping d e = .ok r := by
  apply composeEntries_total e.nodup (fun _ _ => rfl)
  intro entry hentry
  have hv : sectionAt b entry.1 = some entry.2 := by
    rw [← hb entry.1]
    exact Dict.get?_of_mem hentry
  have ⟨s, hs⟩ : ∃ s, sectionAt (extend a b) entry.1 = some s := by
    have hkept : sectionAt (extend a b) entry.1 ≠ none := by
      cases hk : entry.1 with
      | description | cruxibleVersion | extendsPath =>
        rw [hk] at hv
        have ⟨t, ht, _⟩ := Option.map_eq_some_iff.mp hv
        simp [sectionAt, extend, ht]
      | version | name | relationships | runtime | list l | map m => exact nofun
    exact Option.ne_none_iff_exists'.mp hkept
  exact ⟨s, (mergeSection_eq_ok ha hv).mpr ⟨forall_keyFits.mpr h entry.1, hs⟩⟩

end Cruxible.MergedConfigs
