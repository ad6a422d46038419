import Cruxible.FallibleLoops
import Cruxible.ParentChains
import Cruxible.PropertyValidation

/-!
# The sequence of configuration layers

A configuration names at most one layer under it. The resolver goes down from every
root, base first, and keeps a file where it first comes. It stops at files that earlier
roots reached, refuses to go around and refuses to go too deep.
-/
namespace Cruxible.LayerSequences
open PythonDict PropertyValidation Fallible
open Relation (ReflTransGen TransGen)

variable {Path Config : Type} [DecidableEq Path]

/-- `ResolvedConfigLayer`, with a resolved path or a directory and never both. -/
structure Layer (Path Config : Type) where
  config : Config
  path : Option Path := none
  dir : Option Path := none
  located : path.isSome → dir = none := by simp

/-- The files, and the operations on paths. -/
structure FileEnv (Path Config : Type) where
  /-- `Path(config.extends)`. -/
  extendsPath : Config → Option Path
  isAbsolute : Path → Bool
  parent : Path → Path
  join : Path → Path → Path
  resolve : Path → Path
  /-- `_confine_extends_target`. -/
  confine : Path → Except CoreError Unit
  present : Path → Bool
  load : Path → Except CoreError Config
  /-- The resolved path of `resolve_overlay_kit_base_layer`. -/
  overlayBase : Option Path → Except CoreError (Option Path)
  text : Path → String

variable (env : FileEnv Path Config)

def loadedLayer (p : Path) (config : Config) : Layer Path Config :=
  { config := config, path := some p, dir := none, located := fun _ => rfl }

def sourceDir (layer : Layer Path Config) : Option Path :=
  layer.dir.or (layer.path.map env.parent)

def loadLayer (p : Path) : Except CoreError (Layer Path Config) := (env.load p).map (loadedLayer p)

/-- The target of an `extends` link. -/
def extendsTarget (layer : Layer Path Config) (link : Path) : Except CoreError Path :=
  if env.isAbsolute link then .ok link
  else match sourceDir env layer with
    | some d => .ok (env.join d link)
    | none => .error (.config ("Inline config_yaml with a relative extends path cannot be " ++
        "composed — use an absolute path or validate from a file"))

/-- `_resolve_parent_layers`. -/
def resolveParentLayer (layer : Layer Path Config) :
    Except CoreError (Option (Layer Path Config)) :=
  match env.extendsPath layer.config with
  | none => do
      match ← env.overlayBase layer.path with
      | none => pure none
      | some p => (loadLayer env p).map some
  | some link => do
      let base ← extendsTarget env layer link
      env.confine base
      refuseIf (env.present base = false)
        (.config s!"Base config for extends not found: {env.text base}")
      (loadLayer env (env.resolve base)).map some

variable (explicit : Dict Path (Layer Path Config))

/-- A root takes the place of the file at its path. -/
def override (layer : Layer Path Config) : Layer Path Config :=
  (layer.path.bind explicit.get?).getD layer

/-- The layer under a layer. -/
def nextLayer (layer : Layer Path Config) : Except CoreError (Option (Layer Path Config)) :=
  (resolveParentLayer env layer).map (Option.map (override explicit))

/-- `_MAX_EXTENDS_CHAIN_DEPTH`. -/
def maxDepth : Nat := 32

def arrows (paths : List Path) : String := " -> ".intercalate (paths.map env.text)

def tooDeep (visiting : List Path) : CoreError :=
  .config (s!"Config extends chain is too deep: {maxDepth + 1} layers exceeds the limit of " ++
    s!"{maxDepth}. Flatten the chain or compose fewer layers. " ++
    s!"Chain so far: {arrows env visiting}")

def cycleError (visiting : List Path) (p : Path) : CoreError :=
  .config ("Config extends cycle detected: " ++
    arrows env (visiting.dropWhile (· ≠ p) ++ [p]))

def conflictError (p : Path) : CoreError :=
  .config (s!"Config layer path was resolved with conflicting in-memory content: {env.text p}. " ++
    "Apply config transformations consistently before recursive layer resolution.")

section Walk

variable [DecidableEq Config]

/-- A root under its path, which must not come with two contents. -/
def supplyRoot (explicit : Dict Path (Layer Path Config)) (root : Layer Path Config) :
    Except CoreError (Dict Path (Layer Path Config)) :=
  match root.path with
  | none => .ok explicit
  | some p => match explicit.get? p with
      | some existing =>
          if existing.config = root.config then .ok (explicit.set p root)
          else .error (.config ("Config layer path was supplied with conflicting in-memory " ++
            s!"content: {env.text p}"))
      | none => .ok (explicit.set p root)

def explicitRoots (roots : List (Layer Path Config)) :
    Except CoreError (Dict Path (Layer Path Config)) :=
  roots.foldlM (supplyRoot env) ∅

/-- The output in the making and the files that are finished. -/
structure Walk (Path Config : Type) [DecidableEq Path] where
  layers : List (Layer Path Config) := []
  seen : Dict Path (Layer Path Config) := ∅

/-- The loop over the parents of a layer. -/
def visitParent (go : Layer Path Config → Except CoreError (Walk Path Config))
    (walk : Walk Path Config) (layer : Layer Path Config) :
    Except CoreError (Walk Path Config) := do
  match ← nextLayer env explicit layer with
  | none => pure walk
  | some parent => go parent

/-- `visit`, with the depth that is left. -/
def visit : Nat → List Path → Walk Path Config → Layer Path Config →
    Except CoreError (Walk Path Config)
  | 0, visiting, _, _ => .error (tooDeep env visiting)
  | n + 1, visiting, walk, layer =>
      match layer.path with
      | none => do
          let walk ← visitParent env explicit (visit n visiting walk) walk layer
          pure { walk with layers := walk.layers ++ [layer] }
      | some p =>
          if p ∈ visiting then .error (cycleError env visiting p)
          else match walk.seen.get? p with
            | some existing =>
                if existing.config = layer.config then .ok walk else .error (conflictError env p)
            | none => do
                let walk ← visitParent env explicit (visit n (visiting ++ [p]) walk) walk layer
                pure { layers := walk.layers ++ [layer], seen := walk.seen.set p layer }

/-- `resolve_config_layer_sequence`. -/
def resolveConfigLayerSequence (roots : List (Layer Path Config)) :
    Except CoreError (List (Layer Path Config)) := do
  let explicit ← explicitRoots env roots
  let walk ← roots.foldlM (visit env explicit maxDepth []) {}
  pure walk.layers

end Walk

/-- The second layer is the one under the first. -/
def Link (l m : Layer Path Config) : Prop := nextLayer env explicit l = .ok (some m)

def Fresh (Finished : Path → Prop) (l : Layer Path Config) : Prop :=
  ∀ p, l.path = some p → ¬Finished p

/-- The layers from one down to the first finished one or to the end, and how many are
looked at. -/
inductive Descends (Finished : Path → Prop) :
    Layer Path Config → List (Layer Path Config) → Nat → Prop
  | finished {l : Layer Path Config} {p : Path} (hpath : l.path = some p) (hp : Finished p) :
      Descends Finished l [] 1
  | top {l : Layer Path Config} (hfresh : Fresh Finished l)
      (hnext : nextLayer env explicit l = .ok none) : Descends Finished l [l] 1
  | step {l m : Layer Path Config} {ls : List (Layer Path Config)} {k : Nat}
      (hfresh : Fresh Finished l) (hnext : Link env explicit l m) (h : Descends Finished m ls k) :
      Descends Finished l (l :: ls) (k + 1)

/-- The chain goes on for so many layers through files that are not finished. -/
inductive GoesOn (Finished : Path → Prop) : Nat → Layer Path Config → Prop
  | here (l : Layer Path Config) : GoesOn Finished 0 l
  | further {n : Nat} {l m : Layer Path Config} (hfresh : Fresh Finished l)
      (hnext : Link env explicit l m) (h : GoesOn Finished n m) : GoesOn Finished (n + 1) l

/-- A layer down the chain cannot be resolved. -/
def Fails (l : Layer Path Config) : Prop :=
  ∃ x, ReflTransGen (Link env explicit) l x ∧ ∃ e, nextLayer env explicit x = .error e

/-- The chain goes around. -/
def Cyclic (l : Layer Path Config) : Prop :=
  ∃ x, ReflTransGen (Link env explicit) l x ∧ TransGen (Link env explicit) x x

/-- A file that is a layer down the chain of a root. -/
def Reached (roots : List (Layer Path Config)) (p : Path) : Prop :=
  ∃ r ∈ roots, ∃ x, ReflTransGen (Link env explicit) r x ∧ x.path = some p

variable {env explicit}

section Descent

variable {Finished : Path → Prop} {l m : Layer Path Config} {ls : List (Layer Path Config)}
  {n k : Nat}

theorem Link.unique {x : Layer Path Config} (hm : Link env explicit l m)
    (hx : Link env explicit l x) : x = m :=
  Option.some.inj (Except.ok.inj (Eq.trans (Eq.symm hx) hm))

/-- There is one way down. -/
theorem Descends.unique {ls' : List (Layer Path Config)} {k' : Nat}
    (h : Descends env explicit Finished l ls k) (h' : Descends env explicit Finished l ls' k') :
    ls' = ls ∧ k' = k := by
  induction h generalizing ls' k' with
  | finished hpath hp =>
    cases h' with
    | finished => exact ⟨rfl, rfl⟩
    | top hfresh | step hfresh => exact absurd hp (hfresh _ hpath)
  | top hfresh hnext =>
    cases h' with
    | finished hpath hp => exact absurd hp (hfresh _ hpath)
    | top => exact ⟨rfl, rfl⟩
    | step _ hlink => cases hnext.symm.trans hlink
  | step hfresh hnext _ ih =>
    cases h' with
    | finished hpath hp => exact absurd hp (hfresh _ hpath)
    | top _ hnone => cases hnone.symm.trans hnext
    | step _ hlink h' =>
      obtain rfl := hnext.unique hlink
      obtain ⟨rfl, rfl⟩ := ih h'
      exact ⟨rfl, rfl⟩

/-- Down a chain there is a way, a failure, or a further layer. -/
theorem descends_or (n : Nat) (l : Layer Path Config) :
    (∃ ls k, Descends env explicit Finished l ls k ∧ k ≤ n) ∨ Fails env explicit l ∨
      GoesOn env explicit Finished n l := by
  induction n generalizing l with
  | zero => exact .inr (.inr (.here l))
  | succ n ih =>
    by_cases hfresh : Fresh Finished l
    case neg =>
      simp only [Fresh, not_forall, not_not] at hfresh
      obtain ⟨p, hpath, hp⟩ := hfresh
      exact .inl ⟨[], 1, .finished hpath hp, Nat.le_add_left 1 n⟩
    case pos =>
      cases hnext : nextLayer env explicit l with
      | error e => exact .inr (.inl ⟨l, .refl, e, hnext⟩)
      | ok next =>
        cases next with
        | none => exact .inl ⟨[l], 1, .top hfresh hnext, Nat.le_add_left 1 n⟩
        | some m =>
          rcases ih m with ⟨ls, k, h, hk⟩ | ⟨x, hx, hfail⟩ | h
          · exact .inl ⟨l :: ls, k + 1, .step hfresh hnext h, Nat.succ_le_succ hk⟩
          · exact .inr (.inl ⟨x, .head hnext hx, hfail⟩)
          · exact .inr (.inr (.further hfresh hnext h))

theorem Descends.not_goesOn (h : Descends env explicit Finished l ls k) (hk : k ≤ n) :
    ¬GoesOn env explicit Finished n l := by
  induction h generalizing n with
  | finished hpath hp =>
    intro hgoes
    cases hgoes with
    | here => cases hk
    | further hfresh => exact hfresh _ hpath hp
  | top hfresh hnext =>
    intro hgoes
    cases hgoes with
    | here => cases hk
    | further _ hlink => cases hnext.symm.trans hlink
  | step hfresh hnext _ ih =>
    intro hgoes
    cases hgoes with
    | here => cases hk
    | further _ hlink hmore =>
      obtain rfl := hnext.unique hlink
      exact ih (Nat.le_of_succ_le_succ hk) hmore

theorem Descends.reaches (h : Descends env explicit Finished l ls k) :
    ∀ x ∈ ls, ReflTransGen (Link env explicit) l x := by
  induction h with
  | finished => exact fun x hx => absurd hx List.not_mem_nil
  | top =>
    intro x hx
    obtain rfl := List.mem_singleton.mp hx
    exact .refl
  | step _ hnext _ ih =>
    intro x hx
    rcases List.mem_cons.mp hx with rfl | hx
    · exact .refl
    · exact .head hnext (ih x hx)

/-- From every layer on the way the way goes on, and is no longer. -/
theorem Descends.from_mem (h : Descends env explicit Finished l ls k) :
    ∀ x ∈ ls, ∃ xs j, Descends env explicit Finished x xs j ∧ xs.length ≤ ls.length := by
  induction h with
  | finished => exact fun x hx => absurd hx List.not_mem_nil
  | top hfresh hnext =>
    intro x hx
    obtain rfl := List.mem_singleton.mp hx
    exact ⟨[x], 1, .top hfresh hnext, Nat.le_refl _⟩
  | @step l m ls k hfresh hnext h ih =>
    intro x hx
    rcases List.mem_cons.mp hx with rfl | hx
    · exact ⟨x :: ls, k + 1, .step hfresh hnext h, Nat.le_refl _⟩
    · obtain ⟨xs, j, hxs, hlength⟩ := ih x hx
      exact ⟨xs, j, hxs, Nat.le_succ_of_le hlength⟩

end Descent

variable (env explicit) in
/-- A layer with a path is the root at that path or what the file holds. -/
def IsNode (l : Layer Path Config) : Prop :=
  ∀ p, l.path = some p →
    explicit.get? p = some l ∨ explicit.get? p = none ∧ env.load p = .ok l.config

variable (explicit) in
/-- Every root stands under its own path. -/
def Located : Prop := ∀ p l, explicit.get? p = some l → l.path = some p

variable {p : Path} {layers : List (Layer Path Config)} {l m : Layer Path Config}
  {walk : Walk Path Config} {roots : List (Layer Path Config)}

omit [DecidableEq Path] in
theorem Layer.ext_path (hl : l.path = some p) (hm : m.path = some p) (h : l.config = m.config) :
    l = m := by
  obtain ⟨config, path, dir, hdir⟩ := l
  obtain ⟨config', path', dir', hdir'⟩ := m
  obtain rfl : path = some p := hl
  obtain rfl : path' = some p := hm
  obtain rfl : config = config' := h
  obtain rfl : dir = none := hdir rfl
  obtain rfl : dir' = none := hdir' rfl
  rfl

theorem IsNode.eq (hl : IsNode env explicit l) (hm : IsNode env explicit m)
    (hlpath : l.path = some p) (hmpath : m.path = some p) : l = m := by
  rcases hl p hlpath with hl | ⟨hnone, hl⟩
  · rcases hm p hmpath with hm | ⟨hnone, -⟩
    · exact Option.some.inj (hl.symm.trans hm)
    · cases hnone.symm.trans hl
  · rcases hm p hmpath with hm | ⟨-, hm⟩
    · cases hnone.symm.trans hm
    · exact Layer.ext_path hlpath hmpath (Except.ok.inj (hl.symm.trans hm))

omit [DecidableEq Path] in
theorem loaded_of_resolve (h : resolveParentLayer env l = .ok (some m)) :
    ∃ p, m.path = some p ∧ env.load p = .ok m.config := by
  have hload : ∀ p, (loadLayer env p).map some = .ok (some m) →
      ∃ p, m.path = some p ∧ env.load p = .ok m.config := by
    intro p hp
    obtain ⟨x, hx, hsome⟩ := map_eq_ok.mp hp
    cases hsome
    obtain ⟨config, hconfig, rfl⟩ := map_eq_ok.mp hx
    exact ⟨p, rfl, hconfig⟩
  unfold resolveParentLayer at h
  split at h
  · rw [bind_eq_ok] at h
    obtain ⟨base, -, h⟩ := h
    split at h
    · cases h
    · exact hload _ h
  · simp only [bind_eq_ok] at h
    obtain ⟨_, -, _, -, _, -, h⟩ := h
    exact hload _ h

theorem Link.isNode (hlocated : Located explicit) (h : Link env explicit l m) :
    (∃ p, m.path = some p) ∧ IsNode env explicit m := by
  obtain ⟨next, hnext, hmap⟩ := map_eq_ok.mp h
  obtain ⟨x, rfl, rfl⟩ := Option.map_eq_some_iff.mp hmap
  obtain ⟨p, hpath, hload⟩ := loaded_of_resolve hnext
  unfold override
  rw [hpath, Option.bind_some]
  cases hget : explicit.get? p with
  | none =>
    refine ⟨⟨p, hpath⟩, fun q hq => .inr ?_⟩
    obtain rfl := Option.some.inj (hpath.symm.trans hq)
    exact ⟨hget, hload⟩
  | some root =>
    have hroot := hlocated p root hget
    refine ⟨⟨p, hroot⟩, fun q hq => .inl ?_⟩
    obtain rfl := Option.some.inj (hroot.symm.trans hq)
    exact hget

section Nodes

variable {Finished : Path → Prop} {l : Layer Path Config} {ls : List (Layer Path Config)} {k : Nat}

theorem Descends.isNode (hlocated : Located explicit) (hl : IsNode env explicit l)
    (h : Descends env explicit Finished l ls k) : ∀ x ∈ ls, IsNode env explicit x := by
  induction h with
  | finished => exact fun x hx => absurd hx List.not_mem_nil
  | top =>
    intro x hx
    obtain rfl := List.mem_singleton.mp hx
    exact hl
  | step _ hnext _ ih =>
    intro x hx
    rcases List.mem_cons.mp hx with rfl | hx
    · exact hl
    · exact ih (hnext.isNode hlocated).2 x hx

/-- No file comes twice on the way down. -/
theorem Descends.nodup (hlocated : Located explicit) (hl : IsNode env explicit l)
    (h : Descends env explicit Finished l ls k) : (ls.filterMap Layer.path).Nodup := by
  induction h with
  | finished => exact List.nodup_nil
  | @top l _ _ => cases hpath : l.path <;> simp [hpath]
  | @step l m ls k hfresh hnext h ih =>
    have hm := (hnext.isNode hlocated).2
    cases hpath : l.path with
    | none =>
      rw [List.filterMap_cons_none hpath]
      exact ih hm
    | some p =>
      rw [List.filterMap_cons_some hpath]
      refine List.nodup_cons.mpr ⟨fun hmem => ?_, ih hm⟩
      obtain ⟨x, hx, hxpath⟩ := List.mem_filterMap.mp hmem
      obtain rfl := (h.isNode hlocated hm x hx).eq hl hxpath hpath
      obtain ⟨xs, j, hxs, hlength⟩ := h.from_mem x hx
      obtain ⟨rfl, -⟩ := (Descends.step hfresh hnext h).unique hxs
      exact absurd hlength (by simp)

theorem Descends.paths (hlocated : Located explicit) (h : Descends env explicit Finished l ls k) :
    ls.filter (fun x => x.path.isNone) = if l.path.isNone then [l] else [] := by
  induction h with
  | finished hpath => simp [hpath]
  | @top l _ _ => cases hpath : l.path <;> simp [hpath]
  | @step l m ls k hfresh hnext h ih =>
    obtain ⟨⟨p, hp⟩, -⟩ := hnext.isNode hlocated
    rw [hp] at ih
    cases hpath : l.path <;> simp [hpath, ih]

end Nodes

def addLayer (walk : Walk Path Config) (l : Layer Path Config) : Walk Path Config where
  layers := walk.layers ++ [l]
  seen := l.path.elim walk.seen fun p => walk.seen.set p l

/-- Layers added from the lowest on, which is the last of the list. -/
def addLayers (walk : Walk Path Config) (ls : List (Layer Path Config)) : Walk Path Config :=
  ls.foldr (fun l walk => addLayer walk l) walk

def Seen (walk : Walk Path Config) (p : Path) : Prop := p ∈ walk.seen.keys

section Visit

variable [DecidableEq Config] {walk : Walk Path Config} {l : Layer Path Config}
  {ls : List (Layer Path Config)} {n k : Nat} {visiting : List Path}

variable (env explicit) in
/-- The finished files are kept under their own paths. -/
def SeenNodes (walk : Walk Path Config) : Prop :=
  ∀ p x, walk.seen.get? p = some x → x.path = some p ∧ IsNode env explicit x

variable (env explicit) in
/-- None of the files in progress lies on a way that is as short. -/
def Ahead (walk : Walk Path Config) (visiting : List Path) (k : Nat) : Prop :=
  ∀ p ∈ visiting, ∀ x, IsNode env explicit x → x.path = some p →
    ∀ xs j, Descends env explicit (Seen walk) x xs j → k < j

theorem visit_of_descends (hlocated : Located explicit) (hseen : SeenNodes env explicit walk)
    (hl : IsNode env explicit l) (h : Descends env explicit (Seen walk) l ls k) (hk : k ≤ n)
    (hahead : Ahead env explicit walk visiting k) :
    visit env explicit n visiting walk l = .ok (addLayers walk ls) := by
  induction h generalizing n visiting with
  | @finished l p hpath hp =>
    obtain ⟨n, rfl⟩ : ∃ m, n = m + 1 := ⟨n - 1, by omega⟩
    have hnot : p ∉ visiting := fun hin =>
      absurd (hahead p hin l hl hpath [] 1 (.finished hpath hp)) (by omega)
    obtain ⟨x, hx⟩ := Dict.mem_keys.mp hp
    obtain ⟨hxpath, hxnode⟩ := hseen p x hx
    obtain rfl := hxnode.eq hl hxpath hpath
    simp only [visit, hpath, if_neg hnot, hx, if_true]
    rfl
  | @top l hfresh hnext =>
    obtain ⟨n, rfl⟩ : ∃ m, n = m + 1 := ⟨n - 1, by omega⟩
    have hparent : ∀ go, visitParent env explicit go walk l = .ok walk := by
      intro go
      unfold visitParent
      rw [hnext]
      rfl
    cases hpath : l.path with
    | none =>
      simp only [visit, hpath, hparent]
      simp [addLayers, addLayer, hpath, bind, Except.bind, pure, Except.pure]
    | some p =>
      have hnot : p ∉ visiting := fun hin =>
        absurd (hahead p hin l hl hpath [l] 1 (.top hfresh hnext)) (by omega)
      have hnone : walk.seen.get? p = none := Dict.get?_eq_none.mpr (hfresh p hpath)
      simp only [visit, hpath, if_neg hnot, hnone, hparent]
      simp [addLayers, addLayer, hpath, bind, Except.bind, pure, Except.pure]
  | @step l m ls k hfresh hnext h ih =>
    obtain ⟨n, rfl⟩ : ∃ m, n = m + 1 := ⟨n - 1, by omega⟩
    have hm := (hnext.isNode hlocated).2
    have hparent : ∀ go, visitParent env explicit go walk l = go m := by
      intro go
      unfold visitParent
      rw [hnext]
      rfl
    cases hpath : l.path with
    | none =>
      have hrest : visit env explicit n visiting walk m = .ok (addLayers walk ls) := by
        refine ih hm (by omega) fun p hp x hx hxpath xs j hxs => ?_
        have := hahead p hp x hx hxpath xs j hxs
        omega
      simp only [visit, hpath, hparent, hrest]
      simp [addLayers, addLayer, hpath, bind, Except.bind, pure, Except.pure]
    | some p =>
      have hnot : p ∉ visiting := fun hin =>
        absurd (hahead p hin l hl hpath _ _ (.step hfresh hnext h)) (by omega)
      have hnone : walk.seen.get? p = none := Dict.get?_eq_none.mpr (hfresh p hpath)
      have hrest : visit env explicit n (visiting ++ [p]) walk m = .ok (addLayers walk ls) := by
        refine ih hm (by omega) fun q hq x hx hxpath xs j hxs => ?_
        rcases List.mem_append.mp hq with hq | hq
        · have := hahead q hq x hx hxpath xs j hxs
          omega
        · obtain rfl := List.mem_singleton.mp hq
          obtain rfl := hx.eq hl hxpath hpath
          obtain ⟨-, rfl⟩ := (Descends.step hfresh hnext h).unique hxs
          omega
      simp only [visit, hpath, if_neg hnot, hnone, hparent, hrest]
      simp [addLayers, addLayer, hpath, bind, Except.bind, pure, Except.pure]

/-- A visit that ends well has a way down that is short enough. -/
theorem descends_of_visit {walk' : Walk Path Config}
    (h : visit env explicit n visiting walk l = .ok walk') :
    ∃ ls k, Descends env explicit (Seen walk) l ls k ∧ k ≤ n := by
  induction n generalizing l visiting walk' with
  | zero => cases h
  | succ n ih =>
    have hbelow : ∀ visiting w, Fresh (Seen walk) l →
        visitParent env explicit (visit env explicit n visiting walk) walk l = .ok w →
        ∃ ls k, Descends env explicit (Seen walk) l ls k ∧ k ≤ n + 1 := by
      intro visiting w hfresh hparent
      unfold visitParent at hparent
      obtain ⟨next, hnext, hgo⟩ := bind_eq_ok.mp hparent
      cases next with
      | none => exact ⟨[l], 1, .top hfresh hnext, by omega⟩
      | some m =>
        obtain ⟨ls, k, hdescends, hk⟩ := ih hgo
        exact ⟨l :: ls, k + 1, .step hfresh hnext hdescends, by omega⟩
    cases hpath : l.path with
    | none =>
      simp only [visit, hpath, bind_eq_ok] at h
      obtain ⟨w, hw, -⟩ := h
      refine hbelow visiting w (fun p hp => ?_) hw
      cases hpath.symm.trans hp
    | some p =>
      simp only [visit, hpath] at h
      split_ifs at h with hin
      cases hget : walk.seen.get? p with
      | some x =>
        exact ⟨[], 1, .finished hpath (Dict.mem_keys.mpr ⟨x, hget⟩), by omega⟩
      | none =>
        simp only [hget, bind_eq_ok] at h
        obtain ⟨w, hw, -⟩ := h
        refine hbelow (visiting ++ [p]) w (fun q hq => ?_) hw
        obtain rfl := Option.some.inj (hpath.symm.trans hq)
        exact Dict.get?_eq_none.mp hget

end Visit

variable (env explicit) in
/-- Every layer stands after the one under it. -/
def Ordered (layers : List (Layer Path Config)) : Prop :=
  ∀ before x after, layers = before ++ x :: after →
    nextLayer env explicit x = .ok none ∨ ∃ m ∈ before, Link env explicit x m

theorem ordered_concat (h : Ordered env explicit layers)
    (hl : nextLayer env explicit l = .ok none ∨ ∃ m ∈ layers, Link env explicit l m) :
    Ordered env explicit (layers ++ [l]) := by
  intro before x after heq
  rcases List.eq_nil_or_concat after with rfl | ⟨rest, y, rfl⟩
  · obtain ⟨rfl, hx⟩ := List.append_inj' heq rfl
    cases hx
    exact hl
  · rw [List.concat_eq_append, ← List.cons_append, ← List.append_assoc] at heq
    obtain ⟨hfront, -⟩ := List.append_inj' heq rfl
    exact h before x rest hfront

variable {x r : Layer Path Config}

theorem Ordered.closed (h : Ordered env explicit layers) {y : Layer Path Config} (hx : x ∈ layers)
    (hreach : ReflTransGen (Link env explicit) x y) : y ∈ layers := by
  induction hreach with
  | refl => exact hx
  | tail _ hlink ih =>
    obtain ⟨before, after, rfl⟩ := List.append_of_mem ih
    rcases h before _ after rfl with hnone | ⟨m, hm, hlink'⟩
    · cases hnone.symm.trans hlink
    · obtain rfl := hlink.unique hlink'
      exact List.mem_append_left _ hm

theorem Ordered.init (h : Ordered env explicit (layers ++ [l])) : Ordered env explicit layers := by
  intro before x after heq
  refine h before x (after ++ [l]) ?_
  rw [heq, List.append_assoc, List.cons_append]

theorem Ordered.acc (h : Ordered env explicit layers) :
    ∀ x ∈ layers, Acc (fun m l => Link env explicit l m) x := by
  induction layers using List.reverseRecOn with
  | nil => exact fun x hx => absurd hx List.not_mem_nil
  | append_singleton layers l ih =>
    have hbefore := ih h.init
    intro x hx
    rcases List.mem_append.mp hx with hx | hx
    · exact hbefore x hx
    · obtain rfl := List.mem_singleton.mp hx
      constructor
      intro m hlink
      rcases h layers x [] rfl with hnone | ⟨m', hm', hlink'⟩
      · cases hnone.symm.trans hlink
      · obtain rfl := hlink.unique hlink'
        exact hbefore _ hm'

theorem Ordered.not_cyclic (h : Ordered env explicit layers) (hl : l ∈ layers) :
    ¬Cyclic env explicit l := by
  rintro ⟨x, hreach, hloop⟩
  refine ParentChains.not_transGen_self_of_acc (h.acc x (h.closed hl hreach)) ?_
  exact Relation.transGen_swap.mp hloop

theorem Ordered.not_fails (h : Ordered env explicit layers) (hl : l ∈ layers) :
    ¬Fails env explicit l := by
  rintro ⟨x, hreach, e, herror⟩
  obtain ⟨before, after, rfl⟩ := List.append_of_mem (h.closed hl hreach)
  rcases h before x after rfl with hnone | ⟨m, -, hlink⟩
  · cases hnone.symm.trans herror
  · cases hlink.symm.trans herror

variable (env explicit) in
/-- The finished files are those in the output, each once and after the one under it. -/
structure Sound (walk : Walk Path Config) : Prop where
  seen : ∀ p x, walk.seen.get? p = some x ↔ x ∈ walk.layers ∧ x.path = some p
  nodes : ∀ x ∈ walk.layers, IsNode env explicit x
  nodup : (walk.layers.filterMap Layer.path).Nodup
  ordered : Ordered env explicit walk.layers

theorem Sound.seen_iff (h : Sound env explicit walk) (p : Path) :
    Seen walk p ↔ ∃ x ∈ walk.layers, x.path = some p := by
  rw [Seen, Dict.mem_keys]
  simp only [h.seen]

theorem Sound.addLayer {walk : Walk Path Config} (h : Sound env explicit walk)
    {l : Layer Path Config} (hfresh : Fresh (Seen walk) l) (hl : IsNode env explicit l)
    (hnext : nextLayer env explicit l = .ok none ∨ ∃ m ∈ walk.layers, Link env explicit l m) :
    Sound env explicit (addLayer walk l) := by
  have hnew : ∀ p, l.path = some p → ∀ x ∈ walk.layers, x.path ≠ some p := by
    intro p hp x hx hpath
    exact hfresh p hp ((h.seen_iff p).mpr ⟨x, hx, hpath⟩)
  constructor
  case seen =>
    intro p x
    simp only [LayerSequences.addLayer, List.mem_append, List.mem_singleton]
    cases hpath : l.path with
    | none =>
      rw [Option.elim_none, h.seen]
      constructor
      · rintro ⟨hx, hxp⟩
        exact ⟨.inl hx, hxp⟩
      · rintro ⟨hx | rfl, hxp⟩
        · exact ⟨hx, hxp⟩
        · cases hpath.symm.trans hxp
    | some q =>
      rw [Option.elim_some, Dict.get?_set]
      split_ifs with hq
      · subst hq
        constructor
        · intro hlx
          obtain rfl := Option.some.inj hlx
          exact ⟨.inr rfl, hpath⟩
        · rintro ⟨hx | rfl, hxp⟩
          · exact absurd hxp (hnew q hpath x hx)
          · rfl
      · rw [h.seen]
        constructor
        · rintro ⟨hx, hxp⟩
          exact ⟨.inl hx, hxp⟩
        · rintro ⟨hx | rfl, hxp⟩
          · exact ⟨hx, hxp⟩
          · exact absurd (Option.some.inj (hpath.symm.trans hxp)) hq
  case nodes =>
    intro x hx
    rcases List.mem_append.mp hx with hx | hx
    · exact h.nodes x hx
    · obtain rfl := List.mem_singleton.mp hx
      exact hl
  case nodup =>
    rw [LayerSequences.addLayer, List.filterMap_append]
    cases hpath : l.path with
    | none => simpa [hpath] using h.nodup
    | some p =>
      rw [List.filterMap_cons_some hpath, List.filterMap_nil]
      refine List.nodup_append.mpr ⟨h.nodup, List.nodup_singleton p, ?_⟩
      intro q hq r hr hqr
      obtain rfl := List.mem_singleton.mp hr
      obtain ⟨x, hx, hxpath⟩ := List.mem_filterMap.mp hq
      exact hnew r hpath x hx (hqr ▸ hxpath)
  case ordered => exact ordered_concat h.ordered hnext

theorem addLayers_layers (walk : Walk Path Config) (ls : List (Layer Path Config)) :
    (addLayers walk ls).layers = walk.layers ++ ls.reverse := by
  induction ls with
  | nil => simp [addLayers]
  | cons l ls ih =>
    have hcons : (addLayers walk (l :: ls)).layers = (addLayers walk ls).layers ++ [l] := rfl
    rw [hcons, ih, List.reverse_cons, List.append_assoc]

section Roots

variable (hlocated : Located explicit) {walk : Walk Path Config} {l : Layer Path Config}
  {ls : List (Layer Path Config)} {k : Nat}

theorem Descends.mem (hsound : Sound env explicit walk) (hl : IsNode env explicit l)
    (h : Descends env explicit (Seen walk) l ls k) : l ∈ (addLayers walk ls).layers := by
  rw [addLayers_layers]
  cases h with
  | finished hpath hp =>
    obtain ⟨x, hx, hxpath⟩ := (hsound.seen_iff _).mp hp
    obtain rfl := (hsound.nodes x hx).eq hl hxpath hpath
    exact List.mem_append_left _ hx
  | top | step => simp

include hlocated

theorem Descends.sound (hsound : Sound env explicit walk) (hl : IsNode env explicit l)
    (h : Descends env explicit (Seen walk) l ls k) : Sound env explicit (addLayers walk ls) := by
  induction h with
  | finished => exact hsound
  | top hfresh hnext => exact hsound.addLayer hfresh hl (.inl hnext)
  | @step l m ls k hfresh hnext h ih =>
    have hm := (hnext.isNode hlocated).2
    have hrest := ih hm
    refine hrest.addLayer (fun p hp hseen => ?_) hl (.inr ⟨m, h.mem hsound hm, hnext⟩)
    obtain ⟨x, hx, hxpath⟩ := (hrest.seen_iff p).mp hseen
    rw [addLayers_layers, List.mem_append, List.mem_reverse] at hx
    rcases hx with hx | hx
    · exact hfresh p hp ((hsound.seen_iff p).mpr ⟨x, hx, hxpath⟩)
    · have hnodup := (Descends.step hfresh hnext h).nodup hlocated hl
      rw [List.filterMap_cons_some hp] at hnodup
      exact (List.nodup_cons.mp hnodup).1 (List.mem_filterMap.mpr ⟨x, hx, hxpath⟩)

end Roots

def inlineLayers (layers : List (Layer Path Config)) : List (Layer Path Config) :=
  layers.filter fun l => l.path.isNone

variable (env explicit) in
/-- The output is what the roots so far reach. -/
structure Done (roots : List (Layer Path Config)) (walk : Walk Path Config) : Prop where
  sound : Sound env explicit walk
  inline : inlineLayers walk.layers = inlineLayers roots
  reached : ∀ x, x ∈ walk.layers ↔ ∃ r ∈ roots, ReflTransGen (Link env explicit) r x

theorem Done.seen_iff (h : Done env explicit roots walk) :
    Seen walk = Reached env explicit roots := by
  funext p
  apply propext
  rw [h.sound.seen_iff]
  constructor
  · rintro ⟨x, hx, hpath⟩
    obtain ⟨r, hr, hreach⟩ := (h.reached x).mp hx
    exact ⟨r, hr, x, hreach, hpath⟩
  · rintro ⟨r, hr, x, hreach, hpath⟩
    exact ⟨x, (h.reached x).mpr ⟨r, hr, hreach⟩, hpath⟩

theorem done_nil : Done env explicit ([] : List (Layer Path Config)) {} := by
  constructor
  case sound =>
    constructor
    case seen => simp
    case nodes => simp
    case nodup => simp
    case ordered =>
      intro before x after heq
      simp at heq
  case inline => rfl
  case reached => simp

section Run

variable [DecidableEq Config] {roots : List (Layer Path Config)} {r : Layer Path Config}
  {walk walk' : Walk Path Config}

theorem Done.visit_root (hlocated : Located explicit) (h : Done env explicit roots walk)
    (hr : IsNode env explicit r) {ls : List (Layer Path Config)} {k : Nat}
    (hdescends : Descends env explicit (Reached env explicit roots) r ls k) (hk : k ≤ maxDepth) :
    visit env explicit maxDepth [] walk r = .ok (addLayers walk ls) := by
  rw [← h.seen_iff] at hdescends
  refine visit_of_descends hlocated (fun p x hx => ?_) hr hdescends hk ?_
  · obtain ⟨hmem, hpath⟩ := (h.sound.seen p x).mp hx
    exact ⟨hpath, h.sound.nodes x hmem⟩
  · exact fun p hp => absurd hp List.not_mem_nil

theorem Done.root (hlocated : Located explicit) (h : Done env explicit roots walk)
    (hr : IsNode env explicit r) (hvisit : visit env explicit maxDepth [] walk r = .ok walk') :
    Done env explicit (roots ++ [r]) walk' ∧
      ∃ ls k, Descends env explicit (Reached env explicit roots) r ls k ∧ k ≤ maxDepth := by
  obtain ⟨ls, k, hdescends, hk⟩ := descends_of_visit hvisit
  have hway : Descends env explicit (Reached env explicit roots) r ls k := h.seen_iff ▸ hdescends
  obtain rfl : addLayers walk ls = walk' :=
    Except.ok.inj ((h.visit_root hlocated hr hway hk).symm.trans hvisit)
  have hsound := hdescends.sound hlocated h.sound hr
  refine ⟨⟨hsound, ?_, fun x => ?_⟩, ls, k, hway, hk⟩
  · rw [addLayers_layers, inlineLayers, List.filter_append, List.filter_reverse,
      hdescends.paths hlocated, inlineLayers, List.filter_append]
    have hbefore := h.inline
    unfold inlineLayers at hbefore
    rw [hbefore]
    cases hpath : r.path <;> simp [hpath]
  · constructor
    · intro hx
      rw [addLayers_layers, List.mem_append, List.mem_reverse] at hx
      rcases hx with hx | hx
      · obtain ⟨s, hs, hreach⟩ := (h.reached x).mp hx
        exact ⟨s, List.mem_append_left _ hs, hreach⟩
      · exact ⟨r, by simp, hdescends.reaches x hx⟩
    · rintro ⟨s, hs, hreach⟩
      rcases List.mem_append.mp hs with hs | hs
      · rw [addLayers_layers]
        exact List.mem_append_left _ ((h.reached x).mpr ⟨s, hs, hreach⟩)
      · obtain rfl := List.mem_singleton.mp hs
        exact hsound.ordered.closed (hdescends.mem h.sound hr) hreach

theorem done_of_walk (hlocated : Located explicit) (hroots : ∀ r ∈ roots, IsNode env explicit r)
    (h : roots.foldlM (visit env explicit maxDepth []) {} = .ok walk) :
    Done env explicit roots walk := by
  induction roots using List.reverseRecOn generalizing walk with
  | nil =>
    cases h
    exact done_nil
  | append_singleton roots r ih =>
    rw [List.foldlM_append, bind_eq_ok] at h
    obtain ⟨before, hbefore, hlast⟩ := h
    obtain ⟨after, hvisit, hend⟩ := foldlM_cons_eq_ok.mp hlast
    cases hend
    have hdone := ih (fun s hs => hroots s (List.mem_append_left _ hs)) hbefore
    exact (hdone.root hlocated (hroots r (by simp)) hvisit).1

variable (env explicit) in
/-- The walk from a root after others goes around, fails, or goes too deep. -/
def Troubled (before : List (Layer Path Config)) (r : Layer Path Config) : Prop :=
  Cyclic env explicit r ∨ Fails env explicit r ∨
    GoesOn env explicit (Reached env explicit before) maxDepth r

theorem walk_error_iff (hlocated : Located explicit) (hroots : ∀ r ∈ roots, IsNode env explicit r) :
    (∃ e, roots.foldlM (visit env explicit maxDepth []) {} = .error e) ↔
      ∃ before r after, roots = before ++ r :: after ∧ Troubled env explicit before r := by
  constructor
  case mp =>
    rintro ⟨e, herror⟩
    induction roots using List.reverseRecOn with
    | nil => cases herror
    | append_singleton roots r ih =>
      have hbefore : ∀ s ∈ roots, IsNode env explicit s :=
        fun s hs => hroots s (List.mem_append_left _ hs)
      rw [List.foldlM_append] at herror
      cases hwalk : roots.foldlM (visit env explicit maxDepth []) {} with
      | error e' =>
        obtain ⟨before, s, after, rfl, htrouble⟩ := ih hbefore (by
          rw [hwalk] at herror
          cases herror
          exact hwalk)
        exact ⟨before, s, after ++ [r], by simp, htrouble⟩
      | ok walk =>
        have hdone := done_of_walk hlocated hbefore hwalk
        refine ⟨roots, r, [], rfl, .inr ?_⟩
        have hway : (∃ ls k, Descends env explicit (Reached env explicit roots) r ls k ∧
            k ≤ maxDepth) ∨ Fails env explicit r ∨
              GoesOn env explicit (Reached env explicit roots) maxDepth r :=
          descends_or maxDepth r
        refine hway.resolve_left ?_
        rintro ⟨ls, k, hdescends, hk⟩
        have hvisit := hdone.visit_root hlocated (hroots r (by simp)) hdescends hk
        rw [hwalk] at herror
        change [r].foldlM (visit env explicit maxDepth []) walk = _ at herror
        rw [List.foldlM_cons, hvisit] at herror
        cases herror
  case mpr =>
    rintro ⟨before, r, after, rfl, htrouble⟩
    cases hwalk : (before ++ r :: after).foldlM (visit env explicit maxDepth []) {} with
    | error e => exact ⟨e, rfl⟩
    | ok walk =>
      rw [List.foldlM_append, bind_eq_ok] at hwalk
      obtain ⟨walkBefore, hbefore, hrest⟩ := hwalk
      obtain ⟨walkRoot, hvisit, -⟩ := foldlM_cons_eq_ok.mp hrest
      have hdone := done_of_walk hlocated
        (fun s hs => hroots s (List.mem_append_left _ hs)) hbefore
      obtain ⟨hroot, ls, k, hdescends, hk⟩ :=
        hdone.root hlocated (hroots r (by simp)) hvisit
      have hmem : r ∈ walkRoot.layers := (hroot.reached r).mpr ⟨r, by simp, .refl⟩
      rcases htrouble with hcyclic | hfails | hgoes
      · exact absurd hcyclic (hroot.sound.ordered.not_cyclic hmem)
      · exact absurd hfails (hroot.sound.ordered.not_fails hmem)
      · exact absurd hgoes (hdescends.not_goesOn hk)

theorem visit_appends {n : Nat} {visiting : List Path}
    (h : visit env explicit n visiting walk r = .ok walk') :
    ∃ new, walk'.layers = walk.layers ++ new := by
  induction n generalizing r visiting walk' with
  | zero => cases h
  | succ n ih =>
    have hbelow : ∀ visiting w,
        visitParent env explicit (visit env explicit n visiting walk) walk r = .ok w →
        ∃ new, w.layers = walk.layers ++ new := by
      intro visiting w hparent
      unfold visitParent at hparent
      obtain ⟨next, -, hgo⟩ := bind_eq_ok.mp hparent
      cases next with
      | none =>
        cases hgo
        exact ⟨[], (List.append_nil _).symm⟩
      | some m => exact ih hgo
    cases hpath : r.path with
    | none =>
      simp only [visit, hpath, bind_eq_ok, pure_eq_ok] at h
      obtain ⟨w, hw, rfl⟩ := h
      obtain ⟨new, hnew⟩ := hbelow visiting w hw
      exact ⟨new ++ [r], by simp [hnew]⟩
    | some p =>
      simp only [visit, hpath] at h
      split_ifs at h
      cases hget : walk.seen.get? p with
      | some x =>
        simp only [hget] at h
        split_ifs at h
        cases h
        exact ⟨[], (List.append_nil _).symm⟩
      | none =>
        simp only [hget, bind_eq_ok, pure_eq_ok] at h
        obtain ⟨w, hw, rfl⟩ := h
        obtain ⟨new, hnew⟩ := hbelow (visiting ++ [p]) w hw
        exact ⟨new ++ [r], by simp [hnew]⟩

theorem walk_appends (h : roots.foldlM (visit env explicit maxDepth []) walk = .ok walk') :
    ∃ new, walk'.layers = walk.layers ++ new := by
  induction roots generalizing walk with
  | nil =>
    cases h
    exact ⟨[], (List.append_nil _).symm⟩
  | cons r roots ih =>
    obtain ⟨w, hvisit, hrest⟩ := foldlM_cons_eq_ok.mp h
    obtain ⟨first, hfirst⟩ := visit_appends hvisit
    obtain ⟨others, hothers⟩ := ih hrest
    exact ⟨first ++ others, by rw [hothers, hfirst, List.append_assoc]⟩

end Run

/-- One path comes with two contents. -/
def Conflicting (roots : List (Layer Path Config)) : Prop :=
  ∃ r ∈ roots, ∃ s ∈ roots, ∃ p, r.path = some p ∧ s.path = some p ∧ r.config ≠ s.config

def supply (supplied : Dict Path (Layer Path Config)) (root : Layer Path Config) :
    Dict Path (Layer Path Config) :=
  root.path.elim supplied fun p => supplied.set p root

/-- The roots by their paths. -/
def suppliedRoots (roots : List (Layer Path Config)) : Dict Path (Layer Path Config) :=
  roots.foldl supply ∅

theorem suppliedRoots_concat (roots : List (Layer Path Config)) (r : Layer Path Config) :
    suppliedRoots (roots ++ [r]) = supply (suppliedRoots roots) r := by
  simp [suppliedRoots]

theorem get?_suppliedRoots (h : (suppliedRoots roots).get? p = some x) :
    x ∈ roots ∧ x.path = some p := by
  induction roots using List.reverseRecOn with
  | nil => cases h
  | append_singleton roots r ih =>
    rw [suppliedRoots_concat, supply] at h
    cases hpath : r.path with
    | none =>
      rw [hpath, Option.elim_none] at h
      obtain ⟨hx, hxp⟩ := ih h
      exact ⟨List.mem_append_left _ hx, hxp⟩
    | some q =>
      rw [hpath, Option.elim_some, Dict.get?_set] at h
      split_ifs at h with hq
      · cases h
        exact ⟨by simp, hq ▸ hpath⟩
      · obtain ⟨hx, hxp⟩ := ih h
        exact ⟨List.mem_append_left _ hx, hxp⟩

theorem suppliedRoots_isSome (hr : r ∈ roots) (hp : r.path = some p) :
    ∃ x, (suppliedRoots roots).get? p = some x := by
  induction roots using List.reverseRecOn with
  | nil => cases hr
  | append_singleton roots s ih =>
    rw [suppliedRoots_concat, supply]
    rcases List.mem_append.mp hr with hr | hr
    · obtain ⟨x, hx⟩ := ih hr
      cases hpath : s.path with
      | none => exact ⟨x, hx⟩
      | some q =>
        rw [Option.elim_some, Dict.get?_set]
        split_ifs
        · exact ⟨s, rfl⟩
        · exact ⟨x, hx⟩
    · obtain rfl := List.mem_singleton.mp hr
      rw [hp, Option.elim_some]
      exact ⟨r, Dict.get?_set_self _ _ _⟩

theorem located_suppliedRoots (roots : List (Layer Path Config)) :
    Located (suppliedRoots roots) := fun _ _ h => (get?_suppliedRoots h).2

theorem isNode_root (h : ¬Conflicting roots) : ∀ r ∈ roots, IsNode env (suppliedRoots roots) r := by
  intro r hr p hp
  obtain ⟨x, hx⟩ := suppliedRoots_isSome hr hp
  obtain ⟨hxmem, hxp⟩ := get?_suppliedRoots hx
  have hsame : x.config = r.config := by
    by_contra hne
    exact h ⟨x, hxmem, r, hr, p, hxp, hp, hne⟩
  rw [Layer.ext_path hxp hp hsame] at hx
  exact .inl hx

omit [DecidableEq Path] in
theorem Conflicting.mono (h : Conflicting roots) : Conflicting (roots ++ [r]) := by
  obtain ⟨x, hx, y, hy, rest⟩ := h
  exact ⟨x, List.mem_append_left _ hx, y, List.mem_append_left _ hy, rest⟩

section Supplied

variable [DecidableEq Config] {d : Dict Path (Layer Path Config)} {roots : List (Layer Path Config)}
  {r : Layer Path Config}

theorem supplyRoot_eq_ok {d' : Dict Path (Layer Path Config)} :
    supplyRoot env d r = .ok d' ↔
      supply d r = d' ∧ ∀ p x, r.path = some p → d.get? p = some x → x.config = r.config := by
  unfold supplyRoot supply
  cases hpath : r.path with
  | none => simp
  | some p =>
    simp only [Option.elim_some]
    cases hget : d.get? p with
    | none =>
      simp only [Except.ok.injEq, iff_self_and]
      rintro - q x hq hx
      obtain rfl := Option.some.inj hq
      cases hget.symm.trans hx
    | some y =>
      dsimp only
      split_ifs with hsame
      · simp only [Except.ok.injEq, iff_self_and]
        rintro - q x hq hx
        obtain rfl := Option.some.inj hq
        obtain rfl := Option.some.inj (hget.symm.trans hx)
        exact hsame
      · refine iff_of_false (fun h => by cases h) ?_
        rintro ⟨-, hall⟩
        exact hsame (hall p y rfl hget)

theorem not_conflicting_concat :
    ¬Conflicting (roots ++ [r]) ↔ ¬Conflicting roots ∧
      ∀ p x, r.path = some p → (suppliedRoots roots).get? p = some x → x.config = r.config := by
  constructor
  case mp =>
    intro h
    refine ⟨fun hc => h hc.mono, fun p x hp hx => ?_⟩
    obtain ⟨hmem, hxp⟩ := get?_suppliedRoots hx
    by_contra hne
    exact h ⟨x, List.mem_append_left _ hmem, r, by simp, p, hxp, hp, hne⟩
  case mpr =>
    rintro ⟨hroots, hlast⟩ ⟨x, hx, y, hy, p, hxp, hyp, hne⟩
    have hsame : ∀ z ∈ roots, z.path = some p → r.path = some p → z.config = r.config := by
      intro z hz hzp hrp
      obtain ⟨w, hw⟩ := suppliedRoots_isSome hz hzp
      obtain ⟨hwmem, hwp⟩ := get?_suppliedRoots hw
      rw [← hlast p w hrp hw]
      by_contra hzw
      exact hroots ⟨z, hz, w, hwmem, p, hzp, hwp, hzw⟩
    rcases List.mem_append.mp hx with hx' | hx' <;> rcases List.mem_append.mp hy with hy' | hy'
    · exact hroots ⟨x, hx', y, hy', p, hxp, hyp, hne⟩
    · obtain rfl := List.mem_singleton.mp hy'
      exact hne (hsame x hx' hxp hyp)
    · obtain rfl := List.mem_singleton.mp hx'
      exact hne (hsame y hy' hyp hxp).symm
    · exact hne (congrArg Layer.config
        ((List.mem_singleton.mp hx').trans (List.mem_singleton.mp hy').symm))

theorem explicitRoots_eq_ok :
    explicitRoots env roots = .ok d ↔ suppliedRoots roots = d ∧ ¬Conflicting roots := by
  induction roots using List.reverseRecOn generalizing d with
  | nil =>
    have hnone : ¬Conflicting ([] : List (Layer Path Config)) := by
      rintro ⟨x, hx, -⟩
      cases hx
    simp [explicitRoots, suppliedRoots, hnone, pure, Except.pure]
  | append_singleton roots r ih =>
    have hrun : explicitRoots env (roots ++ [r]) =
        explicitRoots env roots >>= fun before => supplyRoot env before r := by
      simp [explicitRoots]
    rw [hrun, bind_eq_ok, suppliedRoots_concat, not_conflicting_concat]
    constructor
    · rintro ⟨before, hbefore, hlast⟩
      obtain ⟨rfl, hagree⟩ := ih.mp hbefore
      obtain ⟨rfl, hsame⟩ := supplyRoot_eq_ok.mp hlast
      exact ⟨rfl, hagree, hsame⟩
    · rintro ⟨rfl, hagree, hlast⟩
      exact ⟨_, ih.mpr ⟨rfl, hagree⟩, supplyRoot_eq_ok.mpr ⟨rfl, hlast⟩⟩

end Supplied

variable (env) in
/-- A path has two contents, or the walk from a root after the ones before it is troubled. -/
def Refused (roots : List (Layer Path Config)) : Prop :=
  Conflicting roots ∨ ∃ before r after, roots = before ++ r :: after ∧
    Troubled env (suppliedRoots roots) before r

variable (env) in
/-- The layers that the roots reach, in order and each once, those of the first root
first. -/
structure Linearized (roots layers : List (Layer Path Config)) : Prop where
  reached : ∀ x, x ∈ layers ↔ ∃ r ∈ roots, ReflTransGen (Link env (suppliedRoots roots)) r x
  once : (layers.filterMap Layer.path).Nodup
  inline : inlineLayers layers = inlineLayers roots
  ordered : Ordered env (suppliedRoots roots) layers
  firstRoot : ∀ r rest, roots = r :: rest → ∃ first others, layers = first ++ others ∧
    ∀ x, x ∈ first ↔ ReflTransGen (Link env (suppliedRoots roots)) r x

theorem linearized_of_walk [DecidableEq Config] (hagree : ¬Conflicting roots)
    (h : roots.foldlM (visit env (suppliedRoots roots) maxDepth []) {} = .ok walk) :
    Linearized env roots walk.layers := by
  have hdone := done_of_walk (located_suppliedRoots roots) (isNode_root hagree) h
  refine ⟨hdone.reached, hdone.sound.nodup, hdone.inline, hdone.sound.ordered, ?_⟩
  rintro r rest rfl
  obtain ⟨first, hvisit, hrest⟩ := foldlM_cons_eq_ok.mp h
  obtain ⟨others, hothers⟩ := walk_appends hrest
  have hfirst := (done_nil.root (located_suppliedRoots _)
    (isNode_root hagree r List.mem_cons_self) hvisit).1
  refine ⟨first.layers, others, hothers, fun x => ?_⟩
  rw [hfirst.reached]
  simp

/-- The resolver refuses exactly the roots with a path of two contents and those from which
it would go around, fail or go too deep; all others it linearizes. -/
theorem resolve_linearizes [DecidableEq Config] (roots : List (Layer Path Config)) :
    match resolveConfigLayerSequence env roots with
    | .error _ => Refused env roots
    | .ok layers => ¬Refused env roots ∧ Linearized env roots layers := by
  unfold resolveConfigLayerSequence
  by_cases hagree : Conflicting roots
  case pos =>
    cases hexplicit : explicitRoots env roots with
    | error e => exact .inl hagree
    | ok d => exact absurd hagree (explicitRoots_eq_ok.mp hexplicit).2
  case neg =>
    rw [explicitRoots_eq_ok.mpr ⟨rfl, hagree⟩]
    have hnodes : ∀ r ∈ roots, IsNode env (suppliedRoots roots) r := isNode_root hagree
    have hiff := walk_error_iff (located_suppliedRoots roots) hnodes
    cases hwalk : roots.foldlM (visit env (suppliedRoots roots) maxDepth []) {} with
    | error e =>
        have htrouble := hiff.mp ⟨e, hwalk⟩
        simp only [bind, Except.bind, hwalk]
        exact .inr htrouble
    | ok walk =>
        simp only [bind, Except.bind, hwalk, pure, Except.pure]
        refine ⟨?_, linearized_of_walk hagree hwalk⟩
        rintro (hconflict | htrouble)
        · exact hagree hconflict
        · obtain ⟨e, he⟩ := hiff.mpr htrouble
          cases hwalk.symm.trans he

/-- Each file extends the one before it, and the first stands alone. -/
def countdown : FileEnv Nat Nat where
  extendsPath n := if n = 0 then none else some (n - 1)
  isAbsolute := fun _ => true
  parent := id
  join := fun _ p => p
  resolve := id
  confine := fun _ => .ok ()
  present := fun _ => true
  load := .ok
  overlayBase := fun _ => .ok none
  text := toString

def twoRoots : List (Layer Nat Nat) := [loadedLayer 1 1, loadedLayer 32 32]

theorem override_countdown (n : Nat) :
    override (suppliedRoots twoRoots) (loadedLayer n n) = loadedLayer n n := by
  unfold override
  change ((suppliedRoots twoRoots).get? n).getD (loadedLayer n n) = _
  cases hget : (suppliedRoots twoRoots).get? n with
  | none => rfl
  | some x =>
    obtain ⟨hx, hpath⟩ := get?_suppliedRoots hget
    rcases List.mem_cons.mp hx with rfl | hx
    · cases hpath
      rfl
    · obtain rfl := List.mem_singleton.mp hx
      cases hpath
      rfl

theorem goesOn_countdown {n m : Nat} (h : n ≤ m) :
    GoesOn countdown (suppliedRoots twoRoots) (fun _ => False) n (loadedLayer m m) := by
  induction n generalizing m with
  | zero => exact .here _
  | succ n ih =>
    obtain ⟨m, rfl⟩ : ∃ k, m = k + 1 := ⟨m - 1, by omega⟩
    refine .further (fun _ _ => not_false) ?_ (ih (Nat.le_of_succ_le_succ h))
    change Except.ok (some (override (suppliedRoots twoRoots) (loadedLayer m m))) = _
    rw [override_countdown]

/-- The chain of the last root has 33 layers, and two of them are the first root's. -/
theorem long_chain_in_parts :
    resolveConfigLayerSequence countdown twoRoots =
      .ok ((List.range 33).map fun n => loadedLayer n n) ∧
    GoesOn countdown (suppliedRoots twoRoots) (fun _ => False) maxDepth (loadedLayer 32 32) :=
  ⟨by rfl, goesOn_countdown (Nat.le_refl 32)⟩

end Cruxible.LayerSequences
