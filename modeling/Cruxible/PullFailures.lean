import Cruxible.Attempts
import Cruxible.LocalWork

/-!
# A pull that fails

Applying a pull checks a preview, takes a snapshot, replaces the materialized
upstream directory and the active config, merges the graphs, commits the merge
with its receipt in one transaction, and only then records the release and writes
the lock. Each of these can raise. The database rolls a failed transaction back; a
file that has been written stays written.

Digests, the composer, the lock builder and the operator entities that the config
asks for are arbitrary functions here.
-/
namespace Cruxible.PullFailures
open JsonValue PythonDict GraphImages OverlayMerges UpstreamPulls
open Attempts Attempts.Attempt
open Cruxible.Graph (EntityInstance)
open ClaimIndexes (countedId)
open LocalWork (serviceRelease)

inductive UpstreamMember where
  | manifest | graph | config | lock
  deriving DecidableEq

def UpstreamMember.fileName : UpstreamMember → String
  | .manifest => "manifest.json"
  | .graph => "graph.json"
  | .config => "config.yaml"
  | .lock => "cruxible.lock.yaml"

/-- `ALL_UPSTREAM_MEMBERS`. -/
def allUpstreamMembers : List UpstreamMember := [.manifest, .graph, .config, .lock]

/-- A release directory. The graph is what reading its file gives. -/
structure Bundle where
  manifest : PublishedStateManifest
  graph : Except String Image
  config : String
  lock : String

structure UpstreamMetadata where
  manifest : PublishedStateManifest
  transportRef : String
  requestedSourceRef : Option String
  requestedTransportRef : Option String
  memberDigests : UpstreamMember → Option String
  identityMapDigest : Option String

/-- The files that a pull rewrites, and the overlay config that it reads. -/
structure Files where
  releases : Dict String Bundle
  current : Option Bundle
  config : String
  overlayConfig : String

structure PullReceipt where
  manifest : PublishedStateManifest
  previousReleaseId : String
  transportRef : String
  applyDigest : String
  prePullSnapshotId : String
  memberDigests : UpstreamMember → Option String

/-- The tables of the database that a pull touches. -/
structure Tables where
  graph : StoredGraph
  identities : IdentityMap
  snapshots : List (String × StoredGraph)
  receipts : List PullReceipt

structure Instance where
  files : Files
  /-- `instance.json`, and the copy of it that the process works with. -/
  recorded : Option UpstreamMetadata
  upstream : Option UpstreamMetadata
  lock : String
  tables : Tables
  cache : Option EntityGraph

/-- What is computed elsewhere. -/
structure Runtime where
  memberDigest : UpstreamMember → Bundle → String
  bundleDigest : Bundle → String
  applyDigest : String → String → String → String → String
  compose : String → String → Except String String
  identityMapDigest : IdentityMap → String
  buildLock : String → Except String String
  /-- The operator entities that a config asks for and a graph does not have. -/
  operators : String → EntityGraph → Except String (List EntityInstance)
  mint : Nat → String

/-- Where the machine fails, and what a failed write leaves of its file. -/
structure Faults where
  snapshot : Option String := none
  copyRelease : Option (String × (Files → Files)) := none
  copyCurrent : Option (String × (Files → Files)) := none
  saveConfig : Option (String × (Files → Files)) := none
  transaction : Option String := none
  recordMetadata : Option (String × Option UpstreamMetadata) := none
  writeLock : Option (String × String) := none

/-- The arguments of the call, the fetched bundle and the id of the snapshot. -/
structure Call where
  fetched : Except String Bundle
  expectedApplyDigest : String
  forceRepair : Bool
  snapshotId : String

/-- How far the call has come. -/
inductive Stage where
  | preview | snapshot | immutability | materialization | merge | transaction | bookkeeping
  deriving DecidableEq

structure Raised where
  stage : Stage
  refusal : Refusal
  deriving DecidableEq

abbrev Pull := Attempt Instance Raised

def raisedAt (stage : Stage) (message : String) (errors : List String := []) : Raised where
  stage := stage
  refusal := { message := message, errors := errors }

/-- A pure step of a stage. -/
def attempt {α : Type} (stage : Stage) (x : Except String α) : Pull α :=
  lift (x.mapError (raisedAt stage))

def attemptMerge {α : Type} (x : Except Refusal α) : Pull α :=
  lift (x.mapError fun r => { stage := .merge, refusal := r })

/-- `load_graph`: the cached graph, else the stored one, which is cached. -/
def loadInstanceGraph (stage : Stage) : Pull EntityGraph := do
  let s ← get
  match s.cache with
  | some g => pure g
  | none =>
      let g ← attempt stage (loadGraph s.tables.graph)
      modify fun s => { s with cache := some g }
      pure g

/-- `verify_tracked_upstream`: a member whose digest was recorded still has it. The
texts end where the advice to the operator begins. -/
def memberError (rt : Runtime) (files : Files) (upstream : UpstreamMetadata)
    (m : UpstreamMember) : Option String :=
  match upstream.memberDigests m with
  | none => none
  | some expected =>
      match files.current with
      | none => some ("Tracked upstream release " ++ upstream.manifest.stateId ++ ":" ++
          upstream.manifest.releaseId ++ " is missing its materialized '" ++ m.fileName ++
          "', which upstream tracking pins at " ++ expected ++ ".")
      | some b =>
          if rt.memberDigest m b = expected then none
          else some ("Tracked upstream release " ++ upstream.manifest.stateId ++ ":" ++
            upstream.manifest.releaseId ++ " no longer matches its recorded '" ++ m.fileName ++
            "' digest: expected " ++ expected ++ ", found " ++ rt.memberDigest m b ++ ".")

/-- A repair does not verify what it is to repair. -/
def trackedUpstreamError (rt : Runtime) (files : Files) (upstream : UpstreamMetadata)
    (forceRepair : Bool) : Option String :=
  if forceRepair then none else allUpstreamMembers.findSome? (memberError rt files upstream)

/-- `_verify_release_immutability`. -/
def immutabilityError (rt : Runtime) (files : Files) (pulled : Bundle) : Option String :=
  match files.releases.get? pulled.manifest.releaseId with
  | none => none
  | some already =>
      if rt.bundleDigest already = rt.bundleDigest pulled then none
      else some ("Release '" ++ pulled.manifest.releaseId ++ "' was already materialized at " ++
        ".cruxible/upstream/releases/" ++ pulled.manifest.releaseId ++ " with content digest " ++
        rt.bundleDigest already ++ ", but the transport now resolves that same release_id to " ++
        rt.bundleDigest pulled ++ ". Published releases are immutable, so the rewritten bundle " ++
        "is refused rather than applied. Publish the changed state upstream under a NEW " ++
        "release_id and pull that; if the local copy is what drifted, delete the materialized " ++
        "release directory and pull again.")

def check (stage : Stage) (error : Option String) : Pull Unit :=
  match error with
  | none => pure ()
  | some m => raise (raisedAt stage m)

/-- A damaged upstream graph blocks the preview, but not that of a repair. -/
def currentUpstreamReadable (forceRepair : Bool) (files : Files) : Option String :=
  if forceRepair then none
  else
    match files.current with
    | none => some "No such file or directory: 'graph.json'"
    | some b =>
        match b.graph.bind fromDict with
        | .ok _ => none
        | .error m => some m

def previewConflicts (rt : Runtime) (files : Files) (pulled : Bundle) (dangling : List String) :
    List String :=
  (if pulled.manifest.compatibility = .breaking then
    ["Target release is marked breaking and cannot be pulled in v1"] else []) ++
  (match rt.compose pulled.config files.overlayConfig with
    | .ok _ => []
    | .error m => ["Overlay config does not compose cleanly with target release: " ++ m]) ++
  dangling

structure Preview where
  applyDigest : String
  conflicts : List String

/-- `_build_state_pull_preview`. -/
def buildStatePullPreview (rt : Runtime) (upstream : UpstreamMetadata) (pulled : Bundle)
    (forceRepair : Bool) : Pull Preview := do
  let s ← get
  check .preview (trackedUpstreamError rt s.files upstream forceRepair)
  check .preview (immutabilityError rt s.files pulled)
  check .preview (currentUpstreamReadable forceRepair s.files)
  let next ← attempt .preview (pulled.graph.bind fromDict)
  let current ← loadInstanceGraph .preview
  let localGraph ← attempt .preview (extractLocalOverlayGraph current pulled.manifest)
  let dangling ← attempt .preview
    (findDanglingReferenceConflicts localGraph next pulled.manifest)
  pure
    { applyDigest := rt.applyDigest upstream.manifest.releaseId pulled.manifest.releaseId
        ((upstream.memberDigests .graph).getD "") (rt.memberDigest .graph pulled)
      conflicts := previewConflicts rt s.files pulled dangling }

/-- `service_create_snapshot`: its own transaction, which drops the cache and loads
the graph again. -/
def createSnapshot (faults : Faults) (id : String) : Pull Unit := do
  modify fun s => { s with cache := none }
  check .snapshot faults.snapshot
  let _ ← loadInstanceGraph .snapshot
  modify fun s => { s with
    tables := { s.tables with snapshots := s.tables.snapshots ++ [(id, s.tables.graph)] } }

/-- A file write of a stage. -/
def writeFiles (stage : Stage) (fault : Option (String × (Files → Files))) (f : Files → Files) :
    Pull Unit :=
  write (fault.map fun x => (raisedAt stage x.1, fun s => { s with files := x.2 s.files }))
    fun s => { s with files := f s.files }

/-- `_materialize_upstream_bundle`: the copy of the release, and the copy of that. -/
def materializeUpstreamBundle (rt : Runtime) (faults : Faults) (pulled : Bundle) : Pull Unit := do
  let s ← get
  check .immutability (immutabilityError rt s.files pulled)
  writeFiles .materialization faults.copyRelease fun files =>
    { files with releases := files.releases.set pulled.manifest.releaseId pulled }
  writeFiles .materialization none fun files => { files with current := none }
  writeFiles .materialization faults.copyCurrent fun files => { files with current := some pulled }

/-- `write_runtime_composed_config`. -/
def writeRuntimeComposedConfig (rt : Runtime) (faults : Faults) (pulled : Bundle) :
    Pull Unit := do
  let s ← get
  let composed ← attempt .materialization (rt.compose pulled.config s.files.overlayConfig)
  writeFiles .materialization faults.saveConfig fun files => { files with config := composed }

/-- The body of the transaction: graph, identity map, operator entities, receipt. -/
def commitBody (rt : Runtime) (faults : Faults) (merged : EntityGraph) (identities : IdentityMap)
    (receipt : PullReceipt) : Pull Unit := do
  let s ← get
  let operators ← attempt .transaction (rt.operators s.files.config merged)
  let stored ← attempt .transaction (commitGraph merged operators)
  check .transaction faults.transaction
  modify fun s => { s with
    tables := { s.tables with
      graph := stored
      identities := identities
      receipts := s.tables.receipts ++ [receipt] }
    cache := some merged }

/-- A failed transaction leaves the tables as they were, and no cached graph. -/
def rollback (before after : Instance) : Instance :=
  { after with tables := before.tables, cache := none }

/-- `set_upstream_metadata`: the process's copy changes before the file does. -/
def setUpstreamMetadata (faults : Faults) (updated : UpstreamMetadata) : Pull Unit := do
  modify fun s => { s with upstream := some updated }
  write (faults.recordMetadata.map fun x =>
      (raisedAt .bookkeeping x.1, fun s => { s with recorded := x.2 }))
    fun s => { s with recorded := some updated }

/-- `service_lock`. -/
def serviceLock (rt : Runtime) (faults : Faults) : Pull Unit := do
  let s ← get
  let lock ← attempt .bookkeeping (rt.buildLock s.files.config)
  write (faults.writeLock.map fun x =>
      (raisedAt .bookkeeping x.1, fun s => { s with lock := x.2 }))
    fun s => { s with lock := lock }

structure PullApplyResult where
  releaseId : String
  applyDigest : String
  prePullSnapshotId : String
  deriving DecidableEq

def updatedMetadata (rt : Runtime) (upstream : UpstreamMetadata) (pulled : Bundle)
    (identities : IdentityMap) : UpstreamMetadata where
  manifest := pulled.manifest
  transportRef := upstream.transportRef
  requestedSourceRef := upstream.requestedSourceRef
  requestedTransportRef := upstream.requestedTransportRef
  memberDigests := fun m => some (rt.memberDigest m pulled)
  identityMapDigest := some (rt.identityMapDigest identities)

/-- The call up to the snapshot: what it tracks, what it has fetched, the preview. -/
def checkPull (rt : Runtime) (call : Call) : Pull (UpstreamMetadata × Bundle × Preview) := do
  let s ← get
  match s.upstream with
  | none => raise (raisedAt .preview "Instance is not tracking an upstream state release")
  | some upstream =>
      let pulled ← attempt .preview call.fetched
      let preview ← buildStatePullPreview rt upstream pulled call.forceRepair
      if preview.applyDigest ≠ call.expectedApplyDigest then
        raise (raisedAt .preview
          "State pull apply digest mismatch; rerun pull preview before apply")
      else if preview.conflicts ≠ [] then
        raise (raisedAt .preview "State pull preview has blocking conflicts" preview.conflicts)
      else if pulled.manifest.releaseId = upstream.manifest.releaseId ∧ call.forceRepair = false then
        raise (raisedAt .preview ("Instance already tracks release '" ++
          upstream.manifest.releaseId ++ "'; re-applying the same release is a no-op and is " ++
          "refused. To REPAIR a damaged materialized upstream, re-run with repair enabled " ++
          "(`cruxible state pull-apply --repair`); claim ids are preserved."))
      else pure (upstream, pulled, preview)

/-- From the materialized bundle to the graph that is saved and its identity map. -/
def mergeMaterialized (rt : Runtime) (pulled : Bundle) : Pull (EntityGraph × IdentityMap) := do
  let current ← loadInstanceGraph .merge
  let image ← attempt .merge pulled.graph
  let s ← get
  attemptMerge (mergePulled pulled.manifest image current s.tables.identities rt.mint)

/-- `service_pull_state_apply`. -/
def servicePullStateApply (rt : Runtime) (faults : Faults) (call : Call) :
    Pull PullApplyResult := do
  let (upstream, pulled, preview) ← checkPull rt call
  createSnapshot faults call.snapshotId
  materializeUpstreamBundle rt faults pulled
  writeRuntimeComposedConfig rt faults pulled
  let (merged, identities) ← mergeMaterialized rt pulled
  let updated := updatedMetadata rt upstream pulled identities
  modify fun s => { s with cache := none }
  transaction rollback (commitBody rt faults merged identities
    { manifest := updated.manifest, previousReleaseId := upstream.manifest.releaseId,
      transportRef := updated.transportRef, applyDigest := preview.applyDigest,
      prePullSnapshotId := call.snapshotId, memberDigests := updated.memberDigests })
  setUpstreamMetadata faults updated
  serviceLock rt faults
  pure { releaseId := updated.manifest.releaseId, applyDigest := preview.applyDigest,
         prePullSnapshotId := call.snapshotId }

section Failures
variable {rt : Runtime} {faults : Faults} {call : Call} {start : Instance}

/-- The snapshot is all that the tables have gained. -/
def snapshotted (call : Call) (start : Instance) : Tables :=
  { start.tables with
    snapshots := start.tables.snapshots ++ [(call.snapshotId, start.tables.graph)] }

/-- What the process and the files next to the database record is as before. -/
structure SameRecords (start t : Instance) : Prop where
  recorded : t.recorded = start.recorded
  upstream : t.upstream = start.upstream
  lock : t.lock = start.lock

/-- The merge of the stored graph and its receipt are in the tables. -/
def Applied (rt : Runtime) (call : Call) (start t : Instance) : Prop :=
  ∃ pulled image current merged identities operators stored receipt,
    call.fetched = .ok pulled ∧ pulled.graph = .ok image ∧
    loadGraph start.tables.graph = .ok current ∧
    mergePulled pulled.manifest image current start.tables.identities rt.mint =
      .ok (merged, identities) ∧
    commitGraph merged operators = .ok stored ∧
    receipt.manifest = pulled.manifest ∧ receipt.prePullSnapshotId = call.snapshotId ∧
    t.tables = { snapshotted call start with
      graph := stored
      identities := identities
      receipts := start.tables.receipts ++ [receipt] }

/-- What is left when the call raises at a stage. -/
def LeftAt (rt : Runtime) (call : Call) (start : Instance) (stage : Stage) (t : Instance) : Prop :=
  match stage with
  | .preview | .snapshot => SameRecords start t ∧ t.files = start.files ∧ t.tables = start.tables
  | .immutability =>
      SameRecords start t ∧ t.files = start.files ∧ t.tables = snapshotted call start
  | .materialization | .merge | .transaction =>
      SameRecords start t ∧ t.tables = snapshotted call start
  | .bookkeeping => Applied rt call start t

/-- The error postcondition of every step. -/
def Left (rt : Runtime) (call : Call) (start : Instance) (e : Raised) (t : Instance) : Prop :=
  LeftAt rt call start e.stage t

variable {P : Instance → Prop} {stage : Stage} {E : Raised → Instance → Prop}
  {identities : IdentityMap}

theorem triple_check_raises (error : Option String) (h : ∀ m t, P t → E (raisedAt stage m) t) :
    Triple P (check stage error) (fun _ t => P t) E := by
  cases error with
  | none => exact triple_ret () fun t ht => ht
  | some m => exact triple_raise _ (h m)

theorem triple_attempt_raises {α : Type} (x : Except String α)
    (h : ∀ m t, P t → E (raisedAt stage m) t) :
    Triple P (attempt stage x) (fun a t => P t ∧ x = .ok a) E := by
  apply triple_lift
  · intro a t hx ht
    cases x with
    | ok b => exact ⟨ht, congrArg Except.ok (Except.ok.inj hx)⟩
    | error m => cases hx
  · intro e t hx ht
    cases x with
    | ok b => cases hx
    | error m =>
      have he : raisedAt stage m = e := Except.error.inj hx
      rw [← he]
      exact h m t ht

theorem triple_check (error : Option String) (h : ∀ t, P t → LeftAt rt call start stage t) :
    Triple P (check stage error) (fun _ t => P t) (Left rt call start) :=
  triple_check_raises error fun _ => h

theorem triple_attempt {α : Type} (x : Except String α)
    (h : ∀ t, P t → LeftAt rt call start stage t) :
    Triple P (attempt stage x) (fun a t => P t ∧ x = .ok a) (Left rt call start) :=
  triple_attempt_raises x fun _ => h

theorem triple_attempt_keeps {α : Type} (x : Except String α)
    (h : ∀ t, P t → LeftAt rt call start stage t) :
    Triple P (attempt stage x) (fun _ t => P t) (Left rt call start) :=
  (triple_attempt x h).consequence (fun _ ht => ht) (fun _ _ ht => ht.1) (fun _ _ ht => ht)

theorem triple_loadInstanceGraph (h : ∀ t, P t → LeftAt rt call start stage t)
    (hcache : ∀ t g, P t → P { t with cache := g }) :
    Triple P (loadInstanceGraph stage) (fun _ t => P t) (Left rt call start) := by
  apply triple_bind (triple_get fun t ht => ht)
  intro s
  cases s.cache with
  | some g => exact triple_ret g fun t ht => ht
  | none =>
    apply triple_bind (triple_attempt (loadGraph s.tables.graph) h)
    intro g
    refine triple_bind (Q := fun _ t => P t) ?_ ?_
    · exact triple_modify fun t ht => hcache t (some g) ht.1
    · intro _
      exact triple_ret g fun t ht => ht

/-- Nothing has happened but reads. -/
def Untouched (start t : Instance) : Prop :=
  SameRecords start t ∧ t.files = start.files ∧ t.tables = start.tables

theorem untouched_cache (t : Instance) (g : Option EntityGraph) (h : Untouched start t) :
    Untouched start { t with cache := g } :=
  ⟨⟨h.1.recorded, h.1.upstream, h.1.lock⟩, h.2.1, h.2.2⟩

theorem triple_buildStatePullPreview (upstream : UpstreamMetadata) (pulled : Bundle)
    (forceRepair : Bool) :
    Triple (Untouched start) (buildStatePullPreview rt upstream pulled forceRepair)
      (fun _ t => Untouched start t) (Left rt call start) := by
  have hleft : ∀ t, Untouched start t → LeftAt rt call start .preview t := fun _ ht => ht
  unfold buildStatePullPreview
  apply triple_bind (triple_get fun t ht => ht)
  intro s
  apply triple_bind (triple_check _ hleft)
  intro _
  apply triple_bind (triple_check _ hleft)
  intro _
  apply triple_bind (triple_check _ hleft)
  intro _
  apply triple_bind (triple_attempt_keeps _ hleft)
  intro next
  apply triple_bind (triple_loadInstanceGraph hleft untouched_cache)
  intro current
  apply triple_bind (triple_attempt_keeps _ hleft)
  intro localGraph
  apply triple_bind (triple_attempt_keeps _ hleft)
  intro dangling
  exact triple_ret _ fun t ht => ht

theorem triple_checkPull :
    Triple (Untouched start) (checkPull rt call)
      (fun a t => Untouched start t ∧ call.fetched = .ok a.2.1) (Left rt call start) := by
  have hleft : ∀ t, Untouched start t → LeftAt rt call start .preview t := fun _ ht => ht
  unfold checkPull
  apply triple_bind (triple_get fun t ht => ht)
  intro s
  cases s.upstream with
  | none => exact triple_raise _ hleft
  | some upstream =>
    apply triple_bind (triple_attempt call.fetched hleft)
    intro pulled
    apply triple_bind ((triple_buildStatePullPreview upstream pulled call.forceRepair).frame
      (call.fetched = .ok pulled))
    intro preview
    split_ifs
    · exact triple_raise _ fun t ht => ht.1
    · exact triple_raise _ fun t ht => ht.1
    · exact triple_raise _ fun t ht => ht.1
    · exact triple_ret _ fun t ht => ht

/-- After the snapshot: its row is stored, and the stored graph is cached. -/
structure Snapshotted (call : Call) (start t : Instance) : Prop where
  records : SameRecords start t
  tables : t.tables = snapshotted call start
  cached : ∃ g, t.cache = some g ∧ loadGraph start.tables.graph = .ok g

theorem triple_createSnapshot :
    Triple (Untouched start) (createSnapshot faults call.snapshotId)
      (fun _ t => Snapshotted call start t ∧ t.files = start.files) (Left rt call start) := by
  have hleft : ∀ t, Untouched start t ∧ t.cache = none → LeftAt rt call start .snapshot t :=
    fun _ ht => ht.1
  unfold createSnapshot
  refine triple_bind (Q := fun _ t => Untouched start t ∧ t.cache = none) ?_ ?_
  · exact triple_modify fun t ht => ⟨untouched_cache t none ht, rfl⟩
  · intro _
    apply triple_bind (triple_check _ hleft)
    intro _
    refine triple_bind (Q := fun g t => Untouched start t ∧ t.cache = some g ∧
      loadGraph start.tables.graph = .ok g) ?_ ?_
    · refine triple_bind (Q := fun s t => (Untouched start t ∧ t.cache = none) ∧ s = t) ?_ ?_
      · exact triple_get fun t ht => ⟨ht, rfl⟩
      · intro s t ht
        have hs : s = t := ht.2
        have hnone : s.cache = none := hs ▸ ht.1.2
        have htables : s.tables = start.tables := hs ▸ ht.1.1.2.2
        rw [hnone, htables]
        refine (triple_bind (triple_attempt (loadGraph start.tables.graph) hleft) ?_) t ht.1
        intro g
        refine triple_bind (Q := fun _ t => Untouched start t ∧ t.cache = some g ∧
          loadGraph start.tables.graph = .ok g) ?_ ?_
        · exact triple_modify fun u hu => ⟨untouched_cache u (some g) hu.1.1, rfl, hu.2⟩
        · intro _
          exact triple_ret g fun u hu => hu
    · intro g
      refine triple_modify fun t ht => ⟨⟨?_, ?_, ⟨g, ht.2.1, ht.2.2⟩⟩, ht.1.2.1⟩
      · exact ⟨ht.1.1.recorded, ht.1.1.upstream, ht.1.1.lock⟩
      · simp only [snapshotted, ht.1.2.2]

variable {t : Instance} {merged : EntityGraph} {receipt : PullReceipt}

theorem Snapshotted.left (h : Snapshotted call start t) :
    LeftAt rt call start .materialization t := ⟨h.records, h.tables⟩

theorem Snapshotted.withFiles (h : Snapshotted call start t) (files : Files) :
    Snapshotted call start { t with files := files } :=
  ⟨⟨h.records.recorded, h.records.upstream, h.records.lock⟩, h.tables, h.cached⟩

theorem triple_writeFiles (fault : Option (String × (Files → Files))) (f : Files → Files) :
    Triple (Snapshotted call start) (writeFiles .materialization fault f)
      (fun _ t => Snapshotted call start t) (Left rt call start) := by
  unfold writeFiles
  apply triple_write
  · exact fun t ht => ht.withFiles (f t.files)
  · intro e left hfault t ht
    have ⟨x, _, hx⟩ := Option.map_eq_some_iff.mp hfault
    rw [Prod.mk.injEq] at hx
    rw [← hx.1, ← hx.2]
    exact (ht.withFiles (x.2 t.files)).left

theorem triple_materialize (pulled : Bundle) :
    Triple (fun t => Snapshotted call start t ∧ t.files = start.files)
      (materializeUpstreamBundle rt faults pulled) (fun _ t => Snapshotted call start t)
      (Left rt call start) := by
  unfold materializeUpstreamBundle
  apply triple_bind (triple_get fun t ht => ht)
  intro s
  refine triple_bind (Q := fun _ t => Snapshotted call start t) ?_ ?_
  · refine (triple_check _ ?_).consequence (fun _ ht => ht) (fun _ _ ht => ht.1) fun _ _ ht => ht
    exact fun t ht => ⟨ht.1.records, ht.2, ht.1.tables⟩
  · intro _
    apply triple_bind (triple_writeFiles _ _)
    intro _
    apply triple_bind (triple_writeFiles _ _)
    intro _
    exact triple_writeFiles _ _

theorem triple_writeConfig (pulled : Bundle) :
    Triple (Snapshotted call start) (writeRuntimeComposedConfig rt faults pulled)
      (fun _ t => Snapshotted call start t) (Left rt call start) := by
  unfold writeRuntimeComposedConfig
  apply triple_bind (triple_get fun t ht => ht)
  intro s
  apply triple_bind (triple_attempt_keeps _ fun t ht => ht.left)
  intro composed
  exact triple_writeFiles _ _

/-- The merge is that of the graph and the map that were stored at the start. -/
def MergedFrom (rt : Runtime) (start : Instance) (pulled : Bundle)
    (a : EntityGraph × IdentityMap) : Prop :=
  ∃ image current, pulled.graph = .ok image ∧ loadGraph start.tables.graph = .ok current ∧
    mergePulled pulled.manifest image current start.tables.identities rt.mint = .ok a

theorem triple_mergeMaterialized (pulled : Bundle) :
    Triple (Snapshotted call start) (mergeMaterialized rt pulled)
      (fun a t => Snapshotted call start t ∧ MergedFrom rt start pulled a)
      (Left rt call start) := by
  have hleft : ∀ t, Snapshotted call start t → LeftAt rt call start .merge t :=
    fun _ ht => ⟨ht.records, ht.tables⟩
  unfold mergeMaterialized
  refine triple_bind (Q := fun g t => Snapshotted call start t ∧
    loadGraph start.tables.graph = .ok g) ?_ ?_
  · intro t ht
    have ⟨g, hcache, hload⟩ := ht.cached
    have hrun : loadInstanceGraph .merge t = (.ok g, t) := by
      unfold loadInstanceGraph
      change andThen get _ t = _
      simp only [andThen, Attempt.get, hcache]
      rfl
    rw [hrun]
    constructor
    · intro a u hu
      rw [Prod.mk.injEq, Except.ok.injEq] at hu
      exact hu.1 ▸ hu.2 ▸ ⟨ht, hload⟩
    · intro e u hu
      cases hu
  · intro current
    apply triple_bind (triple_attempt pulled.graph fun t ht => hleft t ht.1)
    intro image
    refine triple_bind (Q := fun s t => ((Snapshotted call start t ∧
      loadGraph start.tables.graph = .ok current) ∧ pulled.graph = .ok image) ∧
      s.tables.identities = start.tables.identities) ?_ ?_
    · apply triple_get
      intro t ht
      refine ⟨ht, ?_⟩
      rw [ht.1.1.tables]
      rfl
    · intro s
      unfold attemptMerge
      apply triple_lift
      · intro a t hx ht
        refine ⟨ht.1.1.1, image, current, ht.1.2, ht.1.1.2, ?_⟩
        rw [← ht.2]
        cases hmerge : mergePulled pulled.manifest image current s.tables.identities rt.mint with
        | ok b =>
          rw [hmerge] at hx
          exact congrArg Except.ok (Except.ok.inj hx)
        | error r =>
          rw [hmerge] at hx
          cases hx
      · intro e t hx ht
        cases hmerge : mergePulled pulled.manifest image current s.tables.identities rt.mint with
        | ok b =>
          rw [hmerge] at hx
          cases hx
        | error r =>
          rw [hmerge] at hx
          have he : ({ stage := .merge, refusal := r } : Raised) = e := Except.error.inj hx
          rw [← he]
          exact hleft t ht.1.1.1

/-- Before the commit, once the cache is dropped. -/
def Ready (call : Call) (start t : Instance) : Prop :=
  SameRecords start t ∧ t.tables = snapshotted call start

theorem triple_commitBody {s : Instance} :
    Triple (fun t => t = s) (commitBody rt faults merged identities receipt)
      (fun _ t => ∃ operators stored, commitGraph merged operators = .ok stored ∧
        t.tables = { s.tables with
          graph := stored
          identities := identities
          receipts := s.tables.receipts ++ [receipt] })
      (fun e t => e.stage = .transaction ∧ t = s) := by
  unfold commitBody
  apply triple_bind (triple_get (Q := fun _ t => t = s) fun t ht => ht)
  intro a
  apply triple_bind (triple_attempt_raises _ fun _ t ht => ⟨rfl, ht⟩)
  intro operators
  apply triple_bind (triple_attempt_raises _ fun _ t ht => ⟨rfl, ht.1⟩)
  intro stored
  apply triple_bind (triple_check_raises _ fun _ t ht => ⟨rfl, ht.1.1⟩)
  intro _
  apply triple_modify
  rintro t ⟨⟨ht, _⟩, hstored⟩
  refine ⟨operators, stored, hstored, ?_⟩
  simp only [ht]

theorem triple_commit {pulled : Bundle} (hfetched : call.fetched = .ok pulled)
    (hmerged : MergedFrom rt start pulled (merged, identities))
    (hmanifest : receipt.manifest = pulled.manifest)
    (hsnapshot : receipt.prePullSnapshotId = call.snapshotId) :
    Triple (Ready call start)
      (transaction rollback (commitBody rt faults merged identities receipt))
      (fun _ t => Applied rt call start t) (Left rt call start) := by
  refine triple_transaction ?_ ?_ (G := fun s e t => e.stage = .transaction ∧ t = s)
  · intro s hs
    refine triple_commitBody.consequence (fun _ ht => ht) ?_ fun _ _ he => he
    rintro _ t ⟨operators, stored, hstored, htables⟩
    have ⟨image, current, himage, hcurrent, hmerge⟩ := hmerged
    refine ⟨pulled, image, current, merged, identities, operators, stored, receipt, hfetched,
      himage, hcurrent, hmerge, hstored, hmanifest, hsnapshot, ?_⟩
    rw [htables, hs.2]
    rfl
  · rintro s e t hs ⟨he, ht⟩
    unfold Left
    rw [he, ht]
    exact ⟨⟨hs.1.recorded, hs.1.upstream, hs.1.lock⟩, hs.2⟩

/-- What follows the commit does not touch the tables. -/
theorem triple_setMetadata (updated : UpstreamMetadata) :
    Triple (Applied rt call start) (setUpstreamMetadata faults updated)
      (fun _ t => Applied rt call start t) (Left rt call start) := by
  unfold setUpstreamMetadata
  refine triple_bind (Q := fun _ t => Applied rt call start t) ?_ ?_
  · exact triple_modify fun t ht => ht
  · intro _
    apply triple_write
    · exact fun t ht => ht
    · intro e left hfault t ht
      have ⟨x, _, hx⟩ := Option.map_eq_some_iff.mp hfault
      rw [Prod.mk.injEq] at hx
      rw [← hx.1, ← hx.2]
      exact ht

theorem triple_serviceLock :
    Triple (Applied rt call start) (serviceLock rt faults)
      (fun _ t => Applied rt call start t) (Left rt call start) := by
  have hleft : ∀ t, Applied rt call start t → LeftAt rt call start .bookkeeping t :=
    fun _ ht => ht
  unfold serviceLock
  apply triple_bind (triple_get fun t ht => ht)
  intro s
  apply triple_bind (triple_attempt_keeps _ hleft)
  intro lock
  apply triple_write
  · exact fun t ht => ht
  · intro e left hfault t ht
    have ⟨x, _, hx⟩ := Option.map_eq_some_iff.mp hfault
    rw [Prod.mk.injEq] at hx
    rw [← hx.1, ← hx.2]
    exact ht

theorem triple_servicePullStateApply :
    Triple (Untouched start) (servicePullStateApply rt faults call)
      (fun _ t => Applied rt call start t) (Left rt call start) := by
  unfold servicePullStateApply
  apply triple_bind triple_checkPull
  rintro ⟨upstream, pulled, preview⟩
  apply triple_bind (triple_createSnapshot.frame (call.fetched = .ok pulled))
  intro _
  refine triple_bind (Q := fun _ t => Snapshotted call start t ∧ call.fetched = .ok pulled) ?_ ?_
  · exact (triple_materialize pulled).frame (call.fetched = .ok pulled)
  · intro _
    apply triple_bind ((triple_writeConfig pulled).frame (call.fetched = .ok pulled))
    intro _
    apply triple_bind ((triple_mergeMaterialized pulled).frame (call.fetched = .ok pulled))
    rintro ⟨merged, identities⟩
    refine triple_bind (Q := fun _ t => (Ready call start t ∧
      MergedFrom rt start pulled (merged, identities)) ∧ call.fetched = .ok pulled) ?_ ?_
    · apply triple_modify
      rintro t ⟨⟨ht, hmerged⟩, hfetched⟩
      have hrecords := ht.records
      exact ⟨⟨⟨⟨hrecords.recorded, hrecords.upstream, hrecords.lock⟩, ht.tables⟩, hmerged⟩,
        hfetched⟩
    · intro _
      refine triple_bind (Q := fun _ t => Applied rt call start t) ?_ ?_
      · intro t ht
        exact triple_commit ht.2 ht.1.2 rfl rfl t ht.1.1
      · intro _
        apply triple_bind (triple_setMetadata _)
        intro _
        apply triple_bind triple_serviceLock
        intro _
        exact triple_ret _ fun t ht => ht

/-- A pull that raises leaves what its stage says. -/
theorem failed_pull_leaves {t : Instance} {e : Raised}
    (h : servicePullStateApply rt faults call start = (.error e, t)) :
    LeftAt rt call start e.stage t :=
  (triple_servicePullStateApply start ⟨⟨rfl, rfl, rfl⟩, rfl, rfl⟩).2 e t h

end Failures

/-- A machine whose composer puts one config after the other. -/
def plainRuntime : Runtime where
  memberDigest := fun m b => m.fileName ++ "/" ++ b.manifest.releaseId
  bundleDigest := fun b => b.manifest.releaseId ++ b.config ++ b.lock
  applyDigest := fun before after _ _ => before ++ ">" ++ after
  compose := fun base overlay => .ok (base ++ overlay)
  identityMapDigest := fun _ => "identities"
  buildLock := fun config => .ok ("lock of " ++ config)
  operators := fun _ _ => .ok []
  mint := countedId

def firstRelease : Bundle where
  manifest := { serviceRelease.manifest with releaseId := "r1" }
  graph := .ok { serviceRelease.image with nodes := ∅, closed := by simp [serviceRelease] }
  config := "v1 "
  lock := ""

def secondRelease : Bundle where
  manifest := { serviceRelease.manifest with releaseId := "r2" }
  graph := .ok serviceRelease.image
  config := "v2 "
  lock := ""

def firstMetadata : UpstreamMetadata where
  manifest := firstRelease.manifest
  transportRef := "transport"
  requestedSourceRef := none
  requestedTransportRef := none
  memberDigests := fun _ => none
  identityMapDigest := none

/-- An overlay that tracks its first release. -/
def overlayInstance : Instance where
  files := { releases := (∅ : Dict String Bundle).set "r1" firstRelease, current := some firstRelease,
             config := "v1 overlay", overlayConfig := "overlay" }
  recorded := some firstMetadata
  upstream := some firstMetadata
  lock := ""
  tables := { graph := StoredGraph.empty, identities := ∅, snapshots := [], receipts := [] }
  cache := none

def secondCall : Call where
  fetched := .ok secondRelease
  expectedApplyDigest := "r1>r2"
  forceRepair := false
  snapshotId := "s1"

/-- The transaction fails. -/
def fullDisk : Faults where
  transaction := some "database or disk is full"

/-- The transaction commits, and the lock cannot be written. -/
def lockedDirectory : Faults where
  writeLock := some ("Permission denied: 'cruxible.lock.yaml'", "")

/-- The machine that fails runs the second pull on the overlay. -/
def failedPull (faults : Faults) : Except Raised PullApplyResult × Instance :=
  servicePullStateApply plainRuntime faults secondCall overlayInstance

theorem full_disk_leaves :
    LeftAt plainRuntime secondCall overlayInstance .transaction (failedPull fullDisk).2 := by
  have hraised : (failedPull fullDisk).1 =
      .error (raisedAt .transaction "database or disk is full") := by decide +kernel
  have hrun : servicePullStateApply plainRuntime fullDisk secondCall overlayInstance =
      (.error (raisedAt .transaction "database or disk is full"), (failedPull fullDisk).2) :=
    Prod.ext hraised rfl
  exact failed_pull_leaves hrun

/-- What a call that is all or nothing would leave of the files, the recorded
metadata and the stored graph. -/
def NothingDone (start t : Instance) : Prop :=
  t.files = start.files ∧ t.recorded = start.recorded ∧
    t.tables.graph.nodes = start.tables.graph.nodes ∧
    t.tables.graph.edges = start.tables.graph.edges

/-- A pull that raises after its snapshot is not all or nothing: a failed transaction
leaves the new config, and what fails after the commit leaves the new graph. -/
theorem failed_pull_is_not_undone :
    ¬ (∀ (rt : Runtime) (faults : Faults) (call : Call) (start t : Instance) (e : Raised),
      servicePullStateApply rt faults call start = (.error e, t) →
      e.stage ≠ .preview → e.stage ≠ .snapshot → NothingDone start t) ∧
    (failedPull fullDisk).2.files.config = "v2 overlay" ∧
    (failedPull lockedDirectory).2.tables.graph.nodes.keys = ["Service:a"] := by
  have hconfig : (failedPull fullDisk).2.files.config = "v2 overlay" := by decide +kernel
  have hgraph : (failedPull lockedDirectory).2.tables.graph.nodes.keys = ["Service:a"] := by
    decide +kernel
  refine ⟨?_, hconfig, hgraph⟩
  intro hall
  have hraised : (failedPull lockedDirectory).1 =
      .error (raisedAt .bookkeeping "Permission denied: 'cruxible.lock.yaml'") := by
    decide +kernel
  have hrun : servicePullStateApply plainRuntime lockedDirectory secondCall overlayInstance =
      (.error (raisedAt .bookkeeping "Permission denied: 'cruxible.lock.yaml'"),
        (failedPull lockedDirectory).2) := Prod.ext hraised rfl
  have ⟨_, _, hnodes, _⟩ := hall _ _ _ _ _ _ hrun (by decide) (by decide)
  rw [hnodes] at hgraph
  have hempty : overlayInstance.tables.graph.nodes.keys = [] := rfl
  rw [hempty] at hgraph
  cases hgraph

end Cruxible.PullFailures
