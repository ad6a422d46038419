import Cruxible.CanonicalJson
import Cruxible.PropertyValidation
import Cruxible.PythonEquality

/-!
# Release bundles

A published release is a directory of snapshot artifacts with a manifest and a
sidecar. The sidecar pins every member by the digest of its bytes, the manifest
among them; the manifest pins the body of the sidecar that leaves the manifest
out. So neither file pins itself, and once either of the two is trusted, no
member can change unnoticed.
-/
namespace Cruxible.ReleaseBundles
open JsonValue PythonDict Fallible PropertyValidation

variable {β ρ : Type}

/-- What a path leads to. -/
inductive Entry (β : Type) where
  | file (content : β)
  | directory
  deriving DecidableEq

/-- A directory: its own entries by name, and what every other path that is
joined to it leads to. -/
structure Directory (β : Type) where
  path : String := ""
  top : Dict String (Entry β) := ∅
  beyond : String → Option (Entry β) := fun _ => none

/-- The text is a single component of a path. -/
def plainName (s : String) : Bool :=
  s ≠ "" && s ≠ "." && s ≠ ".." && '/' ∉ s.toList

inductive BundleError where
  | transport (message : String)
  | config (message : String)
  | validation (message : String)
  | os (message : String)
  deriving DecidableEq, Repr

namespace Directory

def entry (d : Directory β) (path : String) : Option (Entry β) :=
  if plainName path then d.top.get? path else d.beyond path

/-- The bytes of the file that a path leads to. -/
def content (d : Directory β) (path : String) : Option β :=
  match d.entry path with
  | some (.file c) => some c
  | _ => none

/-- `path.read_bytes()` -/
def readBytes (d : Directory β) (path : String) : Except BundleError β :=
  match d.entry path with
  | some (.file c) => .ok c
  | some .directory => .error (.os ("Is a directory: " ++ path))
  | none => .error (.os ("No such file or directory: " ++ path))

/-- `path.write_bytes(content)` -/
def writeBytes (d : Directory β) (name : String) (content : β) : Except BundleError (Directory β) :=
  match d.top.get? name with
  | some .directory => .error (.os ("Is a directory: " ++ name))
  | _ => .ok { d with top := d.top.set name (.file content) }

/-- The names of the files that stand in the directory itself. -/
def fileNames (d : Directory β) : List String :=
  (d.top.entries.filter fun e => match e.2 with
    | .file _ => true
    | .directory => false).map Prod.fst

end Directory

/-- The fields of a snapshot that the bundle code reads; the others are in `rest`. -/
structure StateSnapshot (ρ : Type) where
  snapshotId : String
  lockDigest : Option String := none
  graphDigest : String
  rest : ρ

inductive StateCompatibility where
  | dataOnly
  | additiveSchema
  | breaking
  deriving DecidableEq, Repr

def StateCompatibility.text : StateCompatibility → String
  | .dataOnly => "data_only"
  | .additiveSchema => "additive_schema"
  | .breaking => "breaking"

structure PublishedStateManifest where
  formatVersion : Int := 1
  stateId : String
  releaseId : String
  snapshotId : String
  compatibility : StateCompatibility
  ownedEntityTypes : List String := []
  ownedRelationshipTypes : List String := []
  parentReleaseId : Option String := none
  bundleFormatVersion : Option Int := none
  membersDigest : Option String := none
  deriving DecidableEq, Repr

def textOrNull (o : Option String) : Value := o.elim .null .str

def PublishedStateManifest.dumpEntries (m : PublishedStateManifest) : List (String × Value) :=
  [("format_version", .int m.formatVersion),
    ("state_id", .str m.stateId),
    ("release_id", .str m.releaseId),
    ("snapshot_id", .str m.snapshotId),
    ("compatibility", .str m.compatibility.text),
    ("owned_entity_types", .array (m.ownedEntityTypes.map .str)),
    ("owned_relationship_types", .array (m.ownedRelationshipTypes.map .str)),
    ("parent_release_id", textOrNull m.parentReleaseId),
    ("bundle_format_version", m.bundleFormatVersion.elim .null .int),
    ("members_digest", textOrNull m.membersDigest)]

/-- `manifest.model_dump(mode="json")` -/
def PublishedStateManifest.modelDump (m : PublishedStateManifest) : Value :=
  .object m.dumpEntries

/-- `_validate_path_safe_id` -/
def validatePathSafeId (value fieldName : String) : Except BundleError Unit :=
  let inPattern := fun c : Char => c.isAlphanum || c = '.' || c = '_' || c = '-'
  refuseIf (value.toList = [] ∨ value.toList.all inPattern = false ∨ value.toList.head? = some '.')
    (.validation (fieldName ++ " must match [a-zA-Z0-9._-]+ and cannot be dot-relative"))

/-- The field validators of the manifest. -/
def PublishedStateManifest.validate (m : PublishedStateManifest) :
    Except BundleError PublishedStateManifest := do
  validatePathSafeId m.stateId "state_id"
  validatePathSafeId m.releaseId "release_id"
  return m

/-- The hash, the JSON reader and writer, and the typed readers of the two models.
What the writers write is read back. -/
structure BundleRuntime (β ρ : Type) where
  sha256Bytes : β → String
  /-- `json.dumps(value, indent=2)`, with the keys in the order of the value. -/
  jsonText : Value → β
  /-- `json.loads(path.read_text())`, or the text of the `ValueError`. -/
  loads : β → Except String Value
  /-- `str(value)` of a parsed value that is not a string. -/
  str : Value → String
  snapshotJson : StateSnapshot ρ → β
  readSnapshot : β → Except String (StateSnapshot ρ)
  /-- The typed fields of a manifest, before their validators. -/
  readManifest : β → Except String PublishedStateManifest
  loads_jsonText : ∀ v, v.plain → loads (jsonText v) = .ok v
  readSnapshot_json : ∀ s, readSnapshot (snapshotJson s) = .ok s
  readManifest_json : ∀ m : PublishedStateManifest,
    readManifest (jsonText m.modelDump.canonical) = .ok m

/-- `json.dumps(value, indent=2, sort_keys=True)` -/
def BundleRuntime.dumps (rt : BundleRuntime β ρ) (v : Value) : β := rt.jsonText v.canonical

def BundleRuntime.pyStr (rt : BundleRuntime β ρ) : Value → String
  | .str s => s
  | v => rt.str v

/-- A stored snapshot with its artifacts, among them its own record, and the graph
and the lock under the digests that it records. -/
structure SnapshotRecord (rt : BundleRuntime β ρ) where
  snapshot : StateSnapshot ρ
  artifacts : Dict String β
  names : ∀ name ∈ artifacts.keys, plainName name
  recorded : artifacts.get? "snapshot.json" = some (rt.snapshotJson snapshot)
  graph : (artifacts.get? "graph.json").map rt.sha256Bytes = some snapshot.graphDigest
  lock : (artifacts.get? "cruxible.lock.yaml").map rt.sha256Bytes = snapshot.lockDigest

/-- The artifacts of `_write_snapshot`, in the order in which it adds them. -/
def snapshotArtifacts (rt : BundleRuntime β ρ) (snapshot : StateSnapshot ρ)
    (graphJson config upstream procedures : β) (lock : Option β) : List (String × β) :=
  [("graph.json", graphJson), ("config.yaml", config), ("upstream.json", upstream)] ++
    (lock.map fun bytes => ("cruxible.lock.yaml", bytes)).toList ++
    [("snapshot.json", rt.snapshotJson snapshot), ("procedures.json", procedures)]

/-- `_write_snapshot`, as far as it makes the record and its artifacts. -/
def writeSnapshot (rt : BundleRuntime β ρ) (snapshotId : String) (rest : ρ)
    (graphJson config upstream procedures : β) (lock : Option β) : SnapshotRecord rt :=
  let snapshot : StateSnapshot ρ :=
    { snapshotId := snapshotId, lockDigest := lock.map rt.sha256Bytes,
      graphDigest := rt.sha256Bytes graphJson, rest := rest }
  { snapshot := snapshot
    artifacts := .ofList (snapshotArtifacts rt snapshot graphJson config upstream procedures lock)
    names := by
      intro name hname
      have ⟨v, hv⟩ := Dict.mem_keys.mp hname
      have hmem := Dict.mem_of_get?_ofList hv
      cases lock with
      | none =>
          simp only [snapshotArtifacts, Option.map_none, Option.toList_none, List.append_nil,
            List.cons_append, List.nil_append, List.mem_cons, Prod.mk.injEq, List.not_mem_nil,
            or_false] at hmem
          rcases hmem with ⟨rfl, -⟩ | ⟨rfl, -⟩ | ⟨rfl, -⟩ | ⟨rfl, -⟩ | ⟨rfl, -⟩ <;> decide +kernel
      | some bytes =>
          simp only [snapshotArtifacts, Option.map_some, Option.toList_some, List.cons_append,
            List.nil_append, List.mem_cons, Prod.mk.injEq, List.not_mem_nil, or_false] at hmem
          rcases hmem with ⟨rfl, -⟩ | ⟨rfl, -⟩ | ⟨rfl, -⟩ | ⟨rfl, -⟩ | ⟨rfl, -⟩ | ⟨rfl, -⟩ <;>
            decide +kernel
    recorded := by
      cases lock with
      | none => rfl
      | some bytes => rfl
    graph := by
      cases lock with
      | none => rfl
      | some bytes => rfl
    lock := by
      cases lock with
      | none => rfl
      | some bytes => rfl }

def memberDigestsFormatVersion : Int := 1

def releaseMemberDigestsFile : String := "members.json"

def releaseBundleMembers : List String :=
  ["snapshot.json", "config.yaml", "graph.json", "cruxible.lock.yaml"]

/-- `_members_sidecar_payload`, before it is written. -/
def sidecarBody (digests : Dict String String) : Value :=
  .object [("format_version", .int memberDigestsFormatVersion),
    ("digests", .object (digests.entries.map fun d => (d.1, .str d.2)))]

def membersSidecarPayload (rt : BundleRuntime β ρ) (digests : Dict String String) : β :=
  rt.dumps (sidecarBody digests)

/-- The digests of every member other than the manifest. -/
def withoutManifest (digests : Dict String String) : Dict String String :=
  .ofList (digests.entries.filter fun d => d.1 ≠ "manifest.json")

def computeMembersDigest (rt : BundleRuntime β ρ) (digests : Dict String String) : String :=
  rt.sha256Bytes (membersSidecarPayload rt (withoutManifest digests))

/-- The snapshots of an instance and the directories that they are exported to. -/
structure SnapshotStore (rt : BundleRuntime β ρ) where
  snapshots : Dict String (SnapshotRecord rt)
  exported : String → Directory β

/-- `_export_snapshot_artifacts`: every artifact is written over what is there. -/
def exportSnapshotArtifacts {rt : BundleRuntime β ρ} (store : SnapshotStore rt)
    (snapshotId : String) : Except BundleError (Directory β) :=
  match store.snapshots.get? snapshotId with
  | none => .error (.config ("Snapshot '" ++ snapshotId ++ "' has no DB-backed artifacts"))
  | some record =>
      record.artifacts.entries.foldlM (fun dir a => dir.writeBytes a.1 a.2)
        (store.exported snapshotId)

/-- One turn of the loop that copies the snapshot artifacts. -/
def copyMember (source bundle : Directory β) (name : String) : Except BundleError (Directory β) :=
  match source.entry name with
  | none => .ok bundle
  | some _ => do bundle.writeBytes name (← source.readBytes name)

def memberDigests (rt : BundleRuntime β ρ) (bundle : Directory β) : Dict String String :=
  .ofList (releaseBundleMembers.filterMap fun name =>
    (bundle.content name).map fun bytes => (name, rt.sha256Bytes bytes))

def buildReleaseBundle (rt : BundleRuntime β ρ) (store : SnapshotStore rt) (config : CoreConfig)
    (snapshotId stateId releaseId : String) (compatibility : StateCompatibility)
    (parentReleaseId : Option String) : Except BundleError (Directory β) := do
  refuseIf (store.snapshots.get? snapshotId).isNone
    (.config ("Snapshot '" ++ snapshotId ++ "' not found"))
  let snapshotDir ← exportSnapshotArtifacts store snapshotId
  let copied ← releaseBundleMembers.foldlM (copyMember snapshotDir) {}
  let digests := memberDigests rt copied
  let manifest ← PublishedStateManifest.validate
    { stateId := stateId
      releaseId := releaseId
      snapshotId := snapshotId
      compatibility := compatibility
      ownedEntityTypes := config.entityTypes.keys.insertionSort (· ≤ ·)
      ownedRelationshipTypes := (config.relationships.map (·.name)).insertionSort (· ≤ ·)
      parentReleaseId := parentReleaseId
      bundleFormatVersion := some memberDigestsFormatVersion
      membersDigest := some (computeMembersDigest rt digests) }
  let bytes := rt.dumps manifest.modelDump
  let pinned ← copied.writeBytes "manifest.json" bytes
  pinned.writeBytes releaseMemberDigestsFile
    (membersSidecarPayload rt (digests.set "manifest.json" (rt.sha256Bytes bytes)))

structure PulledReleaseBundle (β ρ : Type) where
  rootDir : Directory β
  manifest : PublishedStateManifest
  snapshot : StateSnapshot ρ

/-- `PublishedStateManifest.model_validate_json` -/
def validateManifestJson (rt : BundleRuntime β ρ) (bytes : β) :
    Except BundleError PublishedStateManifest := do
  let m ← (rt.readManifest bytes).mapError .validation
  m.validate

/-- `_load_bundle` -/
def loadBundle (rt : BundleRuntime β ρ) (rootDir : Directory β) :
    Except BundleError (PulledReleaseBundle β ρ) := do
  refuseIf (rootDir.entry "manifest.json").isNone
    (.transport ("Bundle missing manifest.json at " ++ rootDir.path))
  refuseIf (rootDir.entry "snapshot.json").isNone
    (.transport ("Bundle missing snapshot.json at " ++ rootDir.path))
  let manifest ← validateManifestJson rt (← rootDir.readBytes "manifest.json")
  let snapshot ← (rt.readSnapshot (← rootDir.readBytes "snapshot.json")).mapError .validation
  return { rootDir := rootDir, manifest := manifest, snapshot := snapshot }

/-- How the messages name a bundle. -/
def bundleName (label ref : String) : String :=
  "Release bundle " ++ label ++ " pulled from " ++ ref

/-- The mapping under `digests` of a parsed sidecar. -/
def digestsField : Value → Option (Dict String Value)
  | .object entries =>
      match (Dict.ofList entries).get? "digests" with
      | some (.object digests) => some (.ofList digests)
      | _ => none
  | _ => none

/-- One turn of the loop over the pinned members. -/
def verifyPinnedMember (rt : BundleRuntime β ρ) (root : Directory β) (label ref : String)
    (digests : Dict String Value) (member : String) : Except BundleError Unit := do
  let expected := (digests.get? member).getD .null
  refuseIf (root.entry member).isNone
    (.config (bundleName label ref ++ " is missing member '" ++ member ++ "', which " ++
      releaseMemberDigestsFile ++ " pins at " ++ rt.pyStr expected ++ ". The bundle is incomplete " ++
      "or was altered in transit; re-publish the release upstream and pull again."))
  let actual := rt.sha256Bytes (← root.readBytes member)
  refuseIf (.str actual ≠ expected)
    (.config (bundleName label ref ++ " failed digest verification for member '" ++ member ++
      "': expected " ++ rt.pyStr expected ++ ", found " ++ actual ++ ". The published bundle was " ++
      "altered after it was published; nothing from it is applied. Re-publish the release " ++
      "upstream under a new release_id, then pull again -- never edit a pulled bundle in place."))

/-- The files beside the sidecar that no digest pins. -/
def unpinnedFiles (root : Directory β) (digests : Dict String Value) : List String :=
  (root.fileNames.filter fun name =>
    name ≠ releaseMemberDigestsFile && !digests.contains name).insertionSort (· ≤ ·)

def verifyReleaseMemberDigests (rt : BundleRuntime β ρ) (root : Directory β)
    (label ref : String) : Except BundleError (Dict String String) := do
  let content ← root.readBytes releaseMemberDigestsFile
  let raw ← (rt.loads content).mapError fun exc =>
    .config (bundleName label ref ++ " has an unreadable " ++ releaseMemberDigestsFile ++ ": " ++
      exc ++ ". The bundle is not usable as pulled; re-publish the release upstream and pull again.")
  let digests := (digestsField raw).getD ∅
  refuseIf (digests.entries = [])
    (.config (bundleName label ref ++ " has a malformed " ++ releaseMemberDigestsFile ++
      ": expected a non-empty 'digests' mapping. Re-publish the release upstream and pull again."))
  forM (digests.keys.insertionSort (· ≤ ·)) (verifyPinnedMember rt root label ref digests)
  let unpinned := unpinnedFiles root digests
  refuseIf (unpinned ≠ [])
    (.config (bundleName label ref ++ " carries members that " ++ releaseMemberDigestsFile ++
      " does not pin: " ++ String.intercalate ", " unpinned ++ ". Unpinned content is refused " ++
      "rather than trusted; re-publish the release upstream and pull again."))
  return .ofList (digests.entries.map fun d => (d.1, rt.pyStr d.2))

def verifyDeclaredMemberContract (rt : BundleRuntime β ρ) (root : Directory β)
    (declaredFormat : Int) (expectedMembersDigest : Option String) (label ref : String) :
    Except BundleError Unit := do
  refuseIf (declaredFormat > memberDigestsFormatVersion)
    (.config (bundleName label ref ++ " declares bundle_format_version " ++
      toString declaredFormat ++ ", but this Cruxible understands at most " ++
      toString memberDigestsFormatVersion ++ ". It was published by a newer Cruxible and cannot " ++
      "be verified here; upgrade Cruxible, then pull again."))
  refuseIf (root.entry releaseMemberDigestsFile).isNone
    (.config (bundleName label ref ++ " declares bundle_format_version " ++
      toString declaredFormat ++ " in its manifest, which means it was published with " ++
      releaseMemberDigestsFile ++ ", but that file is absent. The per-member digest sidecar was " ++
      "stripped after publication, so the bundle is refused rather than verified against the " ++
      "weaker pre-sidecar rules. Re-publish the release upstream and pull again."))
  let digests ← verifyReleaseMemberDigests rt root label ref
  let actual := computeMembersDigest rt digests
  refuseIf (∃ expected ∈ expectedMembersDigest, actual ≠ expected)
    (.config (bundleName label ref ++ " has a " ++ releaseMemberDigestsFile ++ " that its " ++
      "manifest does not vouch for: the manifest records members_digest=" ++
      expectedMembersDigest.getD "" ++ ", the sidecar body hashes to " ++ actual ++ ". The " ++
      "sidecar was replaced after publication, so the members it pins cannot be trusted. " ++
      "Re-publish the release upstream and pull again."))

def verifyRecordedMemberDigest (rt : BundleRuntime β ρ) (root : Directory β)
    (member : String) (expected : Option String) (source label ref : String) :
    Except BundleError Unit :=
  match expected with
  | none => .ok ()
  | some expected => do
      refuseIf (root.entry member).isNone
        (.config (bundleName label ref ++ " is missing member '" ++ member ++ "', which " ++
          source ++ " pins at " ++ expected ++ ". The bundle is incomplete; re-publish the " ++
          "release upstream and pull again."))
      let actual := rt.sha256Bytes (← root.readBytes member)
      refuseIf (actual ≠ expected)
        (.config (bundleName label ref ++ " failed digest verification for member '" ++ member ++
          "': " ++ source ++ " records " ++ expected ++ ", found " ++ actual ++ ". Nothing from " ++
          "the bundle is applied. Re-publish the release upstream under a new release_id, then " ++
          "pull again."))

def predatesWarning (label ref : String) : String :=
  bundleName label ref ++ " predates per-member digests (" ++ releaseMemberDigestsFile ++
    " is absent): graph.json and cruxible.lock.yaml were still verified against snapshot.json, " ++
    "but config.yaml could not be verified. Re-publish the release upstream with a current " ++
    "Cruxible to get full bundle verification."

def verifyReleaseBundle (rt : BundleRuntime β ρ) (pulled : PulledReleaseBundle β ρ)
    (transportRef : String) : Except BundleError (List String) := do
  let root := pulled.rootDir
  let label := pulled.manifest.stateId ++ ":" ++ pulled.manifest.releaseId
  let warnings ← match pulled.manifest.bundleFormatVersion with
    | some declaredFormat => do
        verifyDeclaredMemberContract rt root declaredFormat pulled.manifest.membersDigest label
          transportRef
        pure []
    | none =>
        if (root.entry releaseMemberDigestsFile).isSome then do
          let _ ← verifyReleaseMemberDigests rt root label transportRef
          pure []
        else
          pure [predatesWarning label transportRef]
  verifyRecordedMemberDigest rt root "graph.json" (some pulled.snapshot.graphDigest)
    "snapshot.json" label transportRef
  verifyRecordedMemberDigest rt root "cruxible.lock.yaml" pulled.snapshot.lockDigest
    "snapshot.json" label transportRef
  return warnings

/-- `_pull_bundle` on a directory that holds a copy of the published one. -/
def pullBundle (rt : BundleRuntime β ρ) (transportRef : String) (published : Directory β) :
    Except BundleError (PulledReleaseBundle β ρ × List String) := do
  let pulled ← loadBundle rt published
  let warnings ← verifyReleaseBundle rt pulled transportRef
  return (pulled, warnings)

variable {c : β} {d root r : Directory β} {name label ref : String} {digests : Dict String Value}
  {ds ds' : Dict String String}

theorem Directory.readBytes_eq_ok {path : String} :
    d.readBytes path = .ok c ↔ d.content path = some c := by
  unfold readBytes content
  split
  case h_1 h => simp only [Except.ok.injEq, h, Option.some.injEq]
  case h_2 h => simp [h]
  case h_3 h => simp [h]

theorem Directory.entry_of_content {path : String} (h : d.content path = some c) :
    d.entry path = some (.file c) := by
  unfold content at h
  split at h
  case h_1 _ c' he => rw [he, Option.some.inj h]
  case h_2 => cases h

theorem Directory.content_plain (hp : plainName name) :
    d.content name = some c ↔ d.top.get? name = some (.file c) := by
  constructor
  case mp =>
    intro h
    have he := entry_of_content h
    rwa [entry, if_pos hp] at he
  case mpr =>
    intro h
    rw [content, entry, if_pos hp, h]

theorem Directory.content_of_top (hp : plainName name) {o : Option β}
    (h : d.top.get? name = o.map .file) : d.content name = o := by
  cases o with
  | some c => exact (content_plain hp).mpr h
  | none => rw [content, entry, if_pos hp, h, Option.map_none]

theorem Directory.mem_fileNames : name ∈ d.fileNames ↔ ∃ c, d.top.get? name = some (.file c) := by
  unfold fileNames
  constructor
  case mp =>
    intro h
    have ⟨e, he, hname⟩ := List.mem_map.mp h
    have ⟨hmem, hfile⟩ := List.mem_filter.mp he
    obtain ⟨n, c | _⟩ := e
    · exact ⟨c, hname ▸ Dict.get?_of_mem hmem⟩
    · cases hfile
  case mpr =>
    intro ⟨c, h⟩
    exact List.mem_map.mpr ⟨(name, .file c), List.mem_filter.mpr ⟨Dict.mem_of_get? h, rfl⟩, rfl⟩

/-- The mapping that the bytes of a sidecar hold. -/
def readSidecar (rt : BundleRuntime β ρ) (bytes : β) : Option (Dict String Value) :=
  match rt.loads bytes with
  | .ok raw => digestsField raw
  | .error _ => none

/-- The digests of a directory's files are the ones that the mapping pins, and no
file beside the sidecar is left out. -/
structure Pinned (rt : BundleRuntime β ρ) (root : Directory β) (digests : Dict String Value) :
    Prop where
  nonempty : digests.entries ≠ []
  matched : ∀ name ∈ digests.keys, ∃ c, root.content name = some c ∧
    digests.get? name = some (.str (rt.sha256Bytes c))
  covers : ∀ name ∈ root.fileNames, name ≠ releaseMemberDigestsFile → name ∈ digests.keys

/-- `{str(member): str(digest) for member, digest in digests.items()}` -/
def pinnedDigests (rt : BundleRuntime β ρ) (digests : Dict String Value) : Dict String String :=
  .ofList (digests.entries.map fun d => (d.1, rt.pyStr d.2))

variable {rt : BundleRuntime β ρ} {b : Directory β} {expected : Option String}
  {p q : PulledReleaseBundle β ρ}

theorem verifyPinnedMember_ok {member : String} {u : Unit} :
    verifyPinnedMember rt root label ref digests member = .ok u ↔ ∃ c, root.content member = some c ∧
      digests.get? member = some (.str (rt.sha256Bytes c)) := by
  simp only [verifyPinnedMember, bind_eq_ok, refuseIf_eq_ok, Directory.readBytes_eq_ok, not_not]
  constructor
  case mp =>
    rintro ⟨_, _, c, hc, hdigest⟩
    refine ⟨c, hc, ?_⟩
    cases hget : digests.get? member with
    | none =>
      rw [hget] at hdigest
      cases hdigest
    | some v =>
      rw [hget] at hdigest
      exact congrArg some hdigest.symm
  case mpr =>
    rintro ⟨c, hc, hdigest⟩
    have hentry := Directory.entry_of_content hc
    exact ⟨(), by simp [hentry], c, hc, by rw [hdigest]; rfl⟩

theorem unpinnedFiles_eq_nil :
    unpinnedFiles root digests = [] ↔
      ∀ name ∈ root.fileNames, name ≠ releaseMemberDigestsFile → name ∈ digests.keys := by
  have hperm := List.perm_insertionSort (fun a b : String => a ≤ b)
    (root.fileNames.filter fun name =>
      name ≠ releaseMemberDigestsFile && !digests.contains name)
  have hkey : ∀ name, digests.contains name = true ↔ name ∈ digests.keys := fun name =>
    Option.isSome_iff_exists.trans Dict.mem_keys.symm
  constructor
  case mp =>
    intro h name hname hne
    by_contra hkeys
    have hout : digests.contains name = false :=
      Bool.eq_false_iff.mpr fun hin => hkeys ((hkey name).mp hin)
    have hmem : name ∈ unpinnedFiles root digests :=
      hperm.mem_iff.mpr (List.mem_filter.mpr ⟨hname, by simp [hne, hout]⟩)
    rw [h] at hmem
    cases hmem
  case mpr =>
    intro h
    refine List.eq_nil_iff_forall_not_mem.mpr fun name hname => ?_
    obtain ⟨hfile, htest⟩ := List.mem_filter.mp (hperm.mem_iff.mp hname)
    obtain ⟨hne, hkeys⟩ : name ≠ releaseMemberDigestsFile ∧ digests.contains name = false := by
      simpa using htest
    have hmem := (hkey name).mpr (h name hfile hne)
    rw [hkeys] at hmem
    cases hmem

theorem readSidecar_eq_some :
    readSidecar rt c = some digests ↔ ∃ raw, rt.loads c = .ok raw ∧ digestsField raw = some digests := by
  unfold readSidecar
  cases rt.loads c with
  | ok raw => simp
  | error e => simp

theorem verifyReleaseMemberDigests_ok :
    verifyReleaseMemberDigests rt root label ref = .ok ds ↔ ∃ c digests,
      root.content releaseMemberDigestsFile = some c ∧ readSidecar rt c = some digests ∧
        Pinned rt root digests ∧ pinnedDigests rt digests = ds := by
  have hsort : ∀ (names : List String) name, name ∈ names.insertionSort (· ≤ ·) ↔ name ∈ names :=
    fun names name => (List.perm_insertionSort _ names).mem_iff
  simp only [verifyReleaseMemberDigests, bind_eq_ok, pure_eq_ok, refuseIf_eq_ok, not_not,
    Directory.readBytes_eq_ok, mapError_eq_ok, forM_eq_ok, unpinnedFiles_eq_nil,
    verifyPinnedMember_ok, hsort]
  constructor
  case mp =>
    rintro ⟨c, hc, raw, hraw, _, hne, _, hmatched, _, hcovers, hds⟩
    cases hfield : digestsField raw with
    | none =>
      rw [hfield] at hne
      exact absurd rfl hne
    | some digests =>
      rw [hfield] at hne hmatched hcovers hds
      exact ⟨c, digests, hc, readSidecar_eq_some.mpr ⟨raw, hraw, hfield⟩,
        ⟨hne, hmatched, hcovers⟩, hds⟩
  case mpr =>
    rintro ⟨c, digests, hc, hread, hpinned, hds⟩
    obtain ⟨raw, hraw, hfield⟩ := readSidecar_eq_some.mp hread
    refine ⟨c, hc, raw, hraw, (), ?_⟩
    rw [hfield]
    exact ⟨hpinned.nonempty, (), hpinned.matched, (), hpinned.covers, hds⟩

/-- Digests, name by name: those that are pinned are those of the files. -/
structure Vouched (rt : BundleRuntime β ρ) (root : Directory β) (ds : Dict String String) :
    Prop where
  pinned : ∀ name digest, ds.get? name = some digest →
    (root.content name).map rt.sha256Bytes = some digest
  complete : ∀ name, plainName name → name ≠ releaseMemberDigestsFile →
    (root.content name).map rt.sha256Bytes = ds.get? name

theorem pinnedDigests_get? (rt : BundleRuntime β ρ) (digests : Dict String Value) (name : String) :
    (pinnedDigests rt digests).get? name = (digests.get? name).map rt.pyStr :=
  Dict.get?_ofList_map digests rt.pyStr name

theorem Pinned.vouched (h : Pinned rt root digests) :
    Vouched rt root (pinnedDigests rt digests) := by
  have hpinned : ∀ name digest, (pinnedDigests rt digests).get? name = some digest →
      (root.content name).map rt.sha256Bytes = some digest := by
    intro name digest hget
    rw [pinnedDigests_get?] at hget
    have ⟨v, hv, hstr⟩ := Option.map_eq_some_iff.mp hget
    have ⟨c, hc, hdigest⟩ := h.matched name (Dict.mem_keys.mpr ⟨v, hv⟩)
    obtain rfl : v = .str (rt.sha256Bytes c) := Option.some.inj (hv.symm.trans hdigest)
    rw [hc, Option.map_some]
    exact congrArg some hstr
  constructor
  case pinned => exact hpinned
  case complete =>
    intro name hplain hne
    cases hget : (pinnedDigests rt digests).get? name with
    | some digest => exact hpinned name digest hget
    | none =>
      cases hc : root.content name with
      | none => rfl
      | some c =>
        have hfile := Directory.mem_fileNames.mpr ⟨c, (Directory.content_plain hplain).mp hc⟩
        have ⟨v, hv⟩ := Dict.mem_keys.mp (h.covers name hfile hne)
        rw [pinnedDigests_get?, hv] at hget
        cases hget

theorem canonicalEntries_strs (es : List (String × String)) :
    Value.canonicalEntries (es.map fun d => (d.1, Value.str d.2)) =
      es.map fun d => (d.1, Value.str d.2) := by
  induction es with
  | nil => rfl
  | cons e es ih => simp only [List.map_cons, Value.canonicalEntries, ih, Value.canonical]

theorem plainEntries_strs {es : List (String × Value)} (h : ∀ e ∈ es, ∃ s, e.2 = .str s) :
    Value.plainEntries es = true := by
  induction es with
  | nil => rfl
  | cons e es ih =>
    obtain ⟨k, v⟩ := e
    have ⟨s, hs⟩ := h (k, v) List.mem_cons_self
    obtain rfl : v = .str s := hs
    simp only [Value.plainEntries, Value.plain, Bool.true_and]
    exact ih fun e he => h e (List.mem_cons_of_mem _ he)

def digestEntries (ds : Dict String String) : List (String × Value) :=
  Value.sortEntries (ds.entries.map fun d => (d.1, .str d.2))

theorem sidecarBody_canonical (ds : Dict String String) :
    (sidecarBody ds).canonical =
      .object [("digests", .object (digestEntries ds)), ("format_version", .int 1)] := by
  have hle : ¬"format_version" ≤ "digests" := by decide
  have hsort : ∀ v w : Value, Value.sortEntries [("format_version", v), ("digests", w)] =
      [("digests", w), ("format_version", v)] := by
    intro v w
    simp [Value.sortEntries, List.insertionSort, List.orderedInsert, hle]
  simp only [sidecarBody, Value.canonical, Value.canonicalEntries, hsort, canonicalEntries_strs,
    digestEntries, memberDigestsFormatVersion]

theorem strs_nodup (ds : Dict String String) :
    ((ds.entries.map fun d => (d.1, Value.str d.2)).map Prod.fst).Nodup := by
  rw [List.map_map]
  exact ds.nodup

theorem digestEntries_nodup (ds : Dict String String) : ((digestEntries ds).map Prod.fst).Nodup :=
  ((List.perm_insertionSort _ _).map Prod.fst).nodup_iff.mpr (strs_nodup ds)

theorem digestEntries_get? (ds : Dict String String) (name : String) :
    Bindings.get? (digestEntries ds) name = (ds.get? name).map .str := by
  rw [digestEntries, Value.sortEntries_get? (strs_nodup ds), ← Dict.get?_ofList (strs_nodup ds)]
  exact Dict.get?_ofList_map ds Value.str name

theorem readSidecar_payload (rt : BundleRuntime β ρ) (ds : Dict String String) :
    readSidecar rt (membersSidecarPayload rt ds) = some (.ofList (digestEntries ds)) := by
  have hstr : ∀ e ∈ digestEntries ds, ∃ s, e.2 = .str s := by
    intro e he
    have ⟨d, _, hd⟩ := List.mem_map.mp ((List.perm_insertionSort _ _).mem_iff.mp he)
    exact ⟨d.2, by rw [← hd]⟩
  have hplain : (sidecarBody ds).canonical.plain = true := by
    simp [sidecarBody_canonical, Value.plain, Value.plainEntries, plainEntries_strs hstr,
      digestEntries_nodup]
  have hloads := rt.loads_jsonText _ hplain
  rw [sidecarBody_canonical] at hloads
  have hpayload : rt.loads (membersSidecarPayload rt ds) = .ok (.object
      [("digests", .object (digestEntries ds)), ("format_version", .int 1)]) := by
    rw [membersSidecarPayload, BundleRuntime.dumps, sidecarBody_canonical]
    exact hloads
  exact readSidecar_eq_some.mpr ⟨_, hpayload, rfl⟩

theorem membersSidecarPayload_congr (rt : BundleRuntime β ρ)
    (h : ∀ name, ds.get? name = ds'.get? name) :
    membersSidecarPayload rt ds = membersSidecarPayload rt ds' := by
  have hentries : digestEntries ds = digestEntries ds' := by
    refine Value.sortEntries_congr (strs_nodup ds) (strs_nodup ds') fun name => ?_
    rw [← Dict.get?_ofList (strs_nodup ds), ← Dict.get?_ofList (strs_nodup ds')]
    rw [Dict.get?_ofList_map ds, Dict.get?_ofList_map ds', h]
  rw [membersSidecarPayload, BundleRuntime.dumps, sidecarBody_canonical, hentries,
    ← sidecarBody_canonical]
  rfl

theorem membersSidecarPayload_inj (h : membersSidecarPayload rt ds = membersSidecarPayload rt ds')
    (name : String) : ds.get? name = ds'.get? name := by
  have hread := readSidecar_payload rt ds
  rw [h, readSidecar_payload rt ds'] at hread
  have hget := congrArg (Dict.get? · name) (Option.some.inj hread)
  simp only [Dict.get?_ofList (digestEntries_nodup _), digestEntries_get?] at hget
  exact (Option.map_injective (fun _ _ => Value.str.inj) hget).symm

theorem withoutManifest_get? (ds : Dict String String) (name : String) :
    (withoutManifest ds).get? name = if name ≠ "manifest.json" then ds.get? name else none := by
  have h := Dict.get?_ofList_filter ds (fun k => decide (k ≠ "manifest.json")) name
  simpa only [withoutManifest, decide_eq_true_eq] using h

/-- The digests that the sidecar of a directory pins. -/
def sidecarDigests (rt : BundleRuntime β ρ) (d : Directory β) : Option (Dict String String) :=
  ((d.content releaseMemberDigestsFile).bind (readSidecar rt)).map (pinnedDigests rt)

/-- The contents that a verification hashes. -/
def hashedContents (rt : BundleRuntime β ρ) (d : Directory β) : List β :=
  (d.fileNames.filterMap fun name => d.content name) ++
    (sidecarDigests rt d).toList.map fun ds => membersSidecarPayload rt (withoutManifest ds)

/-- The hash separates the contents that the verifications of two directories hash. -/
def CollisionFree (rt : BundleRuntime β ρ) (b d : Directory β) : Prop :=
  ∀ x ∈ hashedContents rt b, ∀ y ∈ hashedContents rt d, rt.sha256Bytes x = rt.sha256Bytes y → x = y

instance [DecidableEq β] (rt : BundleRuntime β ρ) (b d : Directory β) :
    Decidable (CollisionFree rt b d) :=
  inferInstanceAs (Decidable (∀ x ∈ hashedContents rt b, ∀ y ∈ hashedContents rt d,
    rt.sha256Bytes x = rt.sha256Bytes y → x = y))

theorem mem_hashedContents (hp : plainName name) (h : d.content name = some c) :
    c ∈ hashedContents rt d := by
  have hfile := Directory.mem_fileNames.mpr ⟨c, (Directory.content_plain hp).mp h⟩
  exact List.mem_append_left _ (List.mem_filterMap.mpr ⟨name, hfile, h⟩)

/-- Files with one digest are one file. -/
theorem CollisionFree.content_eq (h : CollisionFree rt b d) (hp : plainName name)
    (hd : (b.content name).map rt.sha256Bytes = (d.content name).map rt.sha256Bytes) :
    d.content name = b.content name := by
  cases hb : b.content name with
  | none =>
    rw [hb, Option.map_none] at hd
    exact Option.map_eq_none_iff.mp hd.symm
  | some x =>
    rw [hb, Option.map_some] at hd
    have ⟨y, hy, hxy⟩ := Option.map_eq_some_iff.mp hd.symm
    rw [hy, h x (mem_hashedContents hp hb) y (mem_hashedContents hp hy) hxy.symm]

/-- The sidecar of a directory was read, and its digests are those of the files. -/
structure SidecarHolds (rt : BundleRuntime β ρ) (root : Directory β) (ds : Dict String String) :
    Prop where
  read : sidecarDigests rt root = some ds
  vouched : Vouched rt root ds

theorem verifyReleaseMemberDigests_holds (h : verifyReleaseMemberDigests rt root label ref = .ok ds)
    : SidecarHolds rt root ds := by
  have ⟨c, digests, hc, hread, hpinned, hds⟩ := verifyReleaseMemberDigests_ok.mp h
  constructor
  case read => rw [sidecarDigests, hc, Option.bind_some, hread, Option.map_some, hds]
  case vouched => exact hds ▸ hpinned.vouched

theorem verifyDeclaredMemberContract_ok {declared : Int} {u : Unit} :
    verifyDeclaredMemberContract rt root declared expected label ref = .ok u ↔
      declared ≤ memberDigestsFormatVersion ∧ ∃ ds,
        verifyReleaseMemberDigests rt root label ref = .ok ds ∧
          ∀ digest ∈ expected, computeMembersDigest rt ds = digest := by
  simp only [verifyDeclaredMemberContract, bind_eq_ok, refuseIf_eq_ok, not_lt, not_exists, not_and,
    not_not]
  constructor
  case mp =>
    rintro ⟨_, hle, _, _, ds, hds, hdigest⟩
    exact ⟨hle, ds, hds, hdigest⟩
  case mpr =>
    rintro ⟨hle, ds, hds, hdigest⟩
    obtain ⟨c, _, hc, _⟩ := verifyReleaseMemberDigests_ok.mp hds
    exact ⟨(), hle, (), by simp [Directory.entry_of_content hc], ds, hds, hdigest⟩

theorem verifyReleaseBundle_holds {pulled : PulledReleaseBundle β ρ} {warnings : List String}
    (h : verifyReleaseBundle rt pulled ref = .ok warnings)
    (hsidecar : pulled.manifest.bundleFormatVersion.isSome ∨
      (pulled.rootDir.entry releaseMemberDigestsFile).isSome) :
    ∃ ds, SidecarHolds rt pulled.rootDir ds ∧
      (pulled.manifest.bundleFormatVersion.isSome →
        ∀ digest ∈ pulled.manifest.membersDigest, computeMembersDigest rt ds = digest) := by
  unfold verifyReleaseBundle at h
  dsimp only at h
  cases hformat : pulled.manifest.bundleFormatVersion with
  | some declared =>
    rw [hformat] at h
    have ⟨_, hcontract, _⟩ := bind_eq_ok.mp h
    have ⟨_, ds, hds, hdigest⟩ := verifyDeclaredMemberContract_ok.mp hcontract
    exact ⟨ds, verifyReleaseMemberDigests_holds hds, fun _ => hdigest⟩
  | none =>
    have hentry : (pulled.rootDir.entry releaseMemberDigestsFile).isSome := by
      simpa [hformat] using hsidecar
    rw [hformat] at h
    simp only [hentry, if_true] at h
    have ⟨ds, hds, _⟩ := bind_eq_ok.mp h
    exact ⟨ds, verifyReleaseMemberDigests_holds hds, nofun⟩

/-- What a successful pull has read. -/
structure Pulls (rt : BundleRuntime β ρ) (ref : String) (d : Directory β)
    (pulled : PulledReleaseBundle β ρ) : Prop where
  root : pulled.rootDir = d
  manifest : ∃ c, d.content "manifest.json" = some c ∧ validateManifestJson rt c = .ok pulled.manifest
  verified : ∃ warnings, verifyReleaseBundle rt pulled ref = .ok warnings

theorem pullBundle_pulls {result : PulledReleaseBundle β ρ × List String}
    (h : pullBundle rt ref d = .ok result) : Pulls rt ref d result.1 := by
  simp only [pullBundle, loadBundle, bind_eq_ok, pure_eq_ok, Directory.readBytes_eq_ok] at h
  have ⟨pulled, ⟨_, _, _, _, c, hc, m, hm, _, _, _, _, hpulled⟩, warnings, hverify, hresult⟩ := h
  subst hresult hpulled
  exact ⟨rfl, ⟨c, hc, hm⟩, warnings, hverify⟩

theorem content_eq_of_digests (hfree : CollisionFree rt b d) (hb : SidecarHolds rt b ds)
    (hd : SidecarHolds rt d ds') (hp : plainName name) (hname : name ≠ releaseMemberDigestsFile)
    (h : ds'.get? name = ds.get? name) : d.content name = b.content name :=
  hfree.content_eq hp
    (((hb.vouched.complete name hp hname).trans h.symm).trans (hd.vouched.complete name hp hname).symm)

theorem same_files_of_sidecar {ref' : String} (hfree : CollisionFree rt b d) (hb : Pulls rt ref b p)
    (hd : Pulls rt ref' d q) (hthere : (b.content releaseMemberDigestsFile).isSome)
    (hsame : d.content releaseMemberDigestsFile = b.content releaseMemberDigestsFile)
    (hp : plainName name) : d.content name = b.content name := by
  have hentry : ∀ {r : Directory β}, (r.content releaseMemberDigestsFile).isSome →
      (r.entry releaseMemberDigestsFile).isSome := by
    intro r hr
    have ⟨c, hc⟩ := Option.isSome_iff_exists.mp hr
    rw [Directory.entry_of_content hc]
    rfl
  have ⟨_, hverb⟩ := hb.verified
  have ⟨_, hverd⟩ := hd.verified
  have ⟨ds, hholds, _⟩ := verifyReleaseBundle_holds hverb (.inr (hb.root ▸ hentry hthere))
  have ⟨ds', hholds', _⟩ := verifyReleaseBundle_holds hverd
    (.inr (hd.root ▸ hentry (hsame ▸ hthere)))
  rw [hb.root] at hholds
  rw [hd.root] at hholds'
  by_cases hname : name = releaseMemberDigestsFile
  case pos => rw [hname, hsame]
  case neg =>
    have hread := hholds'.read
    rw [sidecarDigests, hsame, ← sidecarDigests, hholds.read] at hread
    exact content_eq_of_digests hfree hholds hholds' hp hname (by rw [Option.some.inj hread])

theorem same_files_of_manifest {ref' : String} (hfree : CollisionFree rt b d)
    (hb : Pulls rt ref b p) (hd : Pulls rt ref' d q)
    (hformat : p.manifest.bundleFormatVersion.isSome) (hdigest : p.manifest.membersDigest.isSome)
    (hsame : (d.content "manifest.json").map rt.sha256Bytes =
      (b.content "manifest.json").map rt.sha256Bytes) :
    (∀ name, plainName name → name ≠ releaseMemberDigestsFile → d.content name = b.content name) ∧
      ∀ name, (sidecarDigests rt d).bind (·.get? name) = (sidecarDigests rt b).bind (·.get? name) := by
  have hplain : plainName "manifest.json" := by decide
  have hcontent := hfree.content_eq hplain hsame.symm
  have ⟨c, hc, hread⟩ := hb.manifest
  have ⟨c', hc', hread'⟩ := hd.manifest
  obtain rfl : c' = c := Option.some.inj (hc'.symm.trans (hcontent.trans hc))
  have hmanifest : q.manifest = p.manifest := Except.ok.inj (hread'.symm.trans hread)
  have ⟨_, hverb⟩ := hb.verified
  have ⟨_, hverd⟩ := hd.verified
  have ⟨ds, hholds, hbody⟩ := verifyReleaseBundle_holds hverb (.inl hformat)
  have ⟨ds', hholds', hbody'⟩ := verifyReleaseBundle_holds hverd (.inl (hmanifest ▸ hformat))
  rw [hb.root] at hholds
  rw [hd.root] at hholds'
  have ⟨digest, hd⟩ := Option.isSome_iff_exists.mp hdigest
  have hbodies : membersSidecarPayload rt (withoutManifest ds) =
      membersSidecarPayload rt (withoutManifest ds') := by
    have hin : membersSidecarPayload rt (withoutManifest ds) ∈ hashedContents rt b :=
      List.mem_append_right _ (by simp [hholds.read])
    have hin' : membersSidecarPayload rt (withoutManifest ds') ∈ hashedContents rt d :=
      List.mem_append_right _ (by simp [hholds'.read])
    refine hfree _ hin _ hin' ?_
    exact (hbody hformat digest hd).trans
      (hbody' (hmanifest ▸ hformat) digest (hmanifest ▸ hd)).symm
  have hdigests : ∀ name, ds'.get? name = ds.get? name := by
    intro name
    by_cases hname : name = "manifest.json"
    case pos =>
      subst hname
      rw [← hholds.vouched.complete _ hplain (by decide),
        ← hholds'.vouched.complete _ hplain (by decide), hsame]
    case neg =>
      have hget := membersSidecarPayload_inj hbodies name
      simpa only [withoutManifest_get?, ne_eq, hname, not_false_eq_true, if_true] using hget.symm
  constructor
  case left =>
    intro name hp hname
    exact content_eq_of_digests hfree hholds hholds' hp hname (hdigests name)
  case right =>
    intro name
    rw [hholds.read, hholds'.read]
    exact hdigests name

theorem Directory.writeBytes_ok (h : d.writeBytes name c = .ok r) (k : String) :
    r.top.get? k = if name = k then some (.file c) else d.top.get? k := by
  unfold writeBytes at h
  split at h
  case h_1 => cases h
  case h_2 =>
    rw [← Except.ok.inj h]
    exact Dict.get?_set d.top name (.file c) k

theorem foldlM_writeBytes {files : List (String × β)} (hn : (files.map Prod.fst).Nodup)
    (h : files.foldlM (fun dir a => dir.writeBytes a.1 a.2) d = .ok r) (k : String) :
    r.top.get? k = ((Bindings.get? files k).map .file).or (d.top.get? k) := by
  induction files generalizing d with
  | nil =>
    rw [List.foldlM_nil, pure_eq_ok] at h
    rw [h]
    rfl
  | cons a files ih =>
    obtain ⟨name, c⟩ := a
    have ⟨d', hwrite, hrest⟩ := foldlM_cons_eq_ok.mp h
    have ⟨hnotin, hnodup⟩ := List.nodup_cons.mp hn
    rw [ih hnodup hrest, Directory.writeBytes_ok hwrite, Bindings.get?]
    by_cases hk : name = k
    case pos =>
      subst hk
      simp [Bindings.get?_eq_none.mpr hnotin]
    case neg => simp [hk]

theorem copyMember_ok {source : Directory β} (h : copyMember source d name = .ok r) (k : String) :
    r.top.get? k =
      if name = k then ((source.content k).map .file).or (d.top.get? k) else d.top.get? k := by
  unfold copyMember at h
  split at h
  case h_1 hnone =>
    rw [← Except.ok.inj h]
    by_cases hk : name = k
    case pos => simp [← hk, Directory.content, hnone]
    case neg => rw [if_neg hk]
  case h_2 =>
    have ⟨c, hc, hwrite⟩ := bind_eq_ok.mp h
    rw [Directory.readBytes_eq_ok] at hc
    rw [Directory.writeBytes_ok hwrite]
    by_cases hk : name = k
    case pos => simp [← hk, hc]
    case neg => rw [if_neg hk, if_neg hk]

theorem foldlM_copyMember {source : Directory β} {names : List String}
    (h : names.foldlM (copyMember source) d = .ok r) (k : String) :
    r.top.get? k =
      if k ∈ names then ((source.content k).map .file).or (d.top.get? k) else d.top.get? k := by
  induction names generalizing d with
  | nil =>
    rw [List.foldlM_nil, pure_eq_ok] at h
    rw [h]
    rfl
  | cons name names ih =>
    have ⟨d', hcopy, hrest⟩ := foldlM_cons_eq_ok.mp h
    rw [ih hrest, copyMember_ok hcopy]
    by_cases hk : name = k
    case pos =>
      subst hk
      cases source.content name with
      | none => simp
      | some c => simp
    case neg => simp [hk, Ne.symm hk]

/-- What building leaves: the members of the snapshot, a manifest that records the
digest of the sidecar's body, and the sidecar with the digests of all of them. -/
structure Built (rt : BundleRuntime β ρ) (record : SnapshotRecord rt) (b : Directory β) where
  manifest : PublishedStateManifest
  digests : Dict String String
  valid : manifest.validate = .ok manifest
  format : manifest.bundleFormatVersion = some memberDigestsFormatVersion
  body : manifest.membersDigest = some (computeMembersDigest rt digests)
  files : ∀ name ∈ b.fileNames, name = "manifest.json" ∨ name = releaseMemberDigestsFile ∨
    name ∈ releaseBundleMembers
  pins : ∀ name, digests.get? name =
    if name ∈ releaseBundleMembers then (b.content name).map rt.sha256Bytes else none
  image : ∀ name ∈ record.artifacts.keys, name ∈ releaseBundleMembers →
    b.content name = record.artifacts.get? name
  manifestBytes : b.content "manifest.json" = some (rt.dumps manifest.modelDump)
  sidecarBytes : b.content releaseMemberDigestsFile = some (membersSidecarPayload rt
    (digests.set "manifest.json" (rt.sha256Bytes (rt.dumps manifest.modelDump))))

theorem exported_content {store : SnapshotStore rt} {snapshotId : String}
    {record : SnapshotRecord rt} (hrecord : store.snapshots.get? snapshotId = some record)
    (h : exportSnapshotArtifacts store snapshotId = .ok d) (hname : name ∈ record.artifacts.keys) :
    d.content name = record.artifacts.get? name := by
  unfold exportSnapshotArtifacts at h
  rw [hrecord] at h
  have htop := foldlM_writeBytes record.artifacts.nodup h name
  have ⟨c, hc⟩ := Dict.mem_keys.mp hname
  rw [show Bindings.get? record.artifacts.entries name = some c from hc] at htop
  rw [hc]
  exact (Directory.content_plain (record.names name hname)).mpr htop

theorem validate_eq_ok {m m' : PublishedStateManifest} (h : m.validate = .ok m') :
    m' = m ∧ m.validate = .ok m := by
  have hself : m' = m := by
    simp only [PublishedStateManifest.validate, bind_eq_ok, pure_eq_ok] at h
    have ⟨_, _, _, _, hm⟩ := h
    exact hm.symm
  exact ⟨hself, hself ▸ h⟩

theorem members_plain : ∀ name ∈ releaseBundleMembers, plainName name := by decide

theorem members_apart : ∀ name ∈ releaseBundleMembers,
    "manifest.json" ≠ name ∧ releaseMemberDigestsFile ≠ name := by decide

theorem buildReleaseBundle_built {store : SnapshotStore rt} {config : CoreConfig}
    {snapshotId stateId releaseId : String} {compatibility : StateCompatibility}
    {parent : Option String}
    (h : buildReleaseBundle rt store config snapshotId stateId releaseId compatibility parent = .ok b) :
    ∃ record, store.snapshots.get? snapshotId = some record ∧ Nonempty (Built rt record b) := by
  simp only [buildReleaseBundle, bind_eq_ok, refuseIf_eq_ok] at h
  obtain ⟨_, hthere, source, hsource, copied, hcopied, m, hm, pinned, hpinned, hwritten⟩ := h
  cases hrecord : store.snapshots.get? snapshotId with
  | none =>
    rw [hrecord] at hthere
    exact absurd rfl hthere
  | some record =>
    obtain ⟨hmanifest, hvalid⟩ := validate_eq_ok hm
    have htop : ∀ k, b.top.get? k = if releaseMemberDigestsFile = k then some (.file
        (membersSidecarPayload rt ((memberDigests rt copied).set "manifest.json"
          (rt.sha256Bytes (rt.dumps m.modelDump)))))
        else if "manifest.json" = k then some (.file (rt.dumps m.modelDump))
        else if k ∈ releaseBundleMembers then (source.content k).map .file else none := by
      intro k
      rw [Directory.writeBytes_ok hwritten, Directory.writeBytes_ok hpinned,
        foldlM_copyMember hcopied]
      have hempty : (∅ : Dict String (Entry β)).get? k = none := rfl
      simp only [hempty, Option.or_none]
    have hcopy : ∀ k ∈ releaseBundleMembers,
        b.content k = source.content k ∧ copied.content k = source.content k := by
      intro k hk
      obtain ⟨hm, hs⟩ := members_apart k hk
      have hempty : (∅ : Dict String (Entry β)).get? k = none := rfl
      constructor
      case left =>
        refine Directory.content_of_top (members_plain k hk) ?_
        rw [htop, if_neg hs, if_neg hm, if_pos hk]
      case right =>
        refine Directory.content_of_top (members_plain k hk) ?_
        rw [foldlM_copyMember hcopied, if_pos hk, hempty, Option.or_none]
    have hbuilt : Built rt record b :=
      { manifest := m
        digests := memberDigests rt copied
        valid := hmanifest ▸ hvalid
        format := by rw [hmanifest]
        body := by rw [hmanifest]
        files := by
          intro name hname
          obtain ⟨c, hc⟩ := Directory.mem_fileNames.mp hname
          rw [htop] at hc
          split_ifs at hc with hs hm hk
          · exact .inr (.inl hs.symm)
          · exact .inl hm.symm
          · exact .inr (.inr hk)
        pins := by
          intro name
          have hnodup : releaseBundleMembers.Nodup := by decide
          have hget := Dict.get?_ofList_filterMap hnodup
            (fun name => (copied.content name).map rt.sha256Bytes) name
          simp only [Option.map_map] at hget
          refine hget.trans ?_
          split_ifs with hk
          · rw [(hcopy name hk).1, (hcopy name hk).2]
          · rfl
        image := by
          intro name hname hk
          rw [(hcopy name hk).1]
          exact exported_content hrecord hsource hname
        manifestBytes := by
          refine (Directory.content_plain (by decide)).mpr ?_
          rw [htop, if_neg (by decide), if_pos rfl]
        sidecarBytes := by
          refine (Directory.content_plain (by decide)).mpr ?_
          rw [htop, if_pos rfl] }
    exact ⟨record, rfl, ⟨hbuilt⟩⟩

namespace Built

variable {rt : BundleRuntime β ρ} {record : SnapshotRecord rt} {b : Directory β}

/-- All digests of a built sidecar. -/
def allDigests (h : Built rt record b) : Dict String String :=
  h.digests.set "manifest.json" (rt.sha256Bytes (rt.dumps h.manifest.modelDump))

theorem allDigests_get? (h : Built rt record b) (name : String) :
    h.allDigests.get? name =
      if "manifest.json" = name then some (rt.sha256Bytes (rt.dumps h.manifest.modelDump))
      else h.digests.get? name :=
  Dict.get?_set h.digests "manifest.json" _ name

theorem allDigests_content (h : Built rt record b) {digest : String}
    (hget : h.allDigests.get? name = some digest) :
    ∃ c, b.content name = some c ∧ rt.sha256Bytes c = digest := by
  rw [allDigests_get?] at hget
  split_ifs at hget with hname
  · subst hname
    exact ⟨_, h.manifestBytes, Option.some.inj hget⟩
  · rw [h.pins] at hget
    split_ifs at hget with hk
    exact Option.map_eq_some_iff.mp hget

theorem pinned (h : Built rt record b) : Pinned rt b (.ofList (digestEntries h.allDigests)) := by
  have hget : ∀ name, (Dict.ofList (digestEntries h.allDigests)).get? name =
      (h.allDigests.get? name).map .str := by
    intro name
    rw [Dict.get?_ofList (digestEntries_nodup _), digestEntries_get?]
  have hmem : ∀ {name digest}, h.allDigests.get? name = some digest →
      name ∈ (Dict.ofList (digestEntries h.allDigests)).keys := by
    intro name digest hdigest
    exact Dict.mem_keys.mpr ⟨.str digest, by rw [hget, hdigest, Option.map_some]⟩
  have hmanifest : h.allDigests.get? "manifest.json" =
      some (rt.sha256Bytes (rt.dumps h.manifest.modelDump)) := by
    rw [allDigests_get?, if_pos rfl]
  constructor
  case nonempty =>
    intro hempty
    have hkey := hmem hmanifest
    rw [Dict.keys, hempty] at hkey
    cases hkey
  case matched =>
    intro name hname
    obtain ⟨v, hv⟩ := Dict.mem_keys.mp hname
    rw [hget] at hv
    obtain ⟨digest, hdigest, _⟩ := Option.map_eq_some_iff.mp hv
    obtain ⟨c, hc, hhash⟩ := h.allDigests_content hdigest
    exact ⟨c, hc, by rw [hget, hdigest, hhash, Option.map_some]⟩
  case covers =>
    intro name hfile hne
    rcases h.files name hfile with rfl | rfl | hk
    · exact hmem hmanifest
    · exact absurd rfl hne
    · obtain ⟨c, hc⟩ := Directory.mem_fileNames.mp hfile
      have hcontent := (Directory.content_plain (members_plain name hk)).mpr hc
      have hdigest : h.allDigests.get? name = some (rt.sha256Bytes c) := by
        rw [allDigests_get?, if_neg (members_apart name hk).1, h.pins, if_pos hk, hcontent,
          Option.map_some]
      exact hmem hdigest

theorem memberDigests_verified (h : Built rt record b) (label ref : String) :
    ∃ ds, verifyReleaseMemberDigests rt b label ref = .ok ds ∧
      computeMembersDigest rt ds = computeMembersDigest rt h.digests := by
  refine ⟨_, verifyReleaseMemberDigests_ok.mpr ⟨_, _, h.sidecarBytes,
    readSidecar_payload rt h.allDigests, h.pinned, rfl⟩, ?_⟩
  refine congrArg rt.sha256Bytes (membersSidecarPayload_congr rt fun name => ?_)
  rw [withoutManifest_get?, withoutManifest_get?]
  by_cases hname : name = "manifest.json"
  case pos => simp [hname]
  case neg =>
    rw [if_pos hname, if_pos hname, pinnedDigests_get?, Dict.get?_ofList (digestEntries_nodup _),
      digestEntries_get?, Option.map_map, h.allDigests_get?, if_neg (Ne.symm hname)]
    exact Option.map_id'

end Built

theorem verifyRecordedMemberDigest_ok {member : String} {source : String}
    (h : ∀ digest ∈ expected, (root.content member).map rt.sha256Bytes = some digest) :
    verifyRecordedMemberDigest rt root member expected source label ref = .ok () := by
  cases expected with
  | none => rfl
  | some digest =>
    have ⟨c, hc, hdigest⟩ := Option.map_eq_some_iff.mp (h digest rfl)
    have hentry := Directory.entry_of_content hc
    simp only [verifyRecordedMemberDigest, bind_eq_ok, refuseIf_eq_ok, Directory.readBytes_eq_ok,
      not_not]
    exact ⟨(), by simp [hentry], c, hc, hdigest⟩

theorem Built.recorded_digests {record : SnapshotRecord rt} (h : Built rt record b) :
    (b.content "graph.json").map rt.sha256Bytes = some record.snapshot.graphDigest ∧
      ∀ digest ∈ record.snapshot.lockDigest,
        (b.content "cruxible.lock.yaml").map rt.sha256Bytes = some digest := by
  constructor
  case left =>
    have ⟨c, hc, _⟩ := Option.map_eq_some_iff.mp record.graph
    rw [h.image "graph.json" (Dict.mem_keys.mpr ⟨c, hc⟩) (by decide)]
    exact record.graph
  case right =>
    intro digest hdigest
    have hlock := record.lock.trans hdigest
    have ⟨c, hc, _⟩ := Option.map_eq_some_iff.mp hlock
    rw [h.image "cruxible.lock.yaml" (Dict.mem_keys.mpr ⟨c, hc⟩) (by decide)]
    exact hlock

theorem Built.pulls {record : SnapshotRecord rt} (h : Built rt record b) (ref : String) :
    pullBundle rt ref b = .ok
      ({ rootDir := b, manifest := h.manifest, snapshot := record.snapshot }, []) := by
  have hsnapshot : b.content "snapshot.json" = some (rt.snapshotJson record.snapshot) :=
    (h.image "snapshot.json" (Dict.mem_keys.mpr ⟨_, record.recorded⟩) (by decide)).trans
      record.recorded
  have hload : loadBundle rt b = .ok
      { rootDir := b, manifest := h.manifest, snapshot := record.snapshot } := by
    simp only [loadBundle, bind_eq_ok, pure_eq_ok, refuseIf_eq_ok, Directory.readBytes_eq_ok,
      mapError_eq_ok]
    refine ⟨(), by simp [Directory.entry_of_content h.manifestBytes], (),
      by simp [Directory.entry_of_content hsnapshot], _, h.manifestBytes, h.manifest, ?_, _,
      hsnapshot, record.snapshot, rt.readSnapshot_json _, rfl⟩
    exact bind_eq_ok.mpr ⟨h.manifest, mapError_eq_ok.mpr (rt.readManifest_json _), h.valid⟩
  obtain ⟨hgraph, hlock⟩ := h.recorded_digests
  have hverify : verifyReleaseBundle rt
      { rootDir := b, manifest := h.manifest, snapshot := record.snapshot } ref = .ok [] := by
    obtain ⟨ds, hds, hbody⟩ :=
      h.memberDigests_verified (h.manifest.stateId ++ ":" ++ h.manifest.releaseId) ref
    have hcontract : ∃ u, verifyDeclaredMemberContract rt b memberDigestsFormatVersion
        h.manifest.membersDigest (h.manifest.stateId ++ ":" ++ h.manifest.releaseId) ref = .ok u := by
      refine ⟨(), verifyDeclaredMemberContract_ok.mpr ⟨le_refl _, ds, hds, ?_⟩⟩
      intro digest hdigest
      exact hbody.trans (Option.some.inj (h.body.symm.trans hdigest))
    obtain ⟨_, hok⟩ := hcontract
    unfold verifyReleaseBundle
    dsimp only
    rw [h.format]
    refine bind_eq_ok.mpr ⟨_, hok, bind_eq_ok.mpr ⟨[], rfl, ?_⟩⟩
    refine bind_eq_ok.mpr ⟨(), verifyRecordedMemberDigest_ok fun digest hd => ?_, ?_⟩
    case refine_1 => exact hgraph.trans hd
    case refine_2 => exact bind_eq_ok.mpr ⟨(), verifyRecordedMemberDigest_ok hlock, rfl⟩
  exact bind_eq_ok.mpr ⟨_, hload, bind_eq_ok.mpr ⟨[], hverify, rfl⟩⟩

/-- A file other than the sidecar has come, gone or changed, or the sidecar pins
another digest for some name. -/
def Altered (rt : BundleRuntime β ρ) (b d : Directory β) : Prop :=
  (∃ name, plainName name ∧ name ≠ releaseMemberDigestsFile ∧ d.content name ≠ b.content name) ∨
    ∃ name, (sidecarDigests rt d).bind (·.get? name) ≠ (sidecarDigests rt b).bind (·.get? name)

/-- The manifest that a mapping holds. -/
def parsedManifest (field : String → Option Value) : Except String PublishedStateManifest :=
  let text? := fun k => match field k with
    | some (.str s) => some s
    | _ => none
  let int? := fun k => match field k with
    | some (.int n) => some n
    | _ => none
  let texts := fun k => match field k with
    | some (.array items) => items.filterMap fun v => match v with
      | .str s => some s
      | _ => none
    | _ => []
  let compatibility := match text? "compatibility" with
    | some "data_only" => .dataOnly
    | some "additive_schema" => .additiveSchema
    | _ => .breaking
  .ok
    { formatVersion := (int? "format_version").getD 1
      stateId := (text? "state_id").getD ""
      releaseId := (text? "release_id").getD ""
      snapshotId := (text? "snapshot_id").getD ""
      compatibility := compatibility
      ownedEntityTypes := texts "owned_entity_types"
      ownedRelationshipTypes := texts "owned_relationship_types"
      parentReleaseId := text? "parent_release_id"
      bundleFormatVersion := int? "bundle_format_version"
      membersDigest := text? "members_digest" }

theorem canonicalItems_strs (ss : List String) :
    Value.canonicalItems (ss.map .str) = ss.map .str := by
  induction ss with
  | nil => rfl
  | cons s ss ih => simp only [List.map_cons, Value.canonicalItems, ih, Value.canonical]

def readParsed : Value → Except String PublishedStateManifest
  | .object entries => parsedManifest (Bindings.get? entries)
  | _ => .error "not a mapping"

theorem readParsed_modelDump (m : PublishedStateManifest) :
    readParsed m.modelDump.canonical = .ok m := by
  have hkeys : (m.dumpEntries.map Prod.fst).Nodup := by
    change ["format_version", "state_id", "release_id", "snapshot_id", "compatibility",
      "owned_entity_types", "owned_relationship_types", "parent_release_id",
      "bundle_format_version", "members_digest"].Nodup
    decide
  have hfields : Bindings.get? (Value.sortEntries (Value.canonicalEntries m.dumpEntries)) =
      Bindings.get? (Value.canonicalEntries m.dumpEntries) :=
    funext (Value.sortEntries_get? (by rw [Value.canonicalEntries_keys]; exact hkeys))
  simp only [PublishedStateManifest.modelDump, Value.canonical, readParsed]
  rw [hfields]
  obtain ⟨_, _, _, _, compatibility, _, _, parent, format, digest⟩ := m
  cases compatibility <;> cases parent <;> cases format <;> cases digest <;>
    simp [PublishedStateManifest.dumpEntries, Value.canonicalEntries, Value.canonical, parsedManifest,
      Bindings.get?, textOrNull, StateCompatibility.text, canonicalItems_strs]

mutual

/-- A text that tells apart the files below. -/
def digestText : Value → String
  | .str s => s
  | .array items => digestTexts items
  | .object entries => digestEntryTexts entries
  | _ => "."

def digestTexts : List Value → String
  | [] => ""
  | v :: vs => digestText v ++ "," ++ digestTexts vs

def digestEntryTexts : List (String × Value) → String
  | [] => ""
  | (k, v) :: es => k ++ "=" ++ digestText v ++ ";" ++ digestEntryTexts es

end

def parsedSnapshot : Value → Except String (StateSnapshot Unit)
  | .array [.str id, .str graph, .null] => .ok ⟨id, none, graph, ()⟩
  | .array [.str id, .str graph, .str lock] => .ok ⟨id, some lock, graph, ()⟩
  | _ => .error "not a snapshot"

def parsedRuntime : BundleRuntime Value Unit where
  sha256Bytes v := "sha256:" ++ digestText v
  jsonText v := v
  loads v := .ok v
  str _ := ""
  snapshotJson s := .array [.str s.snapshotId, .str s.graphDigest, textOrNull s.lockDigest]
  readSnapshot := parsedSnapshot
  readManifest := readParsed
  loads_jsonText _ _ := rfl
  readSnapshot_json := by
    intro ⟨id, lock, graph, rest⟩
    cases lock with
    | none => rfl
    | some digest => rfl
  readManifest_json := readParsed_modelDump

def firstSnapshot : SnapshotRecord parsedRuntime :=
  writeSnapshot parsedRuntime "snap_1" () (.str "graph") (.str "config") .null (.str "procedures")
    (some (.str "lock"))

def firstStore : SnapshotStore parsedRuntime where
  snapshots := (∅ : Dict String (SnapshotRecord parsedRuntime)).set "snap_1" firstSnapshot
  exported _ := {}

def buildFirst : Except BundleError (Directory Value) :=
  buildReleaseBundle parsedRuntime firstStore {} "snap_1" "state" "r1" .dataOnly none

def firstBundle : Directory Value := buildFirst.toOption.getD {}

/-- The first bundle with another configuration. -/
def swappedBundle : Directory Value :=
  { firstBundle with top := firstBundle.top.set "config.yaml" (.file (.str "other")) }

theorem firstBundle_built : buildFirst = .ok firstBundle := by
  have hok : buildFirst.toOption.isSome := by decide +kernel
  unfold firstBundle
  cases h : buildFirst with
  | ok b => rfl
  | error e =>
    rw [h] at hok
    cases hok

/-- **Bundle integrity.** A built bundle is pulled without a warning. A directory with
a manifest of the same digest and with anything else altered is refused, and so is
one with the built sidecar and any other file altered, the manifest among them. -/
theorem altered_bundles_are_refused {rt : BundleRuntime β ρ} {store : SnapshotStore rt}
    {config : CoreConfig} {snapshotId stateId releaseId : String}
    {compatibility : StateCompatibility} {parent : Option String} {b : Directory β}
    (h : buildReleaseBundle rt store config snapshotId stateId releaseId compatibility parent = .ok b) :
    (∀ ref, ∃ pulled, pullBundle rt ref b = .ok (pulled, [])) ∧
      ∀ ref d, CollisionFree rt b d →
        ((d.content "manifest.json").map rt.sha256Bytes =
            (b.content "manifest.json").map rt.sha256Bytes →
          Altered rt b d → ∃ e, pullBundle rt ref d = .error e) ∧
        (d.content releaseMemberDigestsFile = b.content releaseMemberDigestsFile →
          (∃ name, plainName name ∧ d.content name ≠ b.content name) →
            ∃ e, pullBundle rt ref d = .error e) := by
  have ⟨record, _, ⟨hbuilt⟩⟩ := buildReleaseBundle_built h
  constructor
  case left => exact fun ref => ⟨_, hbuilt.pulls ref⟩
  case right =>
    intro ref d hfree
    have hb := pullBundle_pulls (hbuilt.pulls ref)
    constructor
    case left =>
      intro hpin haltered
      cases hpull : pullBundle rt ref d with
      | error e => exact ⟨e, rfl⟩
      | ok result =>
          have ⟨hfiles, hdigests⟩ := same_files_of_manifest hfree hb (pullBundle_pulls hpull)
            (by rw [hbuilt.format]; rfl) (by rw [hbuilt.body]; rfl) hpin
          rcases haltered with ⟨name, hp, hname, hne⟩ | ⟨name, hne⟩
          · exact absurd (hfiles name hp hname) hne
          · exact absurd (hdigests name) hne
    case right =>
      intro hsidecar haltered
      have ⟨name, hp, hne⟩ := haltered
      cases hpull : pullBundle rt ref d with
      | error e => exact ⟨e, rfl⟩
      | ok result =>
          have hthere : (b.content releaseMemberDigestsFile).isSome := by
            rw [hbuilt.sidecarBytes]
            rfl
          exact absurd
            (same_files_of_sidecar hfree hb (pullBundle_pulls hpull) hthere hsidecar hp) hne

theorem swapped_configuration_is_refused :
    (∀ ref, ∃ pulled, pullBundle parsedRuntime ref firstBundle = .ok (pulled, [])) ∧
      ∃ e, pullBundle parsedRuntime "file://release" swappedBundle = .error e := by
  have hintegrity := altered_bundles_are_refused firstBundle_built
  have hfree : CollisionFree parsedRuntime firstBundle swappedBundle := by decide +kernel
  have hsame : (swappedBundle.content "manifest.json").map parsedRuntime.sha256Bytes =
      (firstBundle.content "manifest.json").map parsedRuntime.sha256Bytes := by decide +kernel
  have hswap : swappedBundle.content "config.yaml" ≠ firstBundle.content "config.yaml" := by
    decide +kernel
  constructor
  case left => exact hintegrity.1
  case right =>
    exact (hintegrity.2 "file://release" swappedBundle hfree).1 hsame
      (.inl ⟨"config.yaml", by decide, by decide, hswap⟩)

end Cruxible.ReleaseBundles
