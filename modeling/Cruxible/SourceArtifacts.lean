import Cruxible.MarkdownChunks

/-!
# Source artifacts and their revisions

Registrations insert immutable revisions of a document, each with its chunk
rows; the previous current revision is marked as superseded. Dereferencing
resolves a revision and a chunk, fetches the bytes of the revision from the
archive or from the local file, and cuts the chunk's lines out of bytes that
hash to the manifest.
-/
namespace Cruxible.SourceArtifacts
open PythonDict AssertionState Cruxible.Graph PropertyValidation Fallible MarkdownChunks

inductive SourceRetention where
  | manifestOnly
  | archive
  deriving DecidableEq, Repr

/-- One revision of a source artifact manifest. -/
structure SourceArtifactRecord where
  sourceArtifactId : String
  artifactRevisionId : String
  revision : Nat
  sourceRetention : SourceRetention
  originalUri : Option String
  label : Option String
  parserVersion : String
  contentHash : String
  byteCount : Nat
  localPath : Option String
  archived : Bool
  archiveContentHash : Option String
  createdAt : Timestamp
  supersededBy : Option String := none
  supersededAt : Option Timestamp := none
  driftObservedHash : Option String := none
  driftObservedAt : Option Timestamp := none
  firstDriftObservedHash : Option String := none
  firstDriftObservedAt : Option Timestamp := none
  deriving DecidableEq

/-- `artifact_revision_id`. -/
def artifactRevisionId (sourceArtifactId : String) (revision : Nat) : String :=
  sourceArtifactId ++ "@" ++ toString revision

def sha256Bytes (rt : DocumentRuntime) (content : ByteArray) : String :=
  "sha256:" ++ rt.sha256 content

/-- The three tables: revisions, chunk rows with the revision they belong to, and
archived bytes by content hash. -/
structure SourceArtifactStore where
  artifacts : List SourceArtifactRecord := []
  chunks : List (String × SourceArtifactChunk) := []
  archives : Dict String ByteArray := ∅

namespace SourceArtifactStore

/-- `get_artifact`: the current revision. -/
def getArtifact (s : SourceArtifactStore) (sourceArtifactId : String) :
    Option SourceArtifactRecord :=
  s.artifacts.find? fun a => a.sourceArtifactId = sourceArtifactId ∧ a.supersededBy = none

def getArtifactRevision (s : SourceArtifactStore) (revisionId : String) :
    Option SourceArtifactRecord :=
  s.artifacts.find? fun a => a.artifactRevisionId = revisionId

def listRevisionChunks (s : SourceArtifactStore) (revisionId : String) : List SourceArtifactChunk :=
  ((s.chunks.filter (fun p => p.1 = revisionId)).map Prod.snd).insertionSort ChunkLe

/-- The chunks of the current revision, in which the unpinned locators look. -/
def listChunks (s : SourceArtifactStore) (sourceArtifactId : String) : List SourceArtifactChunk :=
  match s.getArtifact sourceArtifactId with
  | some a => s.listRevisionChunks a.artifactRevisionId
  | none => []

/-- One row under the update that marks the old head. -/
def supersede (head next : String) (now : Timestamp) (a : SourceArtifactRecord) :
    SourceArtifactRecord :=
  if a.artifactRevisionId = head ∧ a.supersededBy = none then
    { a with supersededBy := some next, supersededAt := some now }
  else a

/-- The rows once the old head, if there is one, has been marked. -/
def clearHead (s : SourceArtifactStore) (head : Option String) (next : String) (now : Timestamp) :
    List SourceArtifactRecord :=
  match head with
  | some h => s.artifacts.map (supersede h next now)
  | none => s.artifacts

/-- `save_artifact`: insert a revision after marking the old head. The key
constraints of the revision table and of the chunk table can refuse it. -/
def saveArtifact (s : SourceArtifactStore) (record : SourceArtifactRecord)
    (chunks : List SourceArtifactChunk) (archiveContent : Option ByteArray) (now : Timestamp) :
    Except CoreError SourceArtifactStore := do
  let head := (s.getArtifact record.sourceArtifactId).map (·.artifactRevisionId)
  refuseIf (head = some record.artifactRevisionId)
    (.mutation ("Source artifact revision '" ++ record.artifactRevisionId ++ "' already exists; " ++
      "source artifact revisions are insert-only and are never replaced"))
  let rows := s.clearHead head record.artifactRevisionId now
  refuseIf (∃ a ∈ rows, a.artifactRevisionId = record.artifactRevisionId ∨
      a.sourceArtifactId = record.sourceArtifactId ∧
        (a.revision = record.revision ∨ a.supersededBy = none))
    (.mutation ("Source artifact revision '" ++ record.artifactRevisionId ++
      "' conflicts with an existing revision; source artifact revisions are insert-only"))
  refuseIf (¬ ((s.chunks ++ chunks.map (record.artifactRevisionId, ·)).map
      (fun p => (p.1, p.2.chunkId))).Nodup)
    (.mutation "Unexpected failure: UNIQUE constraint failed: source_artifact_chunks")
  return { artifacts := rows ++ [record],
           chunks := s.chunks ++ chunks.map (record.artifactRevisionId, ·),
           archives := match archiveContent, record.archiveContentHash with
             | some content, some hash => s.archives.set hash content
             | _, _ => s.archives }

/-- The row that `record_content_drift` leaves. -/
def observeDrift (observedHash : Option String) (observedAt : Option Timestamp)
    (a : SourceArtifactRecord) : SourceArtifactRecord :=
  if a.driftObservedHash ≠ observedHash ∨
      observedHash ≠ none ∧ a.firstDriftObservedHash = none then
    { a with driftObservedHash := observedHash, driftObservedAt := observedAt,
             firstDriftObservedHash := a.firstDriftObservedHash.or observedHash,
             firstDriftObservedAt := a.firstDriftObservedAt.or observedAt }
  else a

/-- `record_content_drift`. -/
def recordContentDrift (s : SourceArtifactStore) (revisionId : String)
    (observedHash : Option String) (observedAt : Option Timestamp) : SourceArtifactStore :=
  { s with artifacts := s.artifacts.map fun a =>
      if a.artifactRevisionId = revisionId then observeDrift observedHash observedAt a else a }

end SourceArtifactStore

/-- The store and the files that source paths lead to. -/
structure State where
  store : SourceArtifactStore := {}
  files : Dict String ByteArray := ∅

def State.withDrift (s : State) (revisionId : String) (observedHash : Option String)
    (observedAt : Option Timestamp) : State :=
  { s with store := s.store.recordContentDrift revisionId observedHash observedAt }

/-- Where the content of a registration comes from; a path is resolved and inside
the allowed roots. -/
inductive ContentSource where
  | path (resolved : String)
  | content (bytes : ByteArray)

structure RegistrationRequest where
  source : ContentSource
  sourceKind : String := "markdown"
  sourceRetention : SourceRetention := .manifestOnly
  originalUri : Option String := none
  label : Option String := none
  parserVersion : String := markdownChunksV1
  sourceArtifactId : Option String := none
  /-- What `new_id` would return. -/
  mintedId : String := ""
  persist : Bool := true
  now : Timestamp := 0

def idStart (c : Char) : Bool :=
  ('a' ≤ c && c ≤ 'z') || ('A' ≤ c && c ≤ 'Z') || ('0' ≤ c && c ≤ '9')

/-- A full match of `_SOURCE_ARTIFACT_ID_RE`. -/
def validArtifactId (id : String) : Bool :=
  match id.toList with
  | c :: cs => idStart c && (2 ≤ cs.length && cs.length ≤ 63) &&
      cs.all (fun c => idStart c || c = '.' || c = '_' || c = '-')
  | [] => false

def registrationContent (files : Dict String ByteArray) :
    ContentSource → Except CoreError ByteArray
  | .content bytes => .ok bytes
  | .path p =>
      match files.get? p with
      | some bytes => .ok bytes
      | none => .error (.config ("Source artifact path is not a file: " ++ p))

def decodeUtf8 (content : ByteArray) : Except CoreError String :=
  match String.fromUTF8? content with
  | some text => .ok text
  | none => .error (.config "Only UTF-8 Markdown source artifacts are supported")

theorem decodeUtf8_ok {content : ByteArray} {text : String}
    (h : decodeUtf8 content = .ok text) : String.fromUTF8? content = some text := by
  unfold decodeUtf8 at h
  split at h
  · rename_i t ht
    rw [Except.ok.injEq] at h
    rw [ht, h]
  · cases h

def resolveArtifactId (r : RegistrationRequest) : Except CoreError String :=
  match r.sourceArtifactId with
  | none => .ok r.mintedId
  | some id =>
      if validArtifactId id then .ok id
      else .error (.config ("source_artifact_id must be 3-64 chars of [A-Za-z0-9._-] " ++
        "starting with an alphanumeric"))

/-- `_build_record`. -/
def buildRecord (rt : DocumentRuntime) (r : RegistrationRequest) (id : String) (content : ByteArray)
    (revision : Nat) : SourceArtifactRecord :=
  { sourceArtifactId := id, artifactRevisionId := artifactRevisionId id revision,
    revision := revision, sourceRetention := r.sourceRetention, originalUri := r.originalUri,
    label := r.label, parserVersion := r.parserVersion, contentHash := sha256Bytes rt content,
    byteCount := content.size,
    localPath := match r.source with
      | .path p => some p
      | .content _ => none,
    archived := r.sourceRetention = .archive,
    archiveContentHash :=
      if r.sourceRetention = .archive then some (sha256Bytes rt content) else none,
    createdAt := r.now }

/-- What a registration answers: the revision and its chunks, and whether it was
there before. -/
structure Registered where
  record : SourceArtifactRecord
  chunks : List SourceArtifactChunk
  alreadyRegistered : Bool := false
  supersedes : Option String := none

def nextRevision (head : Option SourceArtifactRecord) : Nat :=
  match head with
  | some h => h.revision + 1
  | none => 1

/-- Everything that a registration decides before it writes. -/
def prepareRegistration (rt : DocumentRuntime) (s : State) (r : RegistrationRequest) :
    Except CoreError (ByteArray × Registered) := do
  refuseIf (r.sourceKind ≠ "markdown") (.config ("Unsupported source_kind '" ++ r.sourceKind ++ "'"))
  refuseIf (r.parserVersion ≠ markdownChunksV1)
    (.config ("Unsupported parser_version '" ++ r.parserVersion ++ "'"))
  let content ← registrationContent s.files r.source
  let text ← decodeUtf8 content
  let id ← resolveArtifactId r
  let chunks ← parseMarkdownChunks rt id text r.parserVersion
  refuseIf (chunks = []) (.config "Source artifact did not produce any addressable chunks")
  let head := s.store.getArtifact id
  match head with
  | some h =>
      if h.contentHash = sha256Bytes rt content then
        return (content, { record := h, chunks := chunks, alreadyRegistered := true })
      else
        return (content, { record := buildRecord rt r id content (nextRevision head),
                           chunks := chunks, supersedes := some h.artifactRevisionId })
  | none =>
      return (content, { record := buildRecord rt r id content (nextRevision head),
                         chunks := chunks })

/-- `service_register_source_artifact`. -/
def serviceRegisterSourceArtifact (rt : DocumentRuntime) (s : State) (r : RegistrationRequest) :
    Except CoreError (State × Registered) := do
  let (content, result) ← prepareRegistration rt s r
  if r.persist = false ∨ result.alreadyRegistered = true then return (s, result)
  else
    let store ← s.store.saveArtifact result.record result.chunks
      (if result.record.archived then some content else none) r.now
    return ({ s with store := store }, result)

structure SourceEvidenceInput where
  sourceArtifactId : String
  artifactRevisionId : Option String := none
  chunkId : Option String := none
  headingPath : Option (List String) := none
  blockSelector : Option String := none
  expectedContentHash : Option String := none

/-- `_validate_locator`. -/
def SourceEvidenceInput.validate (l : SourceEvidenceInput) : Except CoreError Unit := do
  refuseIf (blank l.sourceArtifactId = true) (.value "source_artifact_id is required")
  match l.chunkId with
  | some c => refuseIf (blank c = true) (.value "chunk_id must be non-empty when provided")
  | none =>
      refuseIf (l.headingPath.getD [] = [] ∨ l.blockSelector = none)
        (.value "source evidence requires chunk_id or heading_path plus block_selector")
      refuseIf (l.blockSelector.any blank = true)
        (.value "block_selector must be non-empty when provided")

inductive DereferenceStatus where
  | available
  | drifted
  | unavailable
  | revisionBytesNotRetained
  deriving DecidableEq, Repr

inductive BodyOrigin where
  | archive
  | localPath
  deriving DecidableEq, Repr

structure DereferenceResult where
  status : DereferenceStatus
  sourceArtifactId : String
  chunkId : String
  contentHash : String
  expectedArtifactHash : String
  currentArtifactHash : Option String := none
  bodyOrigin : Option BodyOrigin := none
  body : Option String := none
  reason : Option String := none
  artifactRevisionId : String
  revisionUnpinned : Bool
  deriving DecidableEq

/-- `_resolve_artifact_revision`. -/
def resolveArtifactRevision (s : SourceArtifactStore) (l : SourceEvidenceInput) :
    Except CoreError SourceArtifactRecord :=
  match l.artifactRevisionId with
  | none =>
      match s.getArtifact l.sourceArtifactId with
      | some a => .ok a
      | none => .error (.config ("Source artifact '" ++ l.sourceArtifactId ++ "' not found"))
  | some rid =>
      match s.getArtifactRevision rid with
      | none => .error (.config ("Source artifact revision '" ++ rid ++ "' not found"))
      | some a =>
          if a.sourceArtifactId ≠ l.sourceArtifactId then
            .error (.config ("Source artifact revision '" ++ rid ++ "' does not belong to '" ++
              l.sourceArtifactId ++ "'"))
          else .ok a

/-- The choice among the chunks that a locator is resolved against. -/
def chooseChunk (chunks : List SourceArtifactChunk) (l : SourceEvidenceInput)
    (missing unmatched : String) : Except CoreError SourceArtifactChunk :=
  match l.chunkId with
  | some id =>
      match chunks.find? (fun c => c.chunkId = id) with
      | some c => .ok c
      | none => .error (.config ("Source artifact chunk '" ++ id ++ "' not found " ++ missing))
  | none =>
      match chunks.filter (fun c => some c.headingPath = l.headingPath ∧
          some c.blockSelector = l.blockSelector) with
      | [] => .error (.config ("Source evidence locator did not match any " ++ unmatched))
      | [c] => .ok c
      | _ => .error (.config
          "Source evidence locator matched multiple chunks; use chunk_id instead")

/-- `_resolve_chunk`: a pinned locator looks in the pinned revision. -/
def resolveChunk (s : SourceArtifactStore) (l : SourceEvidenceInput) (a : SourceArtifactRecord) :
    Except CoreError SourceArtifactChunk :=
  match l.artifactRevisionId with
  | some _ => chooseChunk (s.listRevisionChunks a.artifactRevisionId) l
      ("in revision '" ++ a.artifactRevisionId ++ "'")
      ("chunk in revision '" ++ a.artifactRevisionId ++ "'")
  | none => chooseChunk (s.listChunks l.sourceArtifactId) l
      ("for '" ++ l.sourceArtifactId ++ "'") ("registered chunk: " ++ l.sourceArtifactId)

structure ContentResolution where
  status : DereferenceStatus
  content : Option ByteArray := none
  bodyOrigin : Option BodyOrigin := none
  currentArtifactHash : Option String := none
  reason : Option String := none

/-- The branch that reads the local file and records what it finds. -/
def resolveLocalContent (rt : DocumentRuntime) (s : State) (a : SourceArtifactRecord)
    (now : Timestamp) : State × ContentResolution :=
  match a.localPath with
  | none => (s, { status := .unavailable, reason := some "source artifact has no local path" })
  | some path =>
      match s.files.get? path with
      | none => (s, { status := .unavailable, reason := some "local source path is unavailable" })
      | some content =>
          if sha256Bytes rt content ≠ a.contentHash then
            (s.withDrift a.artifactRevisionId (some (sha256Bytes rt content)) (some now),
              { status := .drifted, currentArtifactHash := some (sha256Bytes rt content),
                reason := some "local source content hash does not match registered manifest" })
          else
            (s.withDrift a.artifactRevisionId none none,
              { status := .available, content := some content, bodyOrigin := some .localPath,
                currentArtifactHash := some (sha256Bytes rt content) })

def notRetainedReason : String :=
  "superseded revision bytes are not retained (no archived copy); " ++
    "the local path holds a newer revision"

/-- `_resolve_artifact_content`. -/
def resolveArtifactContent (rt : DocumentRuntime) (s : State) (a : SourceArtifactRecord)
    (now : Timestamp) : State × ContentResolution :=
  match a.archiveContentHash.bind s.store.archives.get? with
  | some archived =>
      if sha256Bytes rt archived ≠ a.contentHash then
        (s, { status := .unavailable,
              reason := some "archived source content hash does not match manifest" })
      else (s, { status := .available, content := some archived, bodyOrigin := some .archive,
                 currentArtifactHash := some (sha256Bytes rt archived) })
  | none =>
      if a.supersededBy ≠ none then
        (s, { status := .revisionBytesNotRetained,
              reason := some notRetainedReason })
      else resolveLocalContent rt s a now

/-- The answer about one chunk, without a body. -/
def answer (a : SourceArtifactRecord) (c : SourceArtifactChunk) (l : SourceEvidenceInput)
    (status : DereferenceStatus) (current : Option String) (reason : Option String) :
    DereferenceResult :=
  { status := status, sourceArtifactId := a.sourceArtifactId, chunkId := c.chunkId,
    contentHash := c.contentHash, expectedArtifactHash := a.contentHash,
    currentArtifactHash := current, reason := reason, artifactRevisionId := a.artifactRevisionId,
    revisionUnpinned := l.artifactRevisionId.isNone }

/-- The end of a dereference: cut the chunk out of available content. -/
def cutBody (a : SourceArtifactRecord) (c : SourceArtifactChunk) (l : SourceEvidenceInput)
    (r : ContentResolution) : Except CoreError DereferenceResult :=
  match r.status, r.content with
  | .available, some content => do
      let text ← decodeUtf8 content
      return { answer a c l .available r.currentArtifactHash none with
        bodyOrigin := r.bodyOrigin, body := some (chunkBody text c) }
  | status, _ => .ok (answer a c l status r.currentArtifactHash r.reason)

/-- `service_dereference_source_evidence`. -/
def serviceDereferenceSourceEvidence (rt : DocumentRuntime) (s : State) (l : SourceEvidenceInput)
    (now : Timestamp) : Except CoreError (State × DereferenceResult) := do
  l.validate
  let a ← resolveArtifactRevision s.store l
  let c ← resolveChunk s.store l a
  if l.expectedContentHash.any (fun h => h ≠ c.contentHash) then
    return (s, answer a c l .drifted none
      (some "expected_content_hash does not match registered chunk"))
  else
    let result ← cutBody a c l (resolveArtifactContent rt s a now).2
    return ((resolveArtifactContent rt s a now).1, result)

end Cruxible.SourceArtifacts
