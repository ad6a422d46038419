import Cruxible.SourceArtifacts

/-!
# Pinned evidence returns what was cited

Over every history of registrations, file changes, changes of archived bytes and
dereferences, each stored revision stands for the content that was registered
under its id, and its chunk rows for the chunks cut from that content. A pinned
dereference that is answered with a body therefore returns the cited lines of
that content, and only a current revision ever receives a drift observation.
-/
namespace Cruxible.PinnedEvidence
open PythonDict AssertionState Cruxible.Graph PropertyValidation Fallible MarkdownChunks
  SourceArtifacts

inductive Event where
  | register (r : RegistrationRequest)
  | changeFile (path : String) (content : Option ByteArray)
  | changeArchive (contentHash : String) (content : Option ByteArray)
  | dereference (l : SourceEvidenceInput) (now : Timestamp)

def setOrErase (d : Dict String ByteArray) (k : String) : Option ByteArray → Dict String ByteArray
  | some content => d.set k content
  | none => d.erase k

def step (rt : DocumentRuntime) (s : State) : Event → State
  | .register r =>
      match serviceRegisterSourceArtifact rt s r with
      | .ok p => p.1
      | .error _ => s
  | .changeFile path content => { s with files := setOrErase s.files path content }
  | .changeArchive hash content =>
      { s with store := { s.store with archives := setOrErase s.store.archives hash content } }
  | .dereference l now =>
      match serviceDereferenceSourceEvidence rt s l now with
      | .ok p => p.1
      | .error _ => s

def run (rt : DocumentRuntime) (s : State) (events : List Event) : State :=
  events.foldl (step rt) s

/-- The bytes that an event brings into the history. -/
def Event.contents : Event → List ByteArray
  | .register { source := .content bytes, .. } => [bytes]
  | .changeFile _ (some bytes) => [bytes]
  | .changeArchive _ (some bytes) => [bytes]
  | _ => []

/-- A revision as it was registered. -/
structure Entry where
  revisionId : String
  sourceArtifactId : String
  content : ByteArray
  chunks : List SourceArtifactChunk

/-- The revision that an event inserts, if it inserts one. -/
def inserted (rt : DocumentRuntime) (s : State) : Event → List Entry
  | .register r =>
      match prepareRegistration rt s r, serviceRegisterSourceArtifact rt s r with
      | .ok (content, result), .ok _ =>
          if r.persist = false ∨ result.alreadyRegistered = true then []
          else [{ revisionId := result.record.artifactRevisionId,
                  sourceArtifactId := result.record.sourceArtifactId, content := content,
                  chunks := result.chunks }]
      | _, _ => []
  | _ => []

/-- All revisions that a history registers, oldest first. -/
def registrations (rt : DocumentRuntime) : State → List Event → List Entry
  | _, [] => []
  | s, e :: events => inserted rt s e ++ registrations rt (step rt s e) events

/-- The row of a registered revision. -/
structure Describes (rt : DocumentRuntime) (a : SourceArtifactRecord) (e : Entry) : Prop where
  revision : a.artifactRevisionId = e.revisionId
  artifact : a.sourceArtifactId = e.sourceArtifactId
  hash : a.contentHash = sha256Bytes rt e.content

/-- The chunks of an entry are cut from its content, under distinct ids. -/
structure Parsed (rt : DocumentRuntime) (e : Entry) : Prop where
  distinct : (e.chunks.map SourceArtifactChunk.chunkId).Nodup
  decoded : ∃ text, String.fromUTF8? e.content = some text ∧
    ∀ c ∈ e.chunks, c.contentHash = sha256Text rt (chunkBody text c)

/-- The store against the registrations so far and the bytes seen so far. -/
structure Backed (rt : DocumentRuntime) (s : State) (entries : List Entry)
    (seen : List ByteArray) : Prop where
  rows : List.Forall₂ (Describes rt) s.store.artifacts entries
  distinct : (s.store.artifacts.map SourceArtifactRecord.artifactRevisionId).Nodup
  parsed : ∀ e ∈ entries, Parsed rt e ∧ e.content ∈ seen
  chunkRows : ∀ p ∈ s.store.chunks, ∃ e ∈ entries, e.revisionId = p.1 ∧ p.2 ∈ e.chunks
  files : ∀ k b, s.files.get? k = some b → b ∈ seen
  archives : ∀ k b, s.store.archives.get? k = some b → b ∈ seen

namespace Backed
variable {rt : DocumentRuntime} {s : State} {entries : List Entry} {seen more : List ByteArray}

theorem empty : Backed rt {} [] [] where
  rows := List.Forall₂.nil
  distinct := List.nodup_nil
  parsed := by simp
  chunkRows := by simp
  files := by simp
  archives := by simp

theorem mono (h : Backed rt s entries seen) (hsub : seen ⊆ more) : Backed rt s entries more where
  rows := h.rows
  distinct := h.distinct
  parsed := fun e he => ⟨(h.parsed e he).1, hsub (h.parsed e he).2⟩
  chunkRows := h.chunkRows
  files := fun k b hb => hsub (h.files k b hb)
  archives := fun k b hb => hsub (h.archives k b hb)

theorem mapRows (h : Backed rt s entries seen) {f : SourceArtifactRecord → SourceArtifactRecord}
    (hf : ∀ a, (f a).artifactRevisionId = a.artifactRevisionId ∧
      (f a).sourceArtifactId = a.sourceArtifactId ∧ (f a).contentHash = a.contentHash) :
    List.Forall₂ (Describes rt) (s.store.artifacts.map f) entries ∧
      (s.store.artifacts.map f).map SourceArtifactRecord.artifactRevisionId =
        s.store.artifacts.map SourceArtifactRecord.artifactRevisionId := by
  constructor
  · rw [List.forall₂_map_left_iff]
    apply h.rows.imp
    intro a e hae
    obtain ⟨hrev, hart, hhash⟩ := hf a
    exact ⟨hrev.trans hae.revision, hart.trans hae.artifact, hhash.trans hae.hash⟩
  · rw [List.map_map]
    apply List.map_congr_left
    intro a _
    exact (hf a).1

variable {a : SourceArtifactRecord}

theorem entry (h : Backed rt s entries seen) (ha : a ∈ s.store.artifacts) :
    ∃ e ∈ entries, Describes rt a e := by
  obtain ⟨k, hk, rfl⟩ := List.getElem_of_mem ha
  have hlen := h.rows.length_eq
  refine ⟨entries[k], List.getElem_mem _, ?_⟩
  exact List.Forall₂.get h.rows hk (by omega)

theorem revisionIds (h : Backed rt s entries seen) :
    s.store.artifacts.map SourceArtifactRecord.artifactRevisionId =
      entries.map Entry.revisionId := by
  have hrows : ∀ {rows entries}, List.Forall₂ (Describes rt) rows entries →
      rows.map SourceArtifactRecord.artifactRevisionId = entries.map Entry.revisionId := by
    intro rows entries hrows
    induction hrows with
    | nil => rfl
    | cons hae _ ih => rw [List.map_cons, List.map_cons, hae.revision, ih]
  exact hrows h.rows

theorem entry_unique (h : Backed rt s entries seen) {e e' : Entry} (he : e ∈ entries)
    (he' : e' ∈ entries) (hid : e.revisionId = e'.revisionId) : e = e' := by
  have hnodup := h.distinct
  rw [h.revisionIds] at hnodup
  exact List.inj_on_of_nodup_map hnodup he he' hid

theorem row_unique (h : Backed rt s entries seen) {a' : SourceArtifactRecord}
    (ha : a ∈ s.store.artifacts) (ha' : a' ∈ s.store.artifacts)
    (hid : a.artifactRevisionId = a'.artifactRevisionId) : a = a' :=
  List.inj_on_of_nodup_map h.distinct ha ha' hid

end Backed

section Register
variable {rt : DocumentRuntime} {s : State}

theorem clearHead_eq (store : SourceArtifactStore) (head : Option String) (next : String)
    (now : Timestamp) :
    ∃ f : SourceArtifactRecord → SourceArtifactRecord,
      (∀ a, (f a).artifactRevisionId = a.artifactRevisionId ∧
        (f a).sourceArtifactId = a.sourceArtifactId ∧ (f a).contentHash = a.contentHash) ∧
      store.clearHead head next now = store.artifacts.map f := by
  cases head with
  | none => exact ⟨id, fun _ => ⟨rfl, rfl, rfl⟩, by simp [SourceArtifactStore.clearHead]⟩
  | some h =>
    refine ⟨SourceArtifactStore.supersede h next now, ?_, rfl⟩
    intro a
    unfold SourceArtifactStore.supersede
    split_ifs
    · exact ⟨rfl, rfl, rfl⟩
    · exact ⟨rfl, rfl, rfl⟩

/-- Everything that an accepted insertion does. -/
theorem saveArtifact_ok {store store' : SourceArtifactStore} {record : SourceArtifactRecord}
    {chunks : List SourceArtifactChunk} {archive : Option ByteArray} {now : Timestamp}
    (h : store.saveArtifact record chunks archive now = .ok store') :
    (∃ f : SourceArtifactRecord → SourceArtifactRecord,
      (∀ a, (f a).artifactRevisionId = a.artifactRevisionId ∧
        (f a).sourceArtifactId = a.sourceArtifactId ∧ (f a).contentHash = a.contentHash) ∧
      store'.artifacts = store.artifacts.map f ++ [record]) ∧
    record.artifactRevisionId ∉
      store.artifacts.map SourceArtifactRecord.artifactRevisionId ∧
    store'.chunks = store.chunks ++ chunks.map (record.artifactRevisionId, ·) ∧
    (chunks.map SourceArtifactChunk.chunkId).Nodup ∧
    ∀ k b, store'.archives.get? k = some b → store.archives.get? k = some b ∨ archive = some b := by
  unfold SourceArtifactStore.saveArtifact at h
  obtain ⟨⟨⟩, -, h⟩ := bind_eq_ok.mp h
  obtain ⟨⟨⟩, hfresh, h⟩ := bind_eq_ok.mp h
  obtain ⟨⟨⟩, hdistinct, h⟩ := bind_eq_ok.mp h
  rw [pure_eq_ok] at h
  rw [refuseIf_eq_ok] at hfresh hdistinct
  rw [not_not, List.map_append, List.nodup_append] at hdistinct
  obtain ⟨f, hf, hmap⟩ := clearHead_eq store
    ((store.getArtifact record.sourceArtifactId).map (·.artifactRevisionId))
    record.artifactRevisionId now
  rw [hmap] at h hfresh
  subst h
  refine ⟨⟨f, hf, rfl⟩, ?_, rfl, ?_, ?_⟩
  · intro hmem
    obtain ⟨a, ha, hid⟩ := List.mem_map.mp hmem
    exact hfresh ⟨f a, List.mem_map.mpr ⟨a, ha, rfl⟩, .inl ((hf a).1.trans hid)⟩
  · have hnew := hdistinct.2.1
    rw [List.map_map] at hnew
    have hids : (chunks.map SourceArtifactChunk.chunkId).map
        (fun c => (record.artifactRevisionId, c)) =
        chunks.map ((fun p : String × SourceArtifactChunk => (p.1, p.2.chunkId)) ∘
          (record.artifactRevisionId, ·)) := by
      rw [List.map_map]
      rfl
    rw [← hids] at hnew
    exact hnew.of_map _
  · intro k b hb
    simp only at hb
    split at hb
    · rename_i content hash
      rw [Dict.get?_set] at hb
      split_ifs at hb with hk
      · exact .inr hb
      · exact .inl hb
    · exact .inl hb

variable {content : ByteArray} {r : RegistrationRequest} {entries : List Entry}
  {seen : List ByteArray}

theorem prepareRegistration_ok {result : Registered}
    (h : prepareRegistration rt s r = .ok (content, result)) :
    registrationContent s.files r.source = .ok content ∧
    (∃ id text, String.fromUTF8? content = some text ∧
      parseMarkdownChunks rt id text r.parserVersion = .ok result.chunks) ∧
    (result.alreadyRegistered = true ∨
      result.record.contentHash = sha256Bytes rt content) := by
  unfold prepareRegistration at h
  obtain ⟨⟨⟩, -, h⟩ := bind_eq_ok.mp h
  obtain ⟨⟨⟩, -, h⟩ := bind_eq_ok.mp h
  obtain ⟨bytes, hbytes, h⟩ := bind_eq_ok.mp h
  obtain ⟨text, htext, h⟩ := bind_eq_ok.mp h
  obtain ⟨id, -, h⟩ := bind_eq_ok.mp h
  obtain ⟨chunks, hchunks, h⟩ := bind_eq_ok.mp h
  obtain ⟨⟨⟩, -, h⟩ := bind_eq_ok.mp h
  have hdecoded := decodeUtf8_ok htext
  simp only at h
  split at h
  · split_ifs at h
    · rw [pure_eq_ok, Prod.mk.injEq] at h
      obtain ⟨rfl, rfl⟩ := h
      exact ⟨hbytes, ⟨id, text, hdecoded, hchunks⟩, .inl rfl⟩
    · rw [pure_eq_ok, Prod.mk.injEq] at h
      obtain ⟨rfl, rfl⟩ := h
      exact ⟨hbytes, ⟨id, text, hdecoded, hchunks⟩, .inr rfl⟩
  · rw [pure_eq_ok, Prod.mk.injEq] at h
    obtain ⟨rfl, rfl⟩ := h
    exact ⟨hbytes, ⟨id, text, hdecoded, hchunks⟩, .inr rfl⟩

theorem content_seen (h : Backed rt s entries seen)
    (hcontent : registrationContent s.files r.source = .ok content) :
    content ∈ seen ++ (Event.register r).contents := by
  obtain ⟨source⟩ := r
  cases source with
  | content bytes =>
    obtain rfl : bytes = content := by simpa [registrationContent] using hcontent
    exact List.mem_append_right _ List.mem_cons_self
  | path p =>
    simp only [registrationContent] at hcontent
    split at hcontent
    · rename_i bytes hbytes
      rw [Except.ok.injEq] at hcontent
      subst hcontent
      exact List.mem_append_left _ (h.files p bytes hbytes)
    · cases hcontent

theorem Backed.register (h : Backed rt s entries seen) (r : RegistrationRequest) :
    Backed rt (step rt s (.register r)) (entries ++ inserted rt s (.register r))
      (seen ++ (Event.register r).contents) := by
  have hmono := h.mono (List.subset_append_left seen (Event.register r).contents)
  cases hreg : serviceRegisterSourceArtifact rt s r with
  | error e => simpa [step, inserted, hreg] using hmono
  | ok p =>
    have hservice := hreg
    unfold serviceRegisterSourceArtifact at hservice
    obtain ⟨⟨content, result⟩, hprep, hservice⟩ := bind_eq_ok.mp hservice
    simp only at hservice
    obtain ⟨hcontent, ⟨id, text, hdecoded, hparse⟩, hrecord⟩ := prepareRegistration_ok hprep
    by_cases hidle : r.persist = false ∨ result.alreadyRegistered = true
    · rw [if_pos hidle, pure_eq_ok] at hservice
      subst hservice
      simpa [step, inserted, hreg, hprep, hidle] using hmono
    · rw [if_neg hidle] at hservice
      obtain ⟨store, hsave, hservice⟩ := bind_eq_ok.mp hservice
      obtain rfl := pure_eq_ok.mp hservice
      simp only [step, inserted, hreg, hprep, hidle, if_false]
      obtain ⟨⟨f, hf, hrows⟩, hfresh, hchunks, hnodup, harchives⟩ := saveArtifact_ok hsave
      obtain ⟨hold, hids⟩ := h.mapRows hf
      have hseen := content_seen h hcontent
      have hhash : result.record.contentHash = sha256Bytes rt content := by
        rcases hrecord with halready | hhash
        · exact absurd (.inr halready) hidle
        · exact hhash
      constructor
      · rw [hrows]
        exact List.rel_append hold (List.Forall₂.cons ⟨rfl, rfl, hhash⟩ List.Forall₂.nil)
      · simp only [hrows, List.map_append, hids, List.map_cons, List.map_nil]
        rw [List.nodup_append]
        refine ⟨h.distinct, List.nodup_singleton _, ?_⟩
        intro a ha b hb hab
        rw [List.mem_singleton] at hb
        subst hb hab
        exact hfresh ha
      · intro e he
        rcases List.mem_append.mp he with he | he
        · exact hmono.parsed e he
        · rw [List.mem_singleton] at he
          subst he
          refine ⟨⟨hnodup, text, hdecoded, ?_⟩, hseen⟩
          intro c hc
          exact chunkBody_hash hparse hc
      · intro p hp
        simp only [hchunks, List.mem_append, List.mem_map] at hp
        rcases hp with hp | ⟨c, hc, rfl⟩
        · obtain ⟨e, he, hrest⟩ := h.chunkRows p hp
          exact ⟨e, List.mem_append_left _ he, hrest⟩
        · exact ⟨_, List.mem_append_right _ List.mem_cons_self, rfl, hc⟩
      · exact hmono.files
      · intro k b hb
        rcases harchives k b hb with hb | hb
        · exact hmono.archives k b hb
        · split_ifs at hb
          rw [Option.some.injEq] at hb
          exact hb ▸ hseen

end Register

section Dereference
variable {rt : DocumentRuntime} {s : State}

theorem observeDrift_columns (hash : Option String) (at_ : Option Timestamp)
    (a : SourceArtifactRecord) :
    (SourceArtifactStore.observeDrift hash at_ a).artifactRevisionId = a.artifactRevisionId ∧
      (SourceArtifactStore.observeDrift hash at_ a).sourceArtifactId = a.sourceArtifactId ∧
      (SourceArtifactStore.observeDrift hash at_ a).contentHash = a.contentHash := by
  unfold SourceArtifactStore.observeDrift
  split_ifs
  · exact ⟨rfl, rfl, rfl⟩
  · exact ⟨rfl, rfl, rfl⟩

/-- What fetching the bytes of a revision can do: nothing, or one observation on
a current revision; and available bytes hash to the manifest. -/
structure Fetched (rt : DocumentRuntime) (s : State) (a : SourceArtifactRecord)
    (p : State × ContentResolution) : Prop where
  state : p.1 = s ∨ a.supersededBy = none ∧
    ∃ hash at_, p.1 = s.withDrift a.artifactRevisionId hash at_
  bytes : p.2.status = .available → ∃ content, p.2.content = some content ∧
    sha256Bytes rt content = a.contentHash ∧
    ((∃ k, s.files.get? k = some content) ∨ ∃ k, s.store.archives.get? k = some content)

theorem fetched_local (a : SourceArtifactRecord) (now : Timestamp) (ha : a.supersededBy = none) :
    Fetched rt s a (resolveLocalContent rt s a now) := by
  unfold resolveLocalContent
  split
  · exact ⟨.inl rfl, fun h => by cases h⟩
  · split
    · exact ⟨.inl rfl, fun h => by cases h⟩
    · rename_i path _ _ content hcontent
      split_ifs with hhash
      · exact ⟨.inr ⟨ha, _, _, rfl⟩, fun h => by cases h⟩
      · exact ⟨.inr ⟨ha, _, _, rfl⟩,
          fun _ => ⟨content, rfl, not_not.mp hhash, .inl ⟨path, hcontent⟩⟩⟩

theorem fetched (a : SourceArtifactRecord) (now : Timestamp) :
    Fetched rt s a (resolveArtifactContent rt s a now) := by
  unfold resolveArtifactContent
  split
  · rename_i archived harchived
    obtain ⟨hash, -, hget⟩ := Option.bind_eq_some_iff.mp harchived
    split_ifs with hhash
    · exact ⟨.inl rfl, fun h => by cases h⟩
    · exact ⟨.inl rfl, fun _ => ⟨archived, rfl, not_not.mp hhash, .inr ⟨hash, hget⟩⟩⟩
  · split_ifs with hsuper
    · exact ⟨.inl rfl, fun h => by cases h⟩
    · exact fetched_local a now (not_not.mp hsuper)

variable {l : SourceEvidenceInput} {result : DereferenceResult} {c : SourceArtifactChunk}
  {now : Timestamp}

/-- The chunk that a pinned locator resolves to is a row of the pinned revision. -/
theorem chooseChunk_ok {chunks : List SourceArtifactChunk} {missing unmatched : String}
    (h : chooseChunk chunks l missing unmatched = .ok c) :
    c ∈ chunks ∧ (∀ id ∈ l.chunkId, c.chunkId = id) ∧
      (l.chunkId = none → some c.headingPath = l.headingPath ∧
        some c.blockSelector = l.blockSelector) := by
  unfold chooseChunk at h
  split at h
  · rename_i id hid
    split at h
    · rename_i found hfound
      rw [Except.ok.injEq] at h
      subst h
      have hsame : found.chunkId = id := by simpa using List.find?_some hfound
      refine ⟨List.mem_of_find?_eq_some hfound, ?_, ?_⟩
      · intro id' hid'
        rw [hid, Option.mem_some_iff] at hid'
        exact hsame.trans hid'
      · intro hnone
        rw [hid] at hnone
        cases hnone
    · cases h
  · rename_i hid
    split at h
    · cases h
    · rename_i found hfound
      rw [Except.ok.injEq] at h
      subst h
      have hmem : found ∈ chunks.filter (fun c => some c.headingPath = l.headingPath ∧
          some c.blockSelector = l.blockSelector) := by
        rw [hfound]
        exact List.mem_cons_self
      rw [List.mem_filter] at hmem
      refine ⟨hmem.1, ?_, fun _ => by simpa using hmem.2⟩
      intro id' hid'
      rw [hid] at hid'
      cases hid'
    · cases h

variable {a : SourceArtifactRecord}

theorem cutBody_ok {r : ContentResolution} (h : cutBody a c l r = .ok result)
    (hr : r.status = .available → r.content ≠ none) :
    result.chunkId = c.chunkId ∧ result.contentHash = c.contentHash ∧
      ((result.status = .available ∧ r.status = .available ∧ ∃ content text,
          r.content = some content ∧ String.fromUTF8? content = some text ∧
          result.body = some (chunkBody text c)) ∨
        result.status ≠ .available ∧ result.body = none) := by
  unfold cutBody at h
  split at h
  · rename_i content hstatus hcontent
    obtain ⟨text, htext, h⟩ := bind_eq_ok.mp h
    obtain rfl := pure_eq_ok.mp h
    exact ⟨rfl, rfl, .inl ⟨rfl, hstatus, content, text, hcontent, decodeUtf8_ok htext, rfl⟩⟩
  · rename_i hnot
    rw [Except.ok.injEq] at h
    subst h
    refine ⟨rfl, rfl, .inr ⟨?_, rfl⟩⟩
    intro hstatus
    cases hcontent : r.content with
    | none => exact hr hstatus hcontent
    | some content => exact hnot content hstatus hcontent

theorem resolveArtifactRevision_ok {store : SourceArtifactStore}
    (h : resolveArtifactRevision store l = .ok a) :
    a ∈ store.artifacts ∧ ∀ rid ∈ l.artifactRevisionId,
      a.artifactRevisionId = rid ∧ a.sourceArtifactId = l.sourceArtifactId := by
  unfold resolveArtifactRevision at h
  split at h
  · rename_i hnone
    split at h
    · rename_i found hfound
      rw [Except.ok.injEq] at h
      subst h
      refine ⟨List.mem_of_find?_eq_some hfound, ?_⟩
      intro rid hrid
      rw [hnone] at hrid
      cases hrid
    · cases h
  · rename_i rid hpin
    split at h
    · cases h
    · rename_i found hfound
      split_ifs at h with hother
      rw [Except.ok.injEq] at h
      subst h
      refine ⟨List.mem_of_find?_eq_some hfound, ?_⟩
      intro rid' hrid'
      rw [hpin, Option.mem_some_iff] at hrid'
      subst hrid'
      exact ⟨by simpa using List.find?_some hfound, not_not.mp hother⟩

theorem dereference_ok {s' : State}
    (h : serviceDereferenceSourceEvidence rt s l now = .ok (s', result)) :
    ∃ a c, resolveArtifactRevision s.store l = .ok a ∧ resolveChunk s.store l a = .ok c ∧
      ((s' = s ∧ result.chunkId = c.chunkId ∧ result.contentHash = c.contentHash ∧
          result.status ≠ .available ∧ result.body = none) ∨
        s' = (resolveArtifactContent rt s a now).1 ∧
          cutBody a c l (resolveArtifactContent rt s a now).2 = .ok result) := by
  unfold serviceDereferenceSourceEvidence at h
  obtain ⟨⟨⟩, -, h⟩ := bind_eq_ok.mp h
  obtain ⟨a, ha, h⟩ := bind_eq_ok.mp h
  obtain ⟨c, hc, h⟩ := bind_eq_ok.mp h
  refine ⟨a, c, ha, hc, ?_⟩
  split_ifs at h
  · rw [pure_eq_ok, Prod.mk.injEq] at h
    obtain ⟨rfl, rfl⟩ := h
    exact .inl ⟨rfl, rfl, rfl, by simp [answer], rfl⟩
  · obtain ⟨result', hcut, h⟩ := bind_eq_ok.mp h
    rw [pure_eq_ok, Prod.mk.injEq] at h
    obtain ⟨rfl, rfl⟩ := h
    exact .inr ⟨rfl, hcut⟩

theorem dereference_state {s' : State}
    (h : serviceDereferenceSourceEvidence rt s l now = .ok (s', result)) :
    s' = s ∨ ∃ a ∈ s.store.artifacts, a.supersededBy = none ∧
      ∃ hash at_, s' = s.withDrift a.artifactRevisionId hash at_ := by
  obtain ⟨a, c, ha, -, hcases⟩ := dereference_ok h
  rcases hcases with ⟨hsame, -⟩ | ⟨hstate, -⟩
  · exact .inl hsame
  · rcases (@fetched rt s a now).state with hsame | ⟨hcurrent, hash, at_, hdrift⟩
    · exact .inl (hstate.trans hsame)
    · exact .inr ⟨a, (resolveArtifactRevision_ok ha).1, hcurrent, hash, at_, hstate.trans hdrift⟩

theorem Backed.withDrift {entries : List Entry} {seen : List ByteArray}
    (h : Backed rt s entries seen) (revisionId : String) (hash : Option String)
    (at_ : Option Timestamp) : Backed rt (s.withDrift revisionId hash at_) entries seen := by
  have hf : ∀ a : SourceArtifactRecord,
      let b := if a.artifactRevisionId = revisionId
        then SourceArtifactStore.observeDrift hash at_ a else a
      b.artifactRevisionId = a.artifactRevisionId ∧ b.sourceArtifactId = a.sourceArtifactId ∧
        b.contentHash = a.contentHash := by
    intro a
    simp only
    split_ifs
    · exact observeDrift_columns hash at_ a
    · exact ⟨rfl, rfl, rfl⟩
  obtain ⟨hrows, hids⟩ := h.mapRows hf
  constructor
  · exact hrows
  · have hdistinct := h.distinct
    rw [← hids] at hdistinct
    exact hdistinct
  · exact h.parsed
  · exact h.chunkRows
  · exact h.files
  · exact h.archives

end Dereference

section Histories
variable {rt : DocumentRuntime} {s : State} {b : ByteArray} {entries : List Entry}
  {seen : List ByteArray}

theorem setOrErase_get? {d : Dict String ByteArray} {k q : String} {content : Option ByteArray}
    (h : (setOrErase d k content).get? q = some b) : d.get? q = some b ∨ content = some b := by
  cases content with
  | none =>
    rw [setOrErase, Dict.get?_erase] at h
    split_ifs at h
    exact .inl h
  | some c =>
    rw [setOrErase, Dict.get?_set] at h
    split_ifs at h
    · exact .inr h
    · exact .inl h

theorem Backed.step {entries : List Entry} {seen : List ByteArray}
    (h : Backed rt s entries seen) (e : Event) :
    Backed rt (PinnedEvidence.step rt s e) (entries ++ inserted rt s e) (seen ++ e.contents) := by
  cases e with
  | register r => exact h.register r
  | changeFile path content =>
    have hmono := h.mono (List.subset_append_left seen (Event.changeFile path content).contents)
    simp only [inserted, List.append_nil]
    refine { hmono with files := ?_ }
    intro k b hb
    rcases setOrErase_get? hb with hb | hb
    · exact hmono.files k b hb
    · subst hb
      exact List.mem_append_right _ List.mem_cons_self
  | changeArchive hash content =>
    have hmono :=
      h.mono (List.subset_append_left seen (Event.changeArchive hash content).contents)
    simp only [inserted, List.append_nil]
    refine { hmono with archives := ?_ }
    intro k b hb
    rcases setOrErase_get? hb with hb | hb
    · exact hmono.archives k b hb
    · subst hb
      exact List.mem_append_right _ List.mem_cons_self
  | dereference l now =>
    simp only [inserted, Event.contents, List.append_nil, PinnedEvidence.step]
    split
    · rename_i p hp
      rcases dereference_state hp with hsame | ⟨a, -, -, hash, at_, hdrift⟩
      · rw [hsame]
        exact h
      · rw [hdrift]
        exact h.withDrift _ hash at_
    · exact h

theorem Backed.run (h : Backed rt s entries seen) (events : List Event) :
    Backed rt (PinnedEvidence.run rt s events) (entries ++ registrations rt s events)
      (seen ++ events.flatMap Event.contents) := by
  induction events generalizing s entries seen with
  | nil => simpa [PinnedEvidence.run, registrations] using h
  | cons e events ih =>
    have hrest := ih (h.step e)
    rw [List.append_assoc, List.append_assoc] at hrest
    exact hrest

/-- No two of the contents have the same digest. -/
def CollisionFree (rt : DocumentRuntime) (contents : List ByteArray) : Prop :=
  ∀ a ∈ contents, ∀ b ∈ contents, rt.sha256 a = rt.sha256 b → a = b

/-- An answer to a locator pinned to revision `rid`: it is about the chunk that
was cut when the one registration of that revision was made, and if it has a
body, the body is that chunk's text and hashes to the recorded hash. -/
structure AnswersCitation (rt : DocumentRuntime) (entries : List Entry) (l : SourceEvidenceInput)
    (rid : String) (result : DereferenceResult) (e : Entry) (c : SourceArtifactChunk) : Prop where
  registered : e ∈ entries
  pinned : e.revisionId = rid ∧ e.sourceArtifactId = l.sourceArtifactId
  onlyRevision : ∀ e' ∈ entries, e'.revisionId = rid → e' = e
  recorded : c ∈ e.chunks
  located : (∀ id ∈ l.chunkId, c.chunkId = id) ∧
    (l.chunkId = none → some c.headingPath = l.headingPath ∧ some c.blockSelector = l.blockSelector)
  onlyChunk : ∀ c' ∈ e.chunks, c'.chunkId = c.chunkId → c' = c
  named : result.chunkId = c.chunkId ∧ result.contentHash = c.contentHash
  body : (result.status = .available ∧ ∃ text, String.fromUTF8? e.content = some text ∧
      result.body = some (chunkBody text c) ∧ sha256Text rt (chunkBody text c) = c.contentHash) ∨
    result.status ≠ .available ∧ result.body = none

theorem sha256Bytes_inj {a : ByteArray} (h : sha256Bytes rt a = sha256Bytes rt b) :
    rt.sha256 a = rt.sha256 b := by
  have hchars := congrArg String.toList h
  simp only [sha256Bytes, String.toList_append, List.append_cancel_left_eq] at hchars
  exact String.toList_injective hchars

theorem Backed.resolve (h : Backed rt s entries seen) {l : SourceEvidenceInput} {rid : String}
    (hpin : l.artifactRevisionId = some rid) {a : SourceArtifactRecord} {c : SourceArtifactChunk}
    (ha : resolveArtifactRevision s.store l = .ok a) (hc : resolveChunk s.store l a = .ok c) :
    ∃ e ∈ entries, Describes rt a e ∧ e.revisionId = rid ∧
      e.sourceArtifactId = l.sourceArtifactId ∧ c ∈ e.chunks ∧
      (∀ id ∈ l.chunkId, c.chunkId = id) ∧
      (l.chunkId = none → some c.headingPath = l.headingPath ∧
        some c.blockSelector = l.blockSelector) := by
  obtain ⟨hmem, hnames⟩ := resolveArtifactRevision_ok ha
  obtain ⟨hrid, hart⟩ := hnames rid (by rw [hpin]; exact rfl)
  obtain ⟨e, he, hdesc⟩ := h.entry hmem
  simp only [resolveChunk, hpin] at hc
  obtain ⟨hrow, hlocated⟩ := chooseChunk_ok hc
  simp only [SourceArtifactStore.listRevisionChunks, List.mem_insertionSort, List.mem_map,
    List.mem_filter, decide_eq_true_eq] at hrow
  obtain ⟨p, ⟨hp, hprev⟩, rfl⟩ := hrow
  obtain ⟨e', he', hid, hchunk⟩ := h.chunkRows p hp
  have hsame : e' = e :=
    h.entry_unique he' he (hid.trans (hprev.trans hdesc.revision))
  subst hsame
  exact ⟨e', he, hdesc, hdesc.revision.symm.trans hrid, hdesc.artifact.symm.trans hart, hchunk,
    hlocated⟩

/-- After any history, a dereference pinned to a revision answers for the cited
chunk of that revision: with its text, or with a status other than available and
no text. It leaves every superseded revision as it was. -/
theorem pinned_evidence_returns_what_was_cited (events : List Event)
    (hfree : CollisionFree rt (events.flatMap Event.contents)) {s' : State}
    {l : SourceEvidenceInput} {rid : String} (hpin : l.artifactRevisionId = some rid)
    {now : Timestamp} {result : DereferenceResult}
    (hok : serviceDereferenceSourceEvidence rt (run rt {} events) l now = .ok (s', result)) :
    (∃ e c, AnswersCitation rt (registrations rt {} events) l rid result e c) ∧
      List.Forall₂ (fun a a' => a' = a ∨ a.supersededBy = none)
        (run rt {} events).store.artifacts s'.store.artifacts := by
  have hbacked := (@Backed.empty rt).run events
  rw [List.nil_append, List.nil_append] at hbacked
  constructor
  · obtain ⟨a, c, ha, hc, hcases⟩ := dereference_ok hok
    obtain ⟨e, he, hdesc, hrid, hart, hchunk, hlocated⟩ := hbacked.resolve hpin ha hc
    obtain ⟨⟨hdistinct, text, hdecoded, hhashes⟩, hseen⟩ := hbacked.parsed e he
    have honly : ∀ e' ∈ registrations rt {} events, e'.revisionId = rid → e' = e :=
      fun e' he' hid => hbacked.entry_unique he' he (hid.trans hrid.symm)
    have honlyChunk : ∀ c' ∈ e.chunks, c'.chunkId = c.chunkId → c' = c :=
      fun c' hc' hid => List.inj_on_of_nodup_map hdistinct hc' hchunk hid
    rcases hcases with ⟨-, hid, hhash, hstatus, hbody⟩ | ⟨-, hcut⟩
    · exact ⟨e, c, he, ⟨hrid, hart⟩, honly, hchunk, hlocated, honlyChunk, ⟨hid, hhash⟩,
        .inr ⟨hstatus, hbody⟩⟩
    · have hfetched := @fetched rt (run rt {} events) a now
      have hbytes : ∀ {content}, (resolveArtifactContent rt (run rt {} events) a now).2.status =
            .available →
          (resolveArtifactContent rt (run rt {} events) a now).2.content = some content →
          content = e.content := by
        intro content hstatus hcontent
        obtain ⟨content', hcontent', hhash, hwhere⟩ := hfetched.bytes hstatus
        rw [hcontent, Option.some.injEq] at hcontent'
        subst hcontent'
        have hknown : content ∈ events.flatMap Event.contents := by
          rcases hwhere with ⟨k, hk⟩ | ⟨k, hk⟩
          · exact hbacked.files k content hk
          · exact hbacked.archives k content hk
        exact hfree content hknown e.content hseen
          (sha256Bytes_inj (hhash.trans hdesc.hash))
      obtain ⟨hid, hhash, hbody⟩ := cutBody_ok hcut (by
        intro hstatus hnone
        obtain ⟨content, hcontent, -⟩ := hfetched.bytes hstatus
        rw [hnone] at hcontent
        cases hcontent)
      refine ⟨e, c, he, ⟨hrid, hart⟩, honly, hchunk, hlocated, honlyChunk, ⟨hid, hhash⟩, ?_⟩
      rcases hbody with ⟨havailable, hstatus, content, text', hcontent, htext, hbody⟩ | hbody
      · have hsame := hbytes hstatus hcontent
        subst hsame
        rw [hdecoded, Option.some.injEq] at htext
        subst htext
        exact .inl ⟨havailable, text, hdecoded, hbody, (hhashes c hchunk).symm⟩
      · exact .inr hbody
  · rcases dereference_state hok with hsame | ⟨a, ha, hcurrent, hash, at_, hdrift⟩
    · rw [hsame]
      exact List.forall₂_same.mpr (fun x _ => .inl rfl)
    · rw [hdrift]
      simp only [State.withDrift, SourceArtifactStore.recordContentDrift]
      rw [List.forall₂_map_right_iff]
      apply List.forall₂_same.mpr
      intro x hx
      split_ifs with hid
      · rw [hbacked.row_unique hx ha hid]
        exact .inr hcurrent
      · exact .inl rfl

end Histories

def firstText : String := "alpha\nbeta\n"

def secondText : String := "alpha\ngamma\n"

/-- The SHA-256 digests of the texts at hand. -/
def digestTable : List (String × String) :=
  [(firstText, "e49c81e2d2f84e259d40e2fb8192f3bcd198b355184845d76d8f58807d0d78ee"),
   (secondText, "17cbbec0b19b84e7729ef8bba7e45944bfa331f56fa873b4e796d1730b8f953f"),
   ("alpha\nbeta", "bbfb79e82216bd2db1ad2c507d44ddf80aeb12f64f9562056afe93aad43154d9"),
   ("alpha\ngamma", "1897aaa62080313ab11db7b576ac8e9a5d9b1fa62018a1b4e2405f2726c7ba74"),
   (chunkIdentity "notes" markdownChunksV1 [] "paragraph:1",
    "d7805a5cd8397646450233305fc8fd90cd36451c8769ee615a6825739e40fa74")]

def paragraphTokens : List Token :=
  [{ type := "paragraph_open", tag := "p", map := some (0, 2) }, { type := "inline" },
   { type := "paragraph_close", tag := "p" }]

/-- Digests by table, and both texts parse as one paragraph. -/
def noteRuntime : DocumentRuntime where
  sha256 := fun bytes =>
    ((digestTable.find? (fun p => p.1.toUTF8.data = bytes.data)).map Prod.snd).getD ""
  parse := fun text => if text = firstText ∨ text = secondText then paragraphTokens else []
  parse_covers := by
    intro text t ht m hm
    split_ifs at ht
    · simp only [paragraphTokens, List.mem_cons, List.not_mem_nil, or_false] at ht
      rcases ht with rfl | rfl | rfl
      · simp only [Option.mem_some_iff] at hm
        subst hm
        decide
      · cases hm
      · cases hm
    · cases ht

/-- The note is archived under its first text, then edited and registered again. -/
def revisedNote : List Event :=
  [.changeFile "notes.md" (some firstText.toUTF8),
   .register { source := .path "notes.md", sourceRetention := .archive,
               sourceArtifactId := some "notes" },
   .changeFile "notes.md" (some secondText.toUTF8),
   .register { source := .path "notes.md", sourceArtifactId := some "notes" }]

/-- The paragraph of the first revision; the second has the same chunk id. -/
def firstParagraph : SourceEvidenceInput :=
  { sourceArtifactId := "notes", artifactRevisionId := some "notes@1",
    chunkId := some "mdchunk_d7805a5cd8397646" }

/-- Dereferencing the citation of the first revision returns its paragraph. -/
theorem pinned_paragraph_outlives_its_revision :
    ∃ s' result, serviceDereferenceSourceEvidence noteRuntime (run noteRuntime {} revisedNote)
        firstParagraph 9 = .ok (s', result) ∧
      (result.status, result.body) = (.available, some "alpha\nbeta") ∧
      ∃ e c, AnswersCitation noteRuntime (registrations noteRuntime {} revisedNote) firstParagraph
        "notes@1" result e c := by
  have hfree : CollisionFree noteRuntime (revisedNote.flatMap Event.contents) := by
    unfold CollisionFree
    decide +kernel
  have hvalue : (serviceDereferenceSourceEvidence noteRuntime (run noteRuntime {} revisedNote)
      firstParagraph 9).toOption.map (fun p => (p.2.status, p.2.body)) =
        some (.available, some "alpha\nbeta") := by
    decide +kernel
  cases hok : serviceDereferenceSourceEvidence noteRuntime (run noteRuntime {} revisedNote)
      firstParagraph 9 with
  | error e =>
      rw [hok] at hvalue
      cases hvalue
  | ok p =>
      rw [hok] at hvalue
      exact ⟨p.1, p.2, rfl, Option.some.inj hvalue,
        (pinned_evidence_returns_what_was_cited revisedNote hfree rfl hok).1⟩

end Cruxible.PinnedEvidence
