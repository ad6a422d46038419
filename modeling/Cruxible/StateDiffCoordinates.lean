import Cruxible.CommittedHistory
import Cruxible.FallibleLoops
import Cruxible.FreeWrites

/-!
# State-diff coordinates

The two coordinates of a state diff that are read from moving state. `current`
is captured between two reads of the revision, with one retry; `upstream` is
read from the materialized release after its members were hashed. Commits of
other processes, and rewrites of the release files, fall between any two reads:
a schedule says which, and is arbitrary.

Procedures, identity maps, file contents, the digests and the parser of graph
files are parameters.
-/
namespace Cruxible.StateDiffCoordinates
open CommittedHistory Cruxible.Graph PropertyValidation

/-- The tracked release, as far as coordinates read it. -/
structure UpstreamMetadata where
  stateId : String
  releaseId : String
  snapshotId : String
  ownedEntityTypes : List String := []
  ownedRelationshipTypes : List String := []
  graphDigest : Option String := none
  upstreamConfigDigest : Option String := none
  upstreamLockDigest : Option String := none
  identityMapDigest : Option String := none
  deriving DecidableEq, Repr

/-- `OwnershipBasis.pinned`. -/
structure OwnershipBasis where
  ownedEntityTypes : List String
  ownedRelationshipTypes : List String
  deriving DecidableEq, Repr

def ownershipOf : Option UpstreamMetadata → OwnershipBasis
  | some u => ⟨u.ownedEntityTypes, u.ownedRelationshipTypes⟩
  | none => ⟨[], []⟩

variable {Procedure IdentityMap Bytes : Type}

/-- What one commit fixes. -/
structure Committed (Procedure IdentityMap : Type) where
  graph : EntityGraph := {}
  procedures : List Procedure := []
  headSnapshotId : Option String := none
  upstream : Option UpstreamMetadata := none
  identityMap : IdentityMap

/-- The commits that land before each read of one attempt. -/
structure Sandwich (σ : Type) where
  beforeOpening : List σ := []
  beforeGraph : List σ := []
  beforeCount : List σ := []
  beforeList : List σ := []
  beforeClosing : List σ := []
  beforeHead : List σ := []

structure Schedule (σ : Type) where
  first : Sandwich σ := {}
  second : Sandwich σ := {}
  beforeIdentityMap : List σ := []

/-- The reads of one attempt. -/
structure Captured (Procedure : Type) where
  opening : Nat
  graph : EntityGraph
  procedures : Option (List Procedure)
  closing : Nat
  headSnapshotId : Option String

structure CurrentCoordinate (Procedure : Type) where
  headSnapshotId : Option String
  readRevision : Nat
  graph : EntityGraph
  procedures : Option (List Procedure)
  ownership : OwnershipBasis
  claimIdentityMapDigest : String

/-- One turn of the capture loop, with the history it leaves behind. The
procedure table is counted and then listed up to the count. -/
def attempt (wantsProcedures : Bool) (h : History (Committed Procedure IdentityMap))
    (a : Sandwich (Committed Procedure IdentityMap)) :
    History (Committed Procedure IdentityMap) × Captured Procedure :=
  let opened := h.commits a.beforeOpening
  let graphRead := opened.commits a.beforeGraph
  let counted := graphRead.commits a.beforeCount
  let listed := counted.commits a.beforeList
  let closed := listed.commits a.beforeClosing
  let headRead := closed.commits a.beforeHead
  let total := counted.current.procedures.length
  (headRead,
    { opening := opened.revision, graph := graphRead.current.graph,
      procedures := if wantsProcedures then some (listed.current.procedures.take (max total 1))
        else none,
      closing := closed.revision, headSnapshotId := headRead.current.headSnapshotId })

/-- `ConcurrentStateDriftError`. -/
def concurrentStateDrift (opening closing : Nat) : CoreError :=
  .config ("State changed while it was being read: revision " ++ toString opening ++
    " became " ++ toString closing)

/-- `_resolve_current`: `upstream` is the metadata that the process holds. -/
def resolveCurrent (digest : IdentityMap → String) (upstream : Option UpstreamMetadata)
    (wantsProcedures : Bool) (h : History (Committed Procedure IdentityMap))
    (s : Schedule (Committed Procedure IdentityMap)) :
    Except CoreError (History (Committed Procedure IdentityMap) × CurrentCoordinate Procedure) :=
  let one := attempt wantsProcedures h s.first
  let two := attempt wantsProcedures one.1 s.second
  let finish (r : History (Committed Procedure IdentityMap) × Captured Procedure) :=
    let last := r.1.commits s.beforeIdentityMap
    (last, { headSnapshotId := r.2.headSnapshotId, readRevision := r.2.opening,
             graph := r.2.graph, procedures := r.2.procedures, ownership := ownershipOf upstream,
             claimIdentityMapDigest := digest last.current.identityMap })
  if one.2.closing = one.2.opening then .ok (finish one)
  else if two.2.closing = two.2.opening then .ok (finish two)
  else .error (concurrentStateDrift two.2.opening two.2.closing)

/-- No commit lands between the opening and the closing read. -/
def Sandwich.undisturbed {σ : Type} (a : Sandwich σ) : Bool :=
  a.beforeGraph.isEmpty && a.beforeCount.isEmpty && a.beforeList.isEmpty &&
    a.beforeClosing.isEmpty

/-- The attempt that the coordinate is taken from. -/
def Schedule.used {σ : Type} (s : Schedule σ) : Option (Sandwich σ) :=
  if s.first.undisturbed then some s.first
  else if s.second.undisturbed then some s.second
  else none

/-- All parts of the coordinate belong to the state at its revision. -/
def OneState (digest : IdentityMap → String) (h : History (Committed Procedure IdentityMap))
    (c : CurrentCoordinate Procedure) : Prop :=
  ∃ s, h.atRevision c.readRevision = some s ∧ c.graph = s.graph ∧
    (∀ ps, c.procedures = some ps → ps = s.procedures) ∧
    c.headSnapshotId = s.headSnapshotId ∧ c.ownership = ownershipOf s.upstream ∧
    c.claimIdentityMapDigest = digest s.identityMap

section Current
variable {h : History (Committed Procedure IdentityMap)}
  {a : Sandwich (Committed Procedure IdentityMap)}

theorem attempt_closed (wants : Bool) :
    (attempt wants h a).2.closing = (attempt wants h a).2.opening ↔ a.undisturbed = true := by
  simp only [attempt, Sandwich.undisturbed, History.revision_commits, Bool.and_eq_true,
    List.isEmpty_iff, ← List.length_eq_zero_iff]
  omega

theorem attempt_spec (wants : Bool) (ha : a.undisturbed = true) :
    ∃ s, (h.commits a.beforeOpening).current = s ∧
      (attempt wants h a).1 = (h.commits a.beforeOpening).commits a.beforeHead ∧
      (attempt wants h a).2.opening = (h.commits a.beforeOpening).revision ∧
      (attempt wants h a).2.graph = s.graph ∧
      (∀ ps, (attempt wants h a).2.procedures = some ps → ps = s.procedures) ∧
      ((∀ x ∈ a.beforeHead, x.headSnapshotId = s.headSnapshotId) →
        (attempt wants h a).2.headSnapshotId = s.headSnapshotId) := by
  simp only [Sandwich.undisturbed, Bool.and_eq_true, List.isEmpty_iff] at ha
  obtain ⟨⟨⟨h₁, h₂⟩, h₃⟩, h₄⟩ := ha
  refine ⟨_, rfl, ?_, rfl, ?_, ?_, ?_⟩
  · simp only [attempt, h₁, h₂, h₃, h₄, History.commits_nil]
  · simp only [attempt, h₁, History.commits_nil]
  · intro ps hps
    simp only [attempt, h₁, h₂, h₃, History.commits_nil] at hps
    split_ifs at hps
    rw [← Option.some.inj hps]
    exact List.take_of_length_le (le_max_left _ _)
  · intro hhead
    simp only [attempt, h₁, h₂, h₃, h₄, History.commits_nil]
    exact History.current_commits Committed.headSnapshotId _ hhead

end Current

theorem resolveCurrent_spec (digest : IdentityMap → String) (upstream : Option UpstreamMetadata)
    (wants : Bool) (h : History (Committed Procedure IdentityMap))
    (s : Schedule (Committed Procedure IdentityMap)) :
    match s.used with
    | none => ∃ e, resolveCurrent digest upstream wants h s = .error e
    | some a => ∃ last c x, resolveCurrent digest upstream wants h s = .ok (last, c) ∧
        last.atRevision c.readRevision = some x ∧ c.graph = x.graph ∧
        (∀ ps, c.procedures = some ps → ps = x.procedures) ∧
        ((∀ y ∈ a.beforeHead, y.headSnapshotId = x.headSnapshotId) →
          c.headSnapshotId = x.headSnapshotId) ∧
        (upstream = x.upstream → c.ownership = ownershipOf x.upstream) ∧
        ((∀ y ∈ a.beforeHead ++ s.beforeIdentityMap, y.identityMap = x.identityMap) →
          c.claimIdentityMapDigest = digest x.identityMap) := by
  have hfinish : ∀ (k : History (Committed Procedure IdentityMap))
      (a : Sandwich (Committed Procedure IdentityMap)), a.undisturbed = true →
      ∃ x, ((attempt wants k a).1.commits s.beforeIdentityMap).atRevision
          (attempt wants k a).2.opening = some x ∧
        (attempt wants k a).2.graph = x.graph ∧
        (∀ ps, (attempt wants k a).2.procedures = some ps → ps = x.procedures) ∧
        ((∀ y ∈ a.beforeHead, y.headSnapshotId = x.headSnapshotId) →
          (attempt wants k a).2.headSnapshotId = x.headSnapshotId) ∧
        ((∀ y ∈ a.beforeHead ++ s.beforeIdentityMap, y.identityMap = x.identityMap) →
          digest ((attempt wants k a).1.commits s.beforeIdentityMap).current.identityMap =
            digest x.identityMap) := by
    intro k a ha
    obtain ⟨x, hx, hlast, hopen, hgraph, hprocs, hhead⟩ := attempt_spec (h := k) wants ha
    refine ⟨x, ?_, hgraph, hprocs, hhead, ?_⟩
    · rw [hlast, hopen, ← hx]
      exact History.atRevision_commits _ _ (History.atRevision_commits _ _
        (History.atRevision_revision _))
    · intro hmap
      rw [hlast]
      have hchain : ((k.commits a.beforeOpening).commits a.beforeHead).commits
          s.beforeIdentityMap =
          (k.commits a.beforeOpening).commits (a.beforeHead ++ s.beforeIdentityMap) := by
        simp [History.commits]
      rw [hchain, History.current_commits Committed.identityMap _ (by rw [hx]; exact hmap), hx]
  unfold Schedule.used resolveCurrent
  by_cases h₁ : s.first.undisturbed = true
  · obtain ⟨x, hx⟩ := hfinish h s.first h₁
    simp only [h₁, if_true, (attempt_closed wants).mpr h₁]
    exact ⟨_, _, x, rfl, hx.1, hx.2.1, hx.2.2.1, hx.2.2.2.1, fun hu => hu ▸ rfl, hx.2.2.2.2⟩
  · have hopen₁ : ¬(attempt wants h s.first).2.closing = (attempt wants h s.first).2.opening :=
      fun hc => h₁ ((attempt_closed wants).mp hc)
    simp only [h₁, Bool.false_eq_true, if_false, hopen₁]
    by_cases h₂ : s.second.undisturbed = true
    · obtain ⟨x, hx⟩ := hfinish (attempt wants h s.first).1 s.second h₂
      simp only [h₂, if_true, (attempt_closed wants).mpr h₂]
      exact ⟨_, _, x, rfl, hx.1, hx.2.1, hx.2.2.1, hx.2.2.2.1, fun hu => hu ▸ rfl, hx.2.2.2.2⟩
    · have hopen₂ : ¬(attempt wants (attempt wants h s.first).1 s.second).2.closing =
          (attempt wants (attempt wants h s.first).1 s.second).2.opening :=
        fun hc => h₂ ((attempt_closed wants).mp hc)
      simp only [h₂, Bool.false_eq_true, if_false, hopen₂]
      exact ⟨_, rfl⟩

inductive UpstreamMember where
  | graph
  | config
  | lock
  deriving DecidableEq, Repr

/-- File names of the reported members. -/
def UpstreamMember.text : UpstreamMember → String
  | .graph => "graph.json"
  | .config => "config.yaml"
  | .lock => "cruxible.lock.yaml"

/-- `_REPORTED_UPSTREAM_MEMBERS`, in order. -/
def reportedUpstreamMembers : List UpstreamMember := [.graph, .config, .lock]

def UpstreamMetadata.digestOf (u : UpstreamMetadata) : UpstreamMember → Option String
  | .graph => u.graphDigest
  | .config => u.upstreamConfigDigest
  | .lock => u.upstreamLockDigest

inductive MemberStatus where
  | verified
  | unpinnedLegacy
  deriving DecidableEq, Repr

inductive Verification where
  | verified
  | unverifiedLegacy
  deriving DecidableEq, Repr

/-- What each read of the release files and of the identity map returns. -/
structure UpstreamReads (Bytes IdentityMap : Type) where
  hashed : UpstreamMember → Option Bytes
  graphParsed : Option Bytes
  identityMap : IdentityMap

structure UpstreamCoordinate where
  releaseId : String
  members : List (UpstreamMember × MemberStatus)
  verification : Verification
  ownership : OwnershipBasis
  claimIdentityMapDigest : Option String
  graph : EntityGraph

/-- One member of `_verify_reported_upstream_members`: an unrecorded digest is
reported, a recorded one that does not match refuses. -/
def verifyMember (sha256 : Bytes → String) (u : UpstreamMetadata) (m : UpstreamMember)
    (content : Option Bytes) : Except CoreError (UpstreamMember × MemberStatus) :=
  match u.digestOf m with
  | none => .ok (m, .unpinnedLegacy)
  | some expected =>
      if content.map sha256 = some expected then .ok (m, .verified)
      else .error (.config ("Tracked upstream release " ++ u.stateId ++ ":" ++ u.releaseId ++
        " no longer matches its recorded '" ++ m.text ++ "' digest: expected " ++ expected))

/-- The second read of the graph file: `materialize` parses it, relabels clone
receipts and annotates claim ids from the identity map. -/
def readUpstreamGraph (materialize : Bytes → IdentityMap → Except String EntityGraph)
    (r : UpstreamReads Bytes IdentityMap) : Except CoreError EntityGraph :=
  match r.graphParsed with
  | none => .error (.config ("Materialized upstream 'graph.json' could not be read as node-link " ++
      "graph data"))
  | some bytes =>
      match materialize bytes r.identityMap with
      | .error e => .error (.config ("Materialized upstream 'graph.json' could not be read as " ++
          "node-link graph data: " ++ e))
      | .ok g => .ok g

/-- `_resolve_upstream`. -/
def resolveUpstream (sha256 : Bytes → String)
    (materialize : Bytes → IdentityMap → Except String EntityGraph)
    (upstream : Option UpstreamMetadata) (r : UpstreamReads Bytes IdentityMap) :
    Except CoreError UpstreamCoordinate :=
  match upstream with
  | none => .error (.config ("This instance is not a pullable overlay: it tracks no upstream " ++
      "state release, so there is no 'upstream' coordinate to diff against."))
  | some u => do
      let members ← reportedUpstreamMembers.mapM (fun m => verifyMember sha256 u m (r.hashed m))
      let graph ← readUpstreamGraph materialize r
      return { releaseId := u.releaseId, members := members,
               verification := if members.any (fun m => m.2 = .unpinnedLegacy) then
                 .unverifiedLegacy else .verified,
               ownership := ownershipOf (some u), claimIdentityMapDigest := u.identityMapDigest,
               graph := graph }

/-- The graph comes from bytes that have the recorded digest of the release. -/
def FromVerifiedBytes (sha256 : Bytes → String)
    (materialize : Bytes → IdentityMap → Except String EntityGraph) (u : UpstreamMetadata)
    (r : UpstreamReads Bytes IdentityMap) (c : UpstreamCoordinate) : Prop :=
  ∃ b, u.graphDigest = some (sha256 b) ∧ materialize b r.identityMap = .ok c.graph

theorem resolveUpstream_spec {sha256 : Bytes → String}
    {materialize : Bytes → IdentityMap → Except String EntityGraph}
    {upstream : Option UpstreamMetadata} {r : UpstreamReads Bytes IdentityMap}
    {c : UpstreamCoordinate} (hok : resolveUpstream sha256 materialize upstream r = .ok c) :
    ∃ u b, upstream = some u ∧ c.releaseId = u.releaseId ∧ r.graphParsed = some b ∧
      materialize b r.identityMap = .ok c.graph ∧
      match u.graphDigest with
      | none => c.verification = .unverifiedLegacy ∧
          (UpstreamMember.graph, MemberStatus.unpinnedLegacy) ∈ c.members
      | some expected => ∃ b', r.hashed .graph = some b' ∧ sha256 b' = expected := by
  cases upstream with
  | none => cases hok
  | some u =>
    obtain ⟨members, hmembers, hok⟩ := Fallible.bind_eq_ok.mp hok
    obtain ⟨g, hg, hok⟩ := Fallible.bind_eq_ok.mp hok
    obtain rfl := Fallible.pure_eq_ok.mp hok
    unfold readUpstreamGraph at hg
    split at hg
    · cases hg
    · rename_i b hb
      split at hg
      · cases hg
      · rename_i g' hg'
        obtain rfl := Except.ok.inj hg
        refine ⟨u, b, rfl, rfl, hb, hg', ?_⟩
        rw [reportedUpstreamMembers, List.mapM_cons, Fallible.bind_eq_ok] at hmembers
        obtain ⟨first, hfirst, hmembers⟩ := hmembers
        obtain ⟨rest, -, hmembers⟩ := Fallible.bind_eq_ok.mp hmembers
        obtain rfl := Fallible.pure_eq_ok.mp hmembers
        unfold verifyMember at hfirst
        simp only [UpstreamMetadata.digestOf] at hfirst
        cases hd : u.graphDigest with
        | none =>
          rw [hd] at hfirst
          obtain rfl := Except.ok.inj hfirst
          exact ⟨by simp, by simp⟩
        | some expected =>
          rw [hd] at hfirst
          simp only at hfirst
          split_ifs at hfirst with hmatch
          exact Option.map_eq_some_iff.mp hmatch

/-- Each digest that the release records is that of its file when it was hashed. -/
def MatchesRecorded (sha256 : Bytes → String) (u : UpstreamMetadata)
    (r : UpstreamReads Bytes IdentityMap) : Prop :=
  ∀ m expected, u.digestOf m = some expected → (r.hashed m).map sha256 = some expected

theorem verifyMember_isOk {sha256 : Bytes → String} {u : UpstreamMetadata} {m : UpstreamMember}
    {content : Option Bytes} : (∃ x, verifyMember sha256 u m content = .ok x) ↔
      ∀ expected, u.digestOf m = some expected → content.map sha256 = some expected := by
  unfold verifyMember
  cases u.digestOf m with
  | none => simp
  | some expected =>
    simp only [Option.some.injEq, forall_eq']
    split_ifs with hmatch
    · exact iff_of_true ⟨_, rfl⟩ hmatch
    · exact iff_of_false nofun hmatch

theorem readUpstreamGraph_isOk {materialize : Bytes → IdentityMap → Except String EntityGraph}
    {r : UpstreamReads Bytes IdentityMap} : (∃ g, readUpstreamGraph materialize r = .ok g) ↔
      ∃ b g, r.graphParsed = some b ∧ materialize b r.identityMap = .ok g := by
  unfold readUpstreamGraph
  cases r.graphParsed with
  | none => simp
  | some bytes =>
    simp only [Option.some.injEq, exists_and_left, exists_eq_left']
    cases materialize bytes r.identityMap with
    | error e => simp
    | ok g => simp

theorem resolveUpstream_isOk {sha256 : Bytes → String}
    {materialize : Bytes → IdentityMap → Except String EntityGraph}
    {upstream : Option UpstreamMetadata} {r : UpstreamReads Bytes IdentityMap} :
    (∃ c, resolveUpstream sha256 materialize upstream r = .ok c) ↔
      (∃ u, upstream = some u ∧ MatchesRecorded sha256 u r) ∧
        ∃ b g, r.graphParsed = some b ∧ materialize b r.identityMap = .ok g := by
  rw [← readUpstreamGraph_isOk]
  cases upstream with
  | none => simp [resolveUpstream]
  | some u =>
    simp only [Option.some.injEq, exists_eq_left']
    constructor
    case mp =>
      intro ⟨c, hok⟩
      obtain ⟨members, hmembers, hok⟩ := Fallible.bind_eq_ok.mp hok
      obtain ⟨g, hg, -⟩ := Fallible.bind_eq_ok.mp hok
      refine ⟨fun m => verifyMember_isOk.mp ?_, g, hg⟩
      obtain ⟨x, -, hx⟩ := Fallible.mapM_ok_each hmembers m (by cases m <;> decide)
      exact ⟨x, hx⟩
    case mpr =>
      intro ⟨hmatch, g, hg⟩
      have hall : ∀ m ∈ reportedUpstreamMembers, _ := fun m _ => verifyMember_isOk.mpr (hmatch m)
      obtain ⟨members, hmembers⟩ := Fallible.mapM_isOk hall
      exact ⟨_, Fallible.bind_eq_ok.mpr ⟨members, hmembers,
        Fallible.bind_eq_ok.mpr ⟨g, hg, rfl⟩⟩⟩

/-- When each of the two coordinates resolves, and what a resolved one satisfies, over every
schedule of the other processes' commits and file rewrites. -/
theorem coordinates_of_any_schedule (digest : IdentityMap → String) (sha256 : Bytes → String)
    (materialize : Bytes → IdentityMap → Except String EntityGraph)
    (upstream : Option UpstreamMetadata) (wants : Bool)
    (h : History (Committed Procedure IdentityMap))
    (s : Schedule (Committed Procedure IdentityMap)) (r : UpstreamReads Bytes IdentityMap) :
    ((∃ y, resolveCurrent digest upstream wants h s = .ok y) ↔ s.used.isSome = true) ∧
    (∀ last c, resolveCurrent digest upstream wants h s = .ok (last, c) →
      ∃ a x, s.used = some a ∧ last.atRevision c.readRevision = some x ∧ c.graph = x.graph ∧
        (∀ ps, c.procedures = some ps → ps = x.procedures) ∧
        ((∀ y ∈ a.beforeHead, y.headSnapshotId = x.headSnapshotId) → upstream = x.upstream →
          (∀ y ∈ a.beforeHead ++ s.beforeIdentityMap, y.identityMap = x.identityMap) →
          OneState digest last c)) ∧
    ((∃ c, resolveUpstream sha256 materialize upstream r = .ok c) ↔
      (∃ u, upstream = some u ∧ MatchesRecorded sha256 u r) ∧
        ∃ b g, r.graphParsed = some b ∧ materialize b r.identityMap = .ok g) ∧
    ∀ c, resolveUpstream sha256 materialize upstream r = .ok c →
      ∃ u, upstream = some u ∧ c.releaseId = u.releaseId ∧
        match u.graphDigest with
        | none => c.verification = .unverifiedLegacy ∧
            (UpstreamMember.graph, MemberStatus.unpinnedLegacy) ∈ c.members
        | some expected => (r.hashed .graph).map sha256 = some expected ∧
            (r.graphParsed = r.hashed .graph → FromVerifiedBytes sha256 materialize u r c) := by
  have hspec := resolveCurrent_spec digest upstream wants h s
  refine ⟨?_, ?_, resolveUpstream_isOk, ?_⟩
  · cases hu : s.used with
    | none =>
      rw [hu] at hspec
      obtain ⟨e, he⟩ := hspec
      simp [he]
    | some a =>
      rw [hu] at hspec
      obtain ⟨last, c, _, hok, _⟩ := hspec
      simp [hok]
  · intro last c hok
    cases hu : s.used with
    | none =>
      rw [hu] at hspec
      obtain ⟨e, he⟩ := hspec
      rw [hok] at he
      cases he
    | some a =>
      rw [hu] at hspec
      obtain ⟨last', c', x, hok', hx, hgraph, hprocs, hhead, hown, hmap⟩ := hspec
      obtain ⟨rfl, rfl⟩ := Prod.mk.inj (Except.ok.inj (hok.symm.trans hok'))
      refine ⟨a, x, rfl, hx, hgraph, hprocs, ?_⟩
      intro h₁ h₂ h₃
      exact ⟨x, hx, hgraph, hprocs, hhead h₁, hown h₂, hmap h₃⟩
  · intro c hok
    obtain ⟨u, b, hu, hid, hparsed, hgraph, hdigest⟩ := resolveUpstream_spec hok
    refine ⟨u, hu, hid, ?_⟩
    unfold FromVerifiedBytes
    cases hd : u.graphDigest with
    | none =>
      rw [hd] at hdigest
      exact hdigest
    | some expected =>
      rw [hd] at hdigest
      obtain ⟨b', hb', hsha⟩ := hdigest
      refine ⟨by rw [hb', Option.map_some, hsha], ?_⟩
      intro hsame
      rw [hparsed, hb'] at hsame
      obtain rfl := Option.some.inj hsame
      exact ⟨b, by rw [hsha], hgraph⟩

/-- States with text for procedures and identity maps. -/
def committed (head : Option String) : Committed String String :=
  { headSnapshotId := head, identityMap := "map" }

/-- The first attempt is disturbed by a snapshot, the second is not. -/
def disturbedOnce : Schedule (Committed String String) :=
  { first := { beforeClosing := [committed (some "snap_2")] } }

theorem retried_coordinate_is_one_state : ∃ last c,
    resolveCurrent id none true { initial := committed (some "snap_1") } disturbedOnce =
      .ok (last, c) ∧ c.readRevision = 1 ∧ c.headSnapshotId = some "snap_2" ∧
      OneState id last c := by
  refine ⟨_, _, rfl, rfl, rfl, ?_⟩
  obtain ⟨a, x, ha, hx, -, -, hone⟩ := (coordinates_of_any_schedule id (id : String → String)
    (fun _ _ => .ok {}) none true { initial := committed (some "snap_1") } disturbedOnce
    { hashed := fun _ => none, graphParsed := none, identityMap := "map" }).2.1 _ _ rfl
  obtain rfl : disturbedOnce.second = a := Option.some.inj ha
  have hstate : x = committed (some "snap_2") := Option.some.inj hx.symm
  apply hone
  · simp [disturbedOnce]
  · rw [hstate]
    rfl
  · simp [disturbedOnce]

/-- A snapshot of another process lands after the closing read and before the
head is read. -/
def lateSnapshot : Schedule (Committed String String) :=
  { first := { beforeHead := [committed (some "snap_2")] } }

def legacyRelease : UpstreamMetadata := { stateId := "kit", releaseId := "r1", snapshotId := "s1" }

/-- Any file content, with no graph in it. -/
def someReads : UpstreamReads String String :=
  { hashed := fun _ => some "edited", graphParsed := some "edited", identityMap := "map" }

/-- The head of a `current` coordinate can be that of a later state, and an
`upstream` coordinate resolves without a recorded digest. -/
theorem coordinates_mix_states :
    ¬ (∀ (h : History (Committed String String)) (s : Schedule (Committed String String)) last c,
        resolveCurrent id none true h s = .ok (last, c) → OneState id last c) ∧
    ¬ (∀ (u : UpstreamMetadata) (r : UpstreamReads String String) c,
        resolveUpstream id (fun _ _ => .ok {}) (some u) r = .ok c →
        FromVerifiedBytes id (fun _ _ => .ok {}) u r c) := by
  constructor
  · intro hall
    obtain ⟨x, hx, -, -, hhead, -⟩ := hall { initial := committed (some "snap_1") } lateSnapshot
      _ _ rfl
    have hstate : x = committed (some "snap_1") := Option.some.inj hx.symm
    rw [hstate] at hhead
    exact absurd hhead (by decide)
  · intro hall
    obtain ⟨b, hb, -⟩ := hall legacyRelease someReads _ rfl
    cases hb

end Cruxible.StateDiffCoordinates
