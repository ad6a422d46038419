import Cruxible.CommittedHistory
import Cruxible.FreeWrites
import Cruxible.Runs

/-!
# Query receipts and the state they name

A query evaluates on the graph that its process has at hand, which is the
cached one if there is one, and is then stamped with the head snapshot and the
read revision by two further reads. Commits of other processes fall anywhere in
between. The queries and their engine are arbitrary functions of the graph; the
read revision counts the commits that touch a table of the state. A graph is taken
as one read, though the store selects its nodes and its edges in two statements;
and a cache holds a committed graph, though after an overtaken write of its own a
process keeps the copy that it wrote from.
-/
namespace Cruxible.QueryReceipts
open CommittedHistory Cruxible.Graph Runs

/-- What a commit fixes, as far as receipts speak of it. -/
structure Committed where
  graph : EntityGraph := {}
  headSnapshotId : Option String := none
  deriving DecidableEq

structure QueryReceipt (Query Result : Type) where
  query : Query
  results : Result
  headSnapshotId : Option String
  readRevision : Nat

/-- A value together with the revision at which the database was read for it.
The program keeps the value only. -/
structure Fetched (α : Type) where
  value : α
  fetchedAt : Nat

/-- Where a query execution stands between two reads. -/
inductive Phase (Query Result : Type) where
  | idle
  | evaluated (query : Query) (graph : Fetched EntityGraph)
  | headRead (query : Query) (graph : Fetched EntityGraph) (head : Fetched (Option String))
  | stamped (receipt : QueryReceipt Query Result)

structure World (Query Result : Type) where
  db : History Committed
  /-- `_graph_cache` of every process. -/
  cache : Nat → Option (Fetched EntityGraph) := fun _ => none
  phase : Nat → Phase Query Result := fun _ => .idle
  receipts : List (QueryReceipt Query Result) := []

inductive Event (Query : Type) where
  /-- A state-mutating commit; `keep` when the writer caches the saved graph. -/
  | write (process : Nat) (next : Committed) (keep : Bool)
  /-- A write boundary that touches audit tables only. -/
  | audit (process : Nat)
  | loadGraph (process : Nat) (query : Query)
  | readHead (process : Nat)
  | readRevision (process : Nat)
  | saveReceipt (process : Nat)

section Machine
variable {Query Result : Type} (evaluate : Query → EntityGraph → Result)

def put {α : Type} (f : Nat → α) (p : Nat) (v : α) : Nat → α := fun q => if q = p then v else f q

/-- `load_graph` outside a transaction. -/
def loadGraph (w : World Query Result) (p : Nat) : Fetched EntityGraph :=
  match w.cache p with
  | some g => g
  | none => { value := w.db.current.graph, fetchedAt := w.db.revision }

/-- One read or commit. An event that its process is not ready for is refused. -/
def step (w : World Query Result) : Event Query → Except Unit (World Query Result)
  | .write p next keep =>
      let db := w.db.commit next
      let kept := if keep then some { value := next.graph, fetchedAt := db.revision } else none
      .ok { w with db := db, cache := put w.cache p kept }
  | .audit p => .ok { w with cache := put w.cache p none }
  | .loadGraph p q =>
      match w.phase p with
      | .idle =>
          let g := loadGraph w p
          .ok { w with cache := put w.cache p (some g), phase := put w.phase p (.evaluated q g) }
      | _ => .error ()
  | .readHead p =>
      match w.phase p with
      | .evaluated q g =>
          let head := { value := w.db.current.headSnapshotId, fetchedAt := w.db.revision }
          .ok { w with phase := put w.phase p (.headRead q g head) }
      | _ => .error ()
  | .readRevision p =>
      match w.phase p with
      | .headRead q g head =>
          .ok { w with phase := put w.phase p (.stamped
            { query := q, results := evaluate q g.value, headSnapshotId := head.value,
              readRevision := w.db.revision }) }
      | _ => .error ()
  | .saveReceipt p =>
      match w.phase p with
      | .stamped r => .ok { w with cache := put w.cache p none, phase := put w.phase p .idle,
                                   receipts := w.receipts ++ [r] }
      | _ => .error ()

/-- The receipt shows its query on the graph at its revision, under the head of
that revision. -/
def Describes (db : History Committed) (r : QueryReceipt Query Result) : Prop :=
  ∃ s, db.atRevision r.readRevision = some s ∧ r.results = evaluate r.query s.graph ∧
    r.headSnapshotId = s.headSnapshotId

/-- When the revision is read, the graph is committed as it was fetched, and the
head as it was read. -/
def NothingMoved (w : World Query Result) : Event Query → Prop
  | .readRevision p => ∀ q g head, w.phase p = .headRead q g head →
      (∀ s, w.db.atRevision g.fetchedAt = some s → w.db.current.graph = s.graph) ∧
      ∀ s, w.db.atRevision head.fetchedAt = some s →
        w.db.current.headSnapshotId = s.headSnapshotId
  | _ => True

/-- Every fetched value stood in the database at the revision of its fetch. -/
def PhaseSound (db : History Committed) : Phase Query Result → Prop
  | .idle => True
  | .evaluated _ g => db.Observed Committed.graph g.fetchedAt g.value
  | .headRead _ g head => db.Observed Committed.graph g.fetchedAt g.value ∧
      db.Observed Committed.headSnapshotId head.fetchedAt head.value
  | .stamped r => Describes evaluate db r

structure Sound (w : World Query Result) : Prop where
  cache : ∀ p g, w.cache p = some g → w.db.Observed Committed.graph g.fetchedAt g.value
  phase : ∀ p, PhaseSound evaluate w.db (w.phase p)
  receipts : ∀ r ∈ w.receipts, Describes evaluate w.db r

variable {evaluate}

variable {db : History Committed} {f : Phase Query Result}

theorem Describes.commit {r : QueryReceipt Query Result} (h : Describes evaluate db r)
    (s : Committed) : Describes evaluate (db.commit s) r := by
  obtain ⟨x, hx, hr⟩ := h
  exact ⟨x, db.atRevision_commit s hx, hr⟩

theorem PhaseSound.commit (h : PhaseSound evaluate db f) (s : Committed) :
    PhaseSound evaluate (db.commit s) f := by
  cases f with
  | idle => trivial
  | evaluated q g => exact History.Observed.commit h s
  | headRead q g head => exact ⟨h.1.commit s, h.2.commit s⟩
  | stamped r => exact Describes.commit h s

variable {w : World Query Result}

/-- A commit leaves everything that was fetched before it fetched. -/
theorem Sound.commit (h : Sound evaluate w) (s : Committed) :
    Sound evaluate { w with db := w.db.commit s } where
  cache := fun p g hg => (h.cache p g hg).commit s
  phase := fun p => (h.phase p).commit s
  receipts := fun r hr => (h.receipts r hr).commit s

theorem Sound.setCache (h : Sound evaluate w) (p : Nat) {kept : Option (Fetched EntityGraph)}
    (hk : ∀ g, kept = some g → w.db.Observed Committed.graph g.fetchedAt g.value) :
    Sound evaluate { w with cache := put w.cache p kept } where
  cache := by
    intro q g hg
    by_cases hq : q = p
    · exact hk g (by simpa [put, hq] using hg)
    · exact h.cache q g (by simpa [put, hq] using hg)
  phase := h.phase
  receipts := h.receipts

theorem Sound.setPhase (h : Sound evaluate w) (p : Nat) (hf : PhaseSound evaluate w.db f) :
    Sound evaluate { w with phase := put w.phase p f } where
  cache := h.cache
  phase := by
    intro q
    by_cases hq : q = p
    · simpa [put, hq] using hf
    · simpa [put, hq] using h.phase q
  receipts := h.receipts

theorem loadGraph_observed (h : Sound evaluate w) (p : Nat) :
    w.db.Observed Committed.graph (loadGraph w p).fetchedAt (loadGraph w p).value := by
  unfold loadGraph
  split
  · rename_i g hg
    exact h.cache p g hg
  · exact w.db.observed_now Committed.graph

theorem sound_step {w' : World Query Result} {e : Event Query} (hs : Sound evaluate w)
    (hm : NothingMoved w e) (hok : step evaluate w e = .ok w') : Sound evaluate w' := by
  cases e with
  | write p next keep =>
    obtain rfl := Except.ok.inj hok
    apply (hs.commit next).setCache p
    intro g hg
    split_ifs at hg
    obtain rfl := Option.some.inj hg
    have hnow := (w.db.commit next).observed_now Committed.graph
    rw [History.current_commit] at hnow
    exact hnow
  | audit p =>
    obtain rfl := Except.ok.inj hok
    exact hs.setCache p (fun g hg => by cases hg)
  | loadGraph p q =>
    simp only [step] at hok
    split at hok
    · obtain rfl := Except.ok.inj hok
      have hload := loadGraph_observed hs p
      apply (hs.setCache p _).setPhase p
      · exact hload
      · intro g hg
        rw [← Option.some.inj hg]
        exact hload
    · cases hok
  | readHead p =>
    simp only [step] at hok
    split at hok
    · rename_i q g hphase
      obtain rfl := Except.ok.inj hok
      have hg : PhaseSound evaluate w.db (w.phase p) := hs.phase p
      rw [hphase] at hg
      exact hs.setPhase p ⟨hg, w.db.observed_now Committed.headSnapshotId⟩
    · cases hok
  | readRevision p =>
    simp only [step] at hok
    split at hok
    · rename_i q g head hphase
      obtain rfl := Except.ok.inj hok
      have hboth : PhaseSound evaluate w.db (w.phase p) := hs.phase p
      rw [hphase] at hboth
      obtain ⟨⟨s, hs₁, hgraph⟩, s', hs₂, hhead⟩ := hboth
      obtain ⟨hsame, hsame'⟩ := hm q g head hphase
      apply hs.setPhase p
      refine ⟨w.db.current, w.db.atRevision_revision, ?_, ?_⟩
      · change evaluate q g.value = evaluate q w.db.current.graph
        rw [hsame s hs₁, hgraph]
      · change head.value = w.db.current.headSnapshotId
        rw [hsame' s' hs₂, hhead]
    · cases hok
  | saveReceipt p =>
    simp only [step] at hok
    split at hok
    · rename_i r hphase
      obtain rfl := Except.ok.inj hok
      have hr : PhaseSound evaluate w.db (w.phase p) := hs.phase p
      rw [hphase] at hr
      have hclear : Sound evaluate { w with cache := put w.cache p none } :=
        hs.setCache p (fun g hg => by cases hg)
      have hidle := hclear.setPhase p (f := .idle) trivial
      refine ⟨hidle.cache, hidle.phase, ?_⟩
      intro x hx
      rcases List.mem_append.mp hx with hx | hx
      · exact hs.receipts x hx
      · rw [List.mem_singleton.mp hx]
        exact hr
    · cases hok

/-- Over every interleaving in which nothing that a query read moves before its
revision is read, every stored receipt describes the state it names. -/
theorem receipts_describe_their_state (evaluate : Query → EntityGraph → Result)
    (initial : Committed) (run : List (Event Query))
    (h : Throughout (step evaluate) NothingMoved { db := { initial := initial } } run) :
    ∀ r ∈ (after (step evaluate) { db := { initial := initial } } run).receipts,
      Describes evaluate (after (step evaluate) { db := { initial := initial } } run).db r := by
  have hstart : Sound evaluate ({ db := { initial := initial } } : World Query Result) := by
    refine ⟨?_, fun _ => trivial, by simp⟩
    intro p g hg
    cases hg
  have hlast := after_invariant (I := Sound evaluate) sound_step hstart h
  exact hlast.receipts

end Machine

/-- A named query that lists the entities of one type. -/
def listEntities (entityType : String) (g : EntityGraph) : List String :=
  (g.nodes.entries.map Prod.snd).filterMap
    (fun d => if d.entityType = entityType then some d.entityId else none)

def withServices (ids : List String) (head : Option String) : Committed where
  graph := { nodes := PythonDict.Dict.ofList (ids.map (fun i => FreeWrites.service i none)) }
  headSnapshotId := head

/-- The stored receipts of a run over one service. -/
def receiptsAfter (run : List (Event String)) : List (List String × Option String × Nat) :=
  (after (step listEntities) { db := { initial := withServices ["a"] none } } run).receipts.map
    (fun r => (r.results, r.headSnapshotId, r.readRevision))

/-- A commit between two queries of one process, none inside a query. -/
def quietRun : List (Event String) :=
  [.loadGraph 0 "Service", .readHead 0, .readRevision 0, .saveReceipt 0,
    .write 1 (withServices ["a", "b"] (some "snap_1")) true,
    .loadGraph 0 "Service", .readHead 0, .readRevision 0, .saveReceipt 0]

theorem quiet_receipts_describe_their_state :
    receiptsAfter quietRun = [(["a"], none, 0), (["a", "b"], some "snap_1", 1)] ∧
    ∀ r ∈ (after (step listEntities) { db := { initial := withServices ["a"] none } }
        quietRun).receipts,
      Describes listEntities (after (step listEntities)
        { db := { initial := withServices ["a"] none } } quietRun).db r := by
  refine ⟨by decide +kernel, ?_⟩
  apply receipts_describe_their_state
  refine ⟨fun _ _ => trivial, fun _ _ => trivial, ?_, fun _ _ => trivial, fun _ _ => trivial,
    fun _ _ => trivial, fun _ _ => trivial, ?_, fun _ _ => trivial, trivial⟩
  · rintro t - q g head ⟨⟩
    exact ⟨fun s hs => by rw [← Option.some.inj hs]; rfl,
      fun s hs => by rw [← Option.some.inj hs]; rfl⟩
  · rintro t - q g head ⟨⟩
    exact ⟨fun s hs => by rw [← Option.some.inj hs]; rfl,
      fun s hs => by rw [← Option.some.inj hs]; rfl⟩

/-- The graph is read, another process commits, and the receipt is stamped with
the revision of that commit. -/
def overtakenRun : List (Event String) :=
  [.loadGraph 0 "Service", .write 1 (withServices ["a", "b"] (some "snap_1")) true, .readHead 0,
    .readRevision 0, .saveReceipt 0]

theorem overtaken_receipt_names_another_state :
    ¬ (∀ (evaluate : String → EntityGraph → List String) (initial : Committed)
        (run : List (Event String)),
        ∀ r ∈ (after (step evaluate) { db := { initial := initial } } run).receipts,
          Describes evaluate (after (step evaluate) { db := { initial := initial } } run).db r) ∧
    receiptsAfter overtakenRun = [(["a"], some "snap_1", 1)] := by
  have hreceipt : receiptsAfter overtakenRun = [(["a"], some "snap_1", 1)] := by decide +kernel
  refine ⟨?_, hreceipt⟩
  intro hall
  have hmem : ((["a"], some "snap_1", 1) : List String × Option String × Nat) ∈
      receiptsAfter overtakenRun := by
    rw [hreceipt]
    exact List.mem_singleton.mpr rfl
  obtain ⟨r, hr, hfields⟩ := List.mem_map.mp hmem
  simp only [Prod.mk.injEq] at hfields
  obtain ⟨s, hs, hresults, -⟩ := hall listEntities (withServices ["a"] none) overtakenRun r hr
  rw [hfields.2.2] at hs
  have hstate : s = withServices ["a", "b"] (some "snap_1") := by
    have hread : (after (step listEntities) { db := { initial := withServices ["a"] none } }
        overtakenRun).db.atRevision 1 = some (withServices ["a", "b"] (some "snap_1")) := by
      decide +kernel
    rw [hread] at hs
    exact (Option.some.inj hs).symm
  have hquery : r.query = "Service" := by
    have hqueries : ∀ x ∈ (after (step listEntities)
        { db := { initial := withServices ["a"] none } } overtakenRun).receipts,
        x.query = "Service" := by
      decide +kernel
    exact hqueries r hr
  rw [hfields.1, hquery, hstate] at hresults
  exact absurd hresults (by decide +kernel)

end Cruxible.QueryReceipts
