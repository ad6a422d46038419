import Cruxible.QueryReceipts

/-!
# Snapshots and the state they record

`create_snapshot` loads the graph, then the config file, then the head, and only
then opens the transaction that lists the procedures, stores the snapshot and
moves the head. Called by `service_create_snapshot` the whole of it runs inside
one write transaction, which excludes every other writer of the database; called
on the instance itself only the last part does. The config is a file, which no
transaction protects. Procedures, configs and the digest are arbitrary; the lock
file, the label and the clone lineage are stored beside and play no part here.
Graph reads and caches are those of the query receipts.
-/
namespace Cruxible.Snapshots
open CommittedHistory Cruxible.Graph Runs
open QueryReceipts (Fetched put)

/-- The state of an instance: the tables of the database and the config file. -/
structure Committed (Procedures Config : Type) where
  graph : EntityGraph := {}
  procedures : Procedures
  config : Config
  headSnapshotId : Option String := none
  deriving DecidableEq

structure StateSnapshot (Procedures : Type) where
  snapshotId : String
  graph : EntityGraph
  procedures : Procedures
  configDigest : String
  parentSnapshotId : Option String
  persistLiveGraph : Bool
  deriving DecidableEq

/-- An instance as it is opened: its head names a row of the snapshot table. -/
structure Opened (Procedures Config : Type) where
  state : Committed Procedures Config
  snapshotIds : List String
  head_recorded : ∀ id, state.headSnapshotId = some id → id ∈ snapshotIds

/-- How far a call has read. `enclosed` when a write transaction is open around
it. -/
inductive Phase (Config : Type) where
  | idle
  | begun
  | graphLoaded (enclosed : Bool) (graph : Fetched EntityGraph)
  | configRead (enclosed : Bool) (graph : Fetched EntityGraph) (config : Fetched Config)
  | headRead (enclosed : Bool) (graph : Fetched EntityGraph) (config : Fetched Config)
      (head : Fetched (Option String))

structure World (Procedures Config : Type) where
  db : History (Committed Procedures Config)
  /-- The snapshot table as it was at the start. -/
  existing : List String := []
  /-- The snapshots stored since, in the order of their transactions. -/
  snapshots : List (StateSnapshot Procedures) := []
  /-- The process that holds the write lock over several steps. -/
  writer : Option Nat := none
  cache : Nat → Option (Fetched EntityGraph) := fun _ => none
  phase : Nat → Phase Config := fun _ => .idle

inductive Event (Procedures Config : Type) where
  /-- Any other write of the database; `keep` when the writer caches its graph. -/
  | write (process : Nat) (graph : EntityGraph) (procedures : Procedures) (keep : Bool)
  /-- A canonical apply, inside its own transaction from end to end. -/
  | commitGraphSnapshot (process : Nat) (graph : EntityGraph) (id : String)
  | saveConfig (config : Config)
  /-- A read of the process that leaves its graph in the cache. -/
  | readGraph (process : Nat)
  /-- `service_create_snapshot` opens the write boundary. -/
  | beginWrite (process : Nat)
  | loadGraph (process : Nat)
  | readConfig (process : Nat)
  | readHead (process : Nat)
  | persistSnapshot (process : Nat) (id : String)
  /-- The call raises, at any point. -/
  | fail (process : Nat)

section Machine
variable {Procedures Config : Type} (digest : Config → String)

def World.opened (o : Opened Procedures Config) : World Procedures Config where
  db := { initial := o.state }
  existing := o.snapshotIds

def World.loadGraph (w : World Procedures Config) (p : Nat) : Fetched EntityGraph :=
  match w.cache p with
  | some g => g
  | none => { value := w.db.current.graph, fetchedAt := w.db.revision }

/-- `snapshot_id` is the primary key of the snapshot table. -/
def World.idTaken (w : World Procedures Config) (id : String) : Bool :=
  w.existing.contains id || (w.snapshots.map StateSnapshot.snapshotId).contains id

/-- The transaction of `_write_snapshot`: the row is stored, the head moves. -/
def World.store (w : World Procedures Config) (s : StateSnapshot Procedures) :
    World Procedures Config :=
  { w with db := w.db.commit { w.db.current with graph := if s.persistLiveGraph then s.graph
                                                          else w.db.current.graph,
                                                 headSnapshotId := some s.snapshotId },
           snapshots := w.snapshots ++ [s] }

/-- The process is done with its call and holds no lock. -/
def World.release (w : World Procedures Config) (p : Nat) (kept : Option (Fetched EntityGraph)) :
    World Procedures Config :=
  { w with writer := if w.writer = some p then none else w.writer,
           cache := put w.cache p kept, phase := put w.phase p .idle }

/-- Whether the process can write the database now. -/
def World.mayWrite (w : World Procedures Config) (p : Nat) (enclosed : Bool) : Bool :=
  if enclosed then w.writer = some p else w.writer = none

/-- One read, one write or one transaction. An event that its process is not
ready for, or that must wait for the lock, is refused. -/
def step (w : World Procedures Config) :
    Event Procedures Config → Except Unit (World Procedures Config)
  | .write p graph procedures keep =>
      if w.writer = none then
        let db := w.db.commit { w.db.current with graph := graph, procedures := procedures }
        let kept := if keep then some { value := graph, fetchedAt := db.revision } else none
        .ok { w with db := db, cache := put w.cache p kept }
      else .error ()
  | .commitGraphSnapshot p graph id =>
      if w.writer = none ∧ w.idTaken id = false then
        let stored := w.store
          { snapshotId := id, graph := graph, procedures := w.db.current.procedures,
            configDigest := digest w.db.current.config,
            parentSnapshotId := w.db.current.headSnapshotId, persistLiveGraph := true }
        let kept := { value := graph, fetchedAt := stored.db.revision }
        .ok { stored with cache := put w.cache p (some kept) }
      else .error ()
  | .saveConfig config => .ok { w with db := w.db.commit { w.db.current with config := config } }
  | .readGraph p =>
      match w.phase p with
      | .idle => .ok { w with cache := put w.cache p (some (w.loadGraph p)) }
      | _ => .error ()
  | .beginWrite p =>
      match w.phase p with
      | .idle =>
          if w.writer = none then
            .ok { w with writer := some p, cache := put w.cache p none,
                         phase := put w.phase p .begun }
          else .error ()
      | _ => .error ()
  | .loadGraph p =>
      match w.phase p with
      | .idle => .ok { w with cache := put w.cache p (some (w.loadGraph p)),
                              phase := put w.phase p (.graphLoaded false (w.loadGraph p)) }
      | .begun => .ok { w with cache := put w.cache p (some (w.loadGraph p)),
                               phase := put w.phase p (.graphLoaded true (w.loadGraph p)) }
      | _ => .error ()
  | .readConfig p =>
      match w.phase p with
      | .graphLoaded enclosed g =>
          let c := { value := w.db.current.config, fetchedAt := w.db.revision }
          .ok { w with phase := put w.phase p (.configRead enclosed g c) }
      | _ => .error ()
  | .readHead p =>
      match w.phase p with
      | .configRead enclosed g c =>
          let h := { value := w.db.current.headSnapshotId, fetchedAt := w.db.revision }
          .ok { w with phase := put w.phase p (.headRead enclosed g c h) }
      | _ => .error ()
  | .persistSnapshot p id =>
      match w.phase p with
      | .headRead enclosed g c h =>
          if w.mayWrite p enclosed then
            if w.idTaken id then .ok (w.release p none)
            else
              let stored := w.store
                { snapshotId := id, graph := g.value, procedures := w.db.current.procedures,
                  configDigest := digest c.value, parentSnapshotId := h.value,
                  persistLiveGraph := false }
              .ok (stored.release p (if enclosed then some g else none))
          else .error ()
      | _ => .error ()
  | .fail p => .ok (w.release p none)

/-- The parts of the snapshot all stood in one state of the instance. -/
def OfOneState (db : History (Committed Procedures Config)) (s : StateSnapshot Procedures) : Prop :=
  ∃ state ∈ db.states, s.graph = state.graph ∧ s.procedures = state.procedures ∧
    s.configDigest = digest state.config ∧ s.parentSnapshotId = state.headSnapshotId

/-- Every snapshot has the one before it for its parent, and the head is the
last. -/
def Chained : Option String → List (StateSnapshot Procedures) → Option String → Prop
  | first, [], head => head = first
  | first, s :: rest, head => s.parentSnapshotId = first ∧ Chained (some s.snapshotId) rest head

/-- When a call that no transaction encloses comes to its own, the graph it has
loaded was the committed one as it read the config, and the procedures and the
head are still those of that moment. -/
def Undisturbed (w : World Procedures Config) : Event Procedures Config → Prop
  | .persistSnapshot p _ => ∀ g c h, w.phase p = .headRead false g c h →
      ∀ state, w.db.atRevision c.fetchedAt = some state →
        (∀ loaded, w.db.atRevision g.fetchedAt = some loaded → state.graph = loaded.graph) ∧
        state.procedures = w.db.current.procedures ∧
        state.headSnapshotId = w.db.current.headSnapshotId ∧
        ∀ read, w.db.atRevision h.fetchedAt = some read →
          read.headSnapshotId = w.db.current.headSnapshotId
  | _ => True

variable {digest}

variable {head : Option String} {s : StateSnapshot Procedures}
  {snapshots : List (StateSnapshot Procedures)} {p : Nat} {w w' : World Procedures Config}
  {g : Fetched EntityGraph}

theorem Chained.append {first : Option String} (h : Chained first snapshots head)
    (hs : s.parentSnapshotId = head) : Chained first (snapshots ++ [s]) (some s.snapshotId) := by
  induction snapshots generalizing first with
  | nil =>
    have hfirst : head = first := h
    exact ⟨hs.trans hfirst, rfl⟩
  | cons x rest ih => exact ⟨h.1, ih h.2⟩

theorem Chained.parents {first : Option String} (h : Chained first snapshots head) :
    snapshots.map StateSnapshot.parentSnapshotId ++ [head] =
      first :: snapshots.map (some ∘ StateSnapshot.snapshotId) := by
  induction snapshots generalizing first with
  | nil =>
    have hfirst : head = first := h
    simp [hfirst]
  | cons x rest ih =>
    have hrest := ih h.2
    simp [h.1, hrest]

theorem Chained.parents_nodup {first : Option String} (h : Chained first snapshots head)
    (hids : (snapshots.map StateSnapshot.snapshotId).Nodup)
    (hfirst : ∀ id, first = some id → id ∉ snapshots.map StateSnapshot.snapshotId) :
    (snapshots.map StateSnapshot.parentSnapshotId).Nodup := by
  have hall : (first :: snapshots.map (some ∘ StateSnapshot.snapshotId)).Nodup := by
    rw [← List.map_map, List.nodup_cons]
    constructor
    · intro hmem
      have ⟨id, hid, hsome⟩ := List.mem_map.mp hmem
      exact hfirst id hsome.symm hid
    · exact hids.map (Option.some_injective String)
  rw [← h.parents] at hall
  exact hall.of_append_left

/-- The database is the same; the config file may differ. -/
def SameTables (s t : Committed Procedures Config) : Prop :=
  s.graph = t.graph ∧ s.procedures = t.procedures ∧ s.headSnapshotId = t.headSnapshotId

/-- Every value stood in the database at the revision of its fetch. A call inside
a transaction holds the lock, and its reads still stand. -/
def PhaseSound (w : World Procedures Config) (p : Nat) : Phase Config → Prop
  | .idle => True
  | .begun => w.writer = some p ∧ w.cache p = none
  | .graphLoaded enclosed g => w.db.Observed Committed.graph g.fetchedAt g.value ∧
      (enclosed = true → w.writer = some p ∧ w.db.current.graph = g.value)
  | .configRead enclosed g c => w.db.Observed Committed.graph g.fetchedAt g.value ∧
      w.db.Observed Committed.config c.fetchedAt c.value ∧
      (enclosed = true → w.writer = some p ∧ w.db.current.graph = g.value ∧
        ∀ s, w.db.atRevision c.fetchedAt = some s → SameTables s w.db.current)
  | .headRead enclosed g c h => w.db.Observed Committed.graph g.fetchedAt g.value ∧
      w.db.Observed Committed.config c.fetchedAt c.value ∧
      w.db.Observed Committed.headSnapshotId h.fetchedAt h.value ∧
      (enclosed = true → w.writer = some p ∧ w.db.current.graph = g.value ∧
        w.db.current.headSnapshotId = h.value ∧
        ∀ s, w.db.atRevision c.fetchedAt = some s → SameTables s w.db.current)

structure Sound (digest : Config → String) (first : Option String)
    (w : World Procedures Config) : Prop where
  cache : ∀ p g, w.cache p = some g → w.db.Observed Committed.graph g.fetchedAt g.value
  phase : ∀ p, PhaseSound w p (w.phase p)
  ofOneState : ∀ s ∈ w.snapshots, s.persistLiveGraph = false → OfOneState digest w.db s
  chained : Chained first w.snapshots w.db.current.headSnapshotId
  ids : (w.snapshots.map StateSnapshot.snapshotId).Nodup
  fresh : ∀ id ∈ w.snapshots.map StateSnapshot.snapshotId, id ∉ w.existing
  head_recorded : ∀ id, first = some id → id ∈ w.existing

variable {first : Option String}

/-- The later world remembers every revision, and if the process holds the lock
its database stands still. -/
structure Follows (w w' : World Procedures Config) (p : Nat) : Prop where
  revisions : ∀ r s, w.db.atRevision r = some s → w'.db.atRevision r = some s
  locked : w.writer = some p →
    w'.writer = some p ∧ SameTables w.db.current w'.db.current ∧ w'.cache p = w.cache p

theorem Follows.observed {r : Nat} (h : Follows w w' p) {α : Type}
    {f : Committed Procedures Config → α} {v : α} (ho : w.db.Observed f r v) :
    w'.db.Observed f r v := by
  have ⟨s, hs, hv⟩ := ho
  exact ⟨s, h.revisions r s hs, hv⟩

theorem Follows.sameTables {r : Nat} (h : Follows w w' p) {α : Type}
    {f : Committed Procedures Config → α} {v : α} (ho : w.db.Observed f r v)
    (hw : w.writer = some p) (hs : ∀ s, w.db.atRevision r = some s → SameTables s w.db.current) :
    ∀ s, w'.db.atRevision r = some s → SameTables s w'.db.current := by
  intro s hr
  have ⟨t, ht, _⟩ := ho
  have hst : t = s := Option.some.inj ((h.revisions r t ht).symm.trans hr)
  have ⟨hg, hp, hh⟩ := hs t ht
  have ⟨hg', hp', hh'⟩ := (h.locked hw).2.1
  rw [← hst]
  exact ⟨hg.trans hg', hp.trans hp', hh.trans hh'⟩

variable {f : Phase Config} {c : Fetched Config} {enclosed : Bool}

/-- What a call rests on is not disturbed from outside. -/
theorem PhaseSound.follows (hf : PhaseSound w p f) (h : Follows w w' p) : PhaseSound w' p f := by
  cases f with
  | idle => trivial
  | begun =>
    have ⟨hw', _, hcache⟩ := h.locked hf.1
    exact ⟨hw', hcache.trans hf.2⟩
  | graphLoaded enclosed g =>
    refine ⟨h.observed hf.1, fun he => ?_⟩
    have ⟨hw, hg⟩ := hf.2 he
    have ⟨hw', hsame, _⟩ := h.locked hw
    exact ⟨hw', hsame.1.symm.trans hg⟩
  | configRead enclosed g c =>
    refine ⟨h.observed hf.1, h.observed hf.2.1, fun he => ?_⟩
    have ⟨hw, hg, hc⟩ := hf.2.2 he
    have ⟨hw', hsame, _⟩ := h.locked hw
    exact ⟨hw', hsame.1.symm.trans hg, h.sameTables hf.2.1 hw hc⟩
  | headRead enclosed g c head =>
    refine ⟨h.observed hf.1, h.observed hf.2.1, h.observed hf.2.2.1, fun he => ?_⟩
    have ⟨hw, hg, hh, hc⟩ := hf.2.2.2 he
    have ⟨hw', hsame, _⟩ := h.locked hw
    exact ⟨hw', hsame.1.symm.trans hg, hsame.2.2.symm.trans hh, h.sameTables hf.2.1 hw hc⟩

theorem ofOneState_commit {db : History (Committed Procedures Config)} (h : OfOneState digest db s)
    (next : Committed Procedures Config) : OfOneState digest (db.commit next) s := by
  have ⟨state, hmem, hparts⟩ := h
  refine ⟨state, ?_, hparts⟩
  have hall : (db.commit next).states = db.states ++ [next] := rfl
  rw [hall]
  exact List.mem_append_left _ hmem

theorem Sound.commit (h : Sound digest first w) {next : Committed Procedures Config}
    (hhead : next.headSnapshotId = w.db.current.headSnapshotId)
    (hlocked : ∀ p, w.writer = some p → SameTables w.db.current next) :
    Sound digest first { w with db := w.db.commit next } where
  cache := fun p g hg => (h.cache p g hg).commit next
  phase := by
    intro p
    refine (h.phase p).follows ⟨fun r s hs => w.db.atRevision_commit next hs, fun hw => ?_⟩
    refine ⟨hw, ?_, rfl⟩
    rw [History.current_commit]
    exact hlocked p hw
  ofOneState := fun s hs hlive => ofOneState_commit (h.ofOneState s hs hlive) next
  chained := by
    have hc := h.chained
    rw [← hhead] at hc
    rw [History.current_commit]
    exact hc
  ids := h.ids
  fresh := h.fresh
  head_recorded := h.head_recorded

variable {phase : Nat → Phase Config} {kept : Option (Fetched EntityGraph)}

/-- A process moves on: it may cache what it has observed, and it takes or gives
up no lock but its own. -/
theorem Sound.move (h : Sound digest first w) (p : Nat) {writer : Option Nat}
    {cache : Nat → Option (Fetched EntityGraph)}
    (hwriter : ∀ q, q ≠ p → w.writer = some q → writer = some q)
    (hothers : ∀ q, q ≠ p → cache q = w.cache q ∧ phase q = w.phase q)
    (hcache : ∀ g, cache p = some g → w.db.Observed Committed.graph g.fetchedAt g.value)
    (hphase : PhaseSound { w with writer := writer, cache := cache, phase := phase } p (phase p)) :
    Sound digest first { w with writer := writer, cache := cache, phase := phase } where
  cache := by
    intro q g hg
    by_cases hq : q = p
    · rw [hq] at hg
      exact hcache g hg
    · exact h.cache q g ((hothers q hq).1.symm.trans hg)
  phase := by
    intro q
    by_cases hq : q = p
    · rw [hq]
      exact hphase
    · have hf := h.phase q
      rw [← (hothers q hq).2] at hf
      refine hf.follows ⟨fun _ _ hs => hs, fun hw => ?_⟩
      exact ⟨hwriter q hq hw, ⟨rfl, rfl, rfl⟩, (hothers q hq).1⟩
  ofOneState := h.ofOneState
  chained := h.chained
  ids := h.ids
  fresh := h.fresh
  head_recorded := h.head_recorded

theorem Sound.store (h : Sound digest first w) (hw : w.writer = none)
    (hparent : s.parentSnapshotId = w.db.current.headSnapshotId)
    (hid : w.idTaken s.snapshotId = false)
    (hone : s.persistLiveGraph = false → OfOneState digest w.db s) :
    Sound digest first (w.store s) := by
  simp only [World.idTaken, Bool.or_eq_false_iff, List.contains_eq_mem, decide_eq_false_iff_not]
    at hid
  constructor
  case cache => exact fun p g hg => (h.cache p g hg).commit _
  case phase =>
    intro p
    refine (h.phase p).follows ⟨fun r s hs => w.db.atRevision_commit _ hs, fun hp => ?_⟩
    rw [hw] at hp
    cases hp
  case ofOneState =>
    intro x hx hlive
    rcases List.mem_append.mp hx with hx | hx
    · exact ofOneState_commit (h.ofOneState x hx hlive) _
    · rw [List.mem_singleton.mp hx] at hlive ⊢
      exact ofOneState_commit (hone hlive) _
  case chained =>
    simp only [World.store, History.current_commit]
    exact h.chained.append hparent
  case ids =>
    simp only [World.store, List.map_append, List.map_cons, List.map_nil]
    rw [List.nodup_append]
    refine ⟨h.ids, List.nodup_singleton _, ?_⟩
    intro a ha b hb hab
    rw [List.mem_singleton.mp hb] at hab
    rw [hab] at ha
    exact hid.2 ha
  case fresh =>
    intro id hmem
    simp only [World.store, List.map_append, List.map_cons, List.map_nil, List.mem_append,
      List.mem_singleton] at hmem
    rcases hmem with hmem | rfl
    · exact h.fresh id hmem
    · exact hid.1
  case head_recorded => exact h.head_recorded

theorem Sound.loadGraph (h : Sound digest first w) (p : Nat) :
    w.db.Observed Committed.graph (w.loadGraph p).fetchedAt (w.loadGraph p).value := by
  unfold World.loadGraph
  split
  · rename_i g hg
    exact h.cache p g hg
  · exact w.db.observed_now Committed.graph

theorem put_same {α : Type} (f : Nat → α) (p : Nat) (v : α) : put f p v p = v := by
  simp [put]

theorem put_other {α : Type} (f : Nat → α) {q : Nat} (v : α) (h : q ≠ p) : put f p v q = f q := by
  simp [put, h]

theorem Sound.release (h : Sound digest first w) (p : Nat)
    (hkept : ∀ g, kept = some g → w.db.Observed Committed.graph g.fetchedAt g.value) :
    Sound digest first (w.release p kept) := by
  apply h.move p
  · intro q hq hw
    rw [hw, if_neg (by simpa using hq)]
  · exact fun q hq => ⟨put_other _ _ hq, put_other _ _ hq⟩
  · rw [put_same]
    exact hkept
  · rw [put_same]
    trivial

/-- A process that holds no lock caches a graph that stands in the database. -/
theorem Sound.setCache (h : Sound digest first w) (hw : w.writer = none) (p : Nat)
    (hkept : ∀ g, kept = some g → w.db.Observed Committed.graph g.fetchedAt g.value) :
    Sound digest first { w with cache := put w.cache p kept } := by
  apply h.move p
  · exact fun q _ hq => hq
  · exact fun q hq => ⟨put_other _ _ hq, rfl⟩
  · rw [put_same]
    exact hkept
  · apply (h.phase p).follows
    refine ⟨fun _ _ hr => hr, fun hp => ?_⟩
    rw [hw] at hp
    cases hp

theorem Sound.setPhase (h : Sound digest first w) (p : Nat)
    (hf : PhaseSound { w with phase := put w.phase p f } p f) :
    Sound digest first { w with phase := put w.phase p f } := by
  apply h.move p
  · exact fun q _ hq => hq
  · exact fun q hq => ⟨rfl, put_other _ _ hq⟩
  · exact h.cache p
  · rw [put_same]
    exact hf

theorem parts_of_one_state (digest : Config → String) {id : String} {head : Fetched (Option String)}
    (hf : PhaseSound w p (.headRead enclosed g c head))
    (hphase : w.phase p = .headRead enclosed g c head) (hu : Undisturbed w (.persistSnapshot p id)) :
    head.value = w.db.current.headSnapshotId ∧
    OfOneState digest w.db
      { snapshotId := id, graph := g.value, procedures := w.db.current.procedures,
        configDigest := digest c.value, parentSnapshotId := head.value,
        persistLiveGraph := false } := by
  have ⟨⟨loaded, hloaded, hg⟩, ⟨state, hstate, hc⟩, ⟨read, hread, hh⟩, hlocked⟩ := hf
  have hmem : state ∈ w.db.states := List.mem_of_getElem? hstate
  cases enclosed with
  | true =>
    have ⟨_, hgraph, hhead, hsame⟩ := hlocked rfl
    have ⟨hg', hp', hh'⟩ := hsame state hstate
    exact ⟨hhead.symm, state, hmem, (hg'.trans hgraph).symm, hp'.symm, by rw [← hc],
      (hh'.trans hhead).symm⟩
  | false =>
    have ⟨hgraph, hprocedures, hhead, hreads⟩ := hu g c head hphase state hstate
    have hg' : g.value = state.graph := by rw [hgraph loaded hloaded, hg]
    have hh' : head.value = w.db.current.headSnapshotId := by rw [← hreads read hread, hh]
    exact ⟨hh', state, hmem, hg', hprocedures.symm, by rw [← hc], hh'.trans hhead.symm⟩

theorem sound_persist {id : String} {head : Fetched (Option String)} (hs : Sound digest first w)
    (hphase : w.phase p = .headRead enclosed g c head) (hu : Undisturbed w (.persistSnapshot p id))
    (hwrite : w.mayWrite p enclosed = true) (hid : w.idTaken id = false) :
    Sound digest first ((w.store
      { snapshotId := id, graph := g.value, procedures := w.db.current.procedures,
        configDigest := digest c.value, parentSnapshotId := head.value,
        persistLiveGraph := false }).release p (if enclosed then some g else none)) := by
  have hf : PhaseSound w p (.headRead enclosed g c head) := hphase ▸ hs.phase p
  have hparts := parts_of_one_state digest hf hphase hu
  have hreleased : Sound digest first (w.release p (if enclosed then some g else none)) := by
    apply hs.release p
    intro x hx
    split_ifs at hx
    rw [← Option.some.inj hx]
    exact hf.1
  have hfree : (w.release p (if enclosed then some g else none)).writer = none := by
    unfold World.mayWrite at hwrite
    unfold World.release
    split_ifs at hwrite with he
    · simp [of_decide_eq_true hwrite]
    · simp [of_decide_eq_true hwrite]
  exact hreleased.store hfree hparts.1 hid (fun _ => hparts.2)

theorem observed_committed (db : History (Committed Procedures Config))
    (next : Committed Procedures Config) (hg : g.value = next.graph)
    (hr : g.fetchedAt = (db.commit next).revision) :
    (db.commit next).Observed Committed.graph g.fetchedAt g.value := by
  have hnow := (db.commit next).observed_now Committed.graph
  rw [History.current_commit] at hnow
  rw [hg, hr]
  exact hnow

theorem sound_write (hs : Sound digest first w) (hw : w.writer = none) (p : Nat)
    (graph : EntityGraph) (procedures : Procedures) (keep : Bool) :
    let db := w.db.commit { w.db.current with graph := graph, procedures := procedures }
    let kept := if keep then some { value := graph, fetchedAt := db.revision } else none
    Sound digest first { w with db := db, cache := put w.cache p kept } := by
  intro db kept
  have hcommit : Sound digest first { w with db := db } := by
    refine hs.commit ?_ ?_
    · rfl
    · intro q hq
      rw [hw] at hq
      cases hq
  apply hcommit.setCache hw p
  intro g hg
  unfold kept at hg
  split_ifs at hg
  rw [← Option.some.inj hg]
  exact observed_committed w.db _ rfl rfl

theorem sound_commitGraphSnapshot (hs : Sound digest first w) (hw : w.writer = none) (p : Nat)
    (hparent : s.parentSnapshotId = w.db.current.headSnapshotId)
    (hid : w.idTaken s.snapshotId = false) (hlive : s.persistLiveGraph = true) :
    let kept := { value := s.graph, fetchedAt := (w.store s).db.revision }
    Sound digest first { w.store s with cache := put w.cache p (some kept) } := by
  intro kept
  have hstore : Sound digest first (w.store s) := by
    apply hs.store hw hparent hid
    intro hfalse
    rw [hlive] at hfalse
    cases hfalse
  apply hstore.setCache hw p
  intro g hg
  rw [← Option.some.inj hg]
  refine observed_committed w.db _ ?_ rfl
  simp [kept, hlive]

theorem sound_loadGraph (hs : Sound digest first w) (p : Nat)
    (hothers : ∀ q, q ≠ p → phase q = w.phase q) (hphase : PhaseSound
      { w with cache := put w.cache p (some (w.loadGraph p)), phase := phase } p (phase p)) :
    Sound digest first { w with cache := put w.cache p (some (w.loadGraph p)), phase := phase } := by
  apply hs.move p
  · exact fun q _ hq => hq
  · exact fun q hq => ⟨put_other _ _ hq, hothers q hq⟩
  · rw [put_same]
    intro g hg
    rw [← Option.some.inj hg]
    exact hs.loadGraph p
  · exact hphase

theorem sound_step {e : Event Procedures Config} (hs : Sound digest first w) (hu : Undisturbed w e)
    (hok : step digest w e = .ok w') : Sound digest first w' := by
  cases e with
  | write p graph procedures keep =>
    simp only [step] at hok
    split at hok
    · rename_i hw
      obtain rfl := Except.ok.inj hok
      exact sound_write hs hw p graph procedures keep
    · cases hok
  | commitGraphSnapshot p graph id =>
    simp only [step] at hok
    split at hok
    · rename_i hw
      obtain rfl := Except.ok.inj hok
      exact sound_commitGraphSnapshot hs hw.1 p rfl hw.2 rfl
    · cases hok
  | saveConfig config =>
    obtain rfl := Except.ok.inj hok
    exact hs.commit rfl (fun _ _ => ⟨rfl, rfl, rfl⟩)
  | readGraph p =>
    simp only [step] at hok
    split at hok
    · rename_i hphase
      obtain rfl := Except.ok.inj hok
      apply sound_loadGraph hs p (fun _ _ => rfl)
      rw [hphase]
      trivial
    · cases hok
  | beginWrite p =>
    simp only [step] at hok
    split at hok
    · split at hok
      · rename_i hw
        obtain rfl := Except.ok.inj hok
        apply hs.move p
        · intro q _ hq
          rw [hw] at hq
          cases hq
        · exact fun q hq => ⟨put_other _ _ hq, put_other _ _ hq⟩
        · rw [put_same]
          exact fun g hg => by cases hg
        · rw [put_same]
          exact ⟨rfl, put_same _ _ _⟩
      · cases hok
    · cases hok
  | loadGraph p =>
    simp only [step] at hok
    split at hok
    · obtain rfl := Except.ok.inj hok
      apply sound_loadGraph hs p (fun q hq => put_other _ _ hq)
      rw [put_same]
      exact ⟨hs.loadGraph p, fun he => by cases he⟩
    · rename_i hphase
      obtain rfl := Except.ok.inj hok
      have hbegun : PhaseSound w p .begun := hphase ▸ hs.phase p
      have hcurrent : w.db.current.graph = (w.loadGraph p).value := by
        simp [World.loadGraph, hbegun.2]
      apply sound_loadGraph hs p (fun q hq => put_other _ _ hq)
      rw [put_same]
      exact ⟨hs.loadGraph p, fun _ => ⟨hbegun.1, hcurrent⟩⟩
    · cases hok
  | readConfig p =>
    simp only [step] at hok
    split at hok
    · rename_i enclosed g hphase
      obtain rfl := Except.ok.inj hok
      have hf : PhaseSound w p (.graphLoaded enclosed g) := hphase ▸ hs.phase p
      refine hs.setPhase p ⟨hf.1, w.db.observed_now Committed.config, fun he => ?_⟩
      have ⟨hw, hgraph⟩ := hf.2 he
      refine ⟨hw, hgraph, fun s hr => ?_⟩
      have hnow : w.db.current = s :=
        Option.some.inj (w.db.atRevision_revision.symm.trans hr)
      rw [← hnow]
      exact ⟨rfl, rfl, rfl⟩
    · cases hok
  | readHead p =>
    simp only [step] at hok
    split at hok
    · rename_i enclosed g c hphase
      obtain rfl := Except.ok.inj hok
      have hf : PhaseSound w p (.configRead enclosed g c) := hphase ▸ hs.phase p
      refine hs.setPhase p ⟨hf.1, hf.2.1, w.db.observed_now Committed.headSnapshotId, ?_⟩
      intro he
      have ⟨hw, hgraph, hsame⟩ := hf.2.2 he
      exact ⟨hw, hgraph, rfl, hsame⟩
    · cases hok
  | persistSnapshot p id =>
    simp only [step] at hok
    split at hok
    · rename_i enclosed g c head hphase
      split at hok
      · rename_i hwrite
        split at hok
        · obtain rfl := Except.ok.inj hok
          exact hs.release p (fun g hg => by cases hg)
        · rename_i hid
          obtain rfl := Except.ok.inj hok
          exact sound_persist hs hphase hu hwrite (by simpa using hid)
      · cases hok
    · cases hok
  | fail p =>
    obtain rfl := Except.ok.inj hok
    exact hs.release p (fun g hg => by cases hg)

/-- Over every interleaving in which no standalone call is disturbed between its
reads and its transaction, the parts of every created snapshot stood in one
state, and all snapshots form one chain that ends in the head. Calls inside a
transaction are never disturbed. -/
theorem snapshots_are_consistent (digest : Config → String) (o : Opened Procedures Config)
    (run : List (Event Procedures Config))
    (h : Throughout (step digest) Undisturbed (World.opened o) run) :
    let w := after (step digest) (World.opened o) run
    (∀ s ∈ w.snapshots, s.persistLiveGraph = false → OfOneState digest w.db s) ∧
      Chained o.state.headSnapshotId w.snapshots w.db.current.headSnapshotId ∧
      (w.snapshots.map StateSnapshot.parentSnapshotId).Nodup := by
  intro w
  have hstart : Sound digest o.state.headSnapshotId (World.opened o) := by
    refine ⟨?_, fun _ => trivial, ?_, rfl, List.nodup_nil, ?_, o.head_recorded⟩
    · exact fun p g hg => by cases hg
    · exact fun s hs => by cases hs
    · exact fun id hid => by cases hid
  have hlast : Sound digest o.state.headSnapshotId w := after_invariant sound_step hstart h
  refine ⟨hlast.ofOneState, hlast.chained, hlast.chained.parents_nodup hlast.ids ?_⟩
  intro id hid hmem
  exact hlast.fresh id hmem (hlast.head_recorded id hid)

end Machine

/-- One service, one procedure, one config and no snapshot. -/
def freshInstance : Opened (List String) String where
  state := { graph := (QueryReceipts.withServices ["a"] none).graph, procedures := ["triage"],
             config := "v1" }
  snapshotIds := []
  head_recorded := fun _ h => by cases h

def sha256 (config : String) : String := "sha256:" ++ config

/-- Another process adds a service and a procedure in one transaction. -/
def otherWrite : Event (List String) String :=
  .write 2 (QueryReceipts.withServices ["a", "b"] none).graph ["triage", "deploy"] false

def finalWorld (run : List (Event (List String) String)) : World (List String) String :=
  after (step sha256) (World.opened freshInstance) run

/-- A standalone call, a write, and a call through the service during which the
config is saved. -/
def quietRun : List (Event (List String) String) :=
  [.loadGraph 0, .readConfig 0, .readHead 0, .persistSnapshot 0 "snap_a", otherWrite,
    .beginWrite 1, .loadGraph 1, .readConfig 1, .saveConfig "v2", otherWrite, .readHead 1,
    .persistSnapshot 1 "snap_b"]

theorem quiet_snapshots_are_consistent :
    (finalWorld quietRun).snapshots.map (fun s => (s.parentSnapshotId, s.configDigest)) =
      [(none, "sha256:v1"), (some "snap_a", "sha256:v1")] ∧
    (∀ s ∈ (finalWorld quietRun).snapshots, s.persistLiveGraph = false →
        OfOneState sha256 (finalWorld quietRun).db s) ∧
      Chained none (finalWorld quietRun).snapshots
        (finalWorld quietRun).db.current.headSnapshotId ∧
      ((finalWorld quietRun).snapshots.map StateSnapshot.parentSnapshotId).Nodup := by
  refine ⟨by decide +kernel, ?_⟩
  apply snapshots_are_consistent sha256 freshInstance quietRun
  refine ⟨fun _ _ => trivial, fun _ _ => trivial, fun _ _ => trivial, ?_, fun _ _ => trivial,
    fun _ _ => trivial, fun _ _ => trivial, fun _ _ => trivial, fun _ _ => trivial,
    fun _ _ => trivial, fun _ _ => trivial, ?_, trivial⟩
  · rintro t - g c h ⟨⟩ state hstate
    rw [← Option.some.inj hstate]
    exact ⟨fun _ hl => by rw [← Option.some.inj hl], rfl, rfl,
      fun _ hr => by rw [← Option.some.inj hr]; rfl⟩
  · rintro t - g c h ⟨⟩

/-- Two standalone calls read before a write and store after it. -/
def overtakenRun : List (Event (List String) String) :=
  [.loadGraph 0, .readConfig 0, .readHead 0, .loadGraph 1, .readConfig 1, .readHead 1, otherWrite,
    .persistSnapshot 0 "snap_a", .persistSnapshot 1 "snap_b"]

/-- The snapshots join the old graph with the new procedures, and both name the
same parent. -/
theorem overtaken_snapshots_fork :
    ¬ (∀ (digest : String → String) (o : Opened (List String) String)
        (run : List (Event (List String) String)),
        let w := after (step digest) (World.opened o) run
        (∀ s ∈ w.snapshots, s.persistLiveGraph = false → OfOneState digest w.db s) ∧
          Chained o.state.headSnapshotId w.snapshots w.db.current.headSnapshotId ∧
          (w.snapshots.map StateSnapshot.parentSnapshotId).Nodup) ∧
    (∀ s ∈ (finalWorld overtakenRun).snapshots, s.persistLiveGraph = false ∧
      ¬ OfOneState sha256 (finalWorld overtakenRun).db s) ∧
    (finalWorld overtakenRun).snapshots.map StateSnapshot.parentSnapshotId = [none, none] := by
  have hparents : (finalWorld overtakenRun).snapshots.map StateSnapshot.parentSnapshotId =
      [none, none] := by decide +kernel
  refine ⟨?_, ?_, hparents⟩
  · intro hall
    have hnodup := (hall sha256 freshInstance overtakenRun).2.2
    change ((finalWorld overtakenRun).snapshots.map _).Nodup at hnodup
    rw [hparents] at hnodup
    simp at hnodup
  · have htorn : ∀ s ∈ (finalWorld overtakenRun).snapshots, s.persistLiveGraph = false ∧
        ∀ state ∈ (finalWorld overtakenRun).db.states,
          s.graph = state.graph → s.procedures ≠ state.procedures := by decide +kernel
    intro s hs
    refine ⟨(htorn s hs).1, ?_⟩
    rintro ⟨state, hmem, hgraph, hprocedures, -⟩
    exact (htorn s hs).2 state hmem hgraph hprocedures

end Cruxible.Snapshots
