import Cruxible.EdgeMatching
import Mathlib.Algebra.Order.Group.Multiset
import Mathlib.Tactic.Abel

/-!
# Every edge row is placed once

The accounting of `diff_edges`: each row of a side is placed once, as unchanged, alone on
its side, changed, ambiguous or in conflict, and the counts are the sizes of these.
-/
namespace Cruxible.StateDiffs
open JsonValue PythonDict ComparisonStates
open GraphImages (IdentityKey)

structure PlacedChange where
  fromRow : EdgeRow
  toRow : EdgeRow
  identityBasis : IdentityBasis
  reidentified : Bool

structure PlacedGroup where
  identity : IdentityKey
  fromRows : List EdgeRow
  toRows : List EdgeRow

structure PlacedConflict where
  claimId : String
  kind : ConflictKind
  fromRows : List EdgeRow
  toRows : List EdgeRow

/-- The classes of a comparison. -/
structure Placement where
  unchangedFrom : List EdgeRow := []
  unchangedTo : List EdgeRow := []
  removed : List EdgeRow := []
  added : List EdgeRow := []
  changed : List PlacedChange := []
  ambiguous : List PlacedGroup := []
  conflicts : List PlacedConflict := []

namespace Placement

def append (p q : Placement) : Placement where
  unchangedFrom := p.unchangedFrom ++ q.unchangedFrom
  unchangedTo := p.unchangedTo ++ q.unchangedTo
  removed := p.removed ++ q.removed
  added := p.added ++ q.added
  changed := p.changed ++ q.changed
  ambiguous := p.ambiguous ++ q.ambiguous
  conflicts := p.conflicts ++ q.conflicts

/-- The rows of the from side that the classes hold. -/
def fromRows (p : Placement) : List EdgeRow :=
  p.unchangedFrom ++ p.removed ++ p.changed.map PlacedChange.fromRow ++
    p.ambiguous.flatMap PlacedGroup.fromRows ++ p.conflicts.flatMap PlacedConflict.fromRows

/-- The rows of the to side that the classes hold. -/
def toRows (p : Placement) : List EdgeRow :=
  p.unchangedTo ++ p.added ++ p.changed.map PlacedChange.toRow ++
    p.ambiguous.flatMap PlacedGroup.toRows ++ p.conflicts.flatMap PlacedConflict.toRows

theorem fromRows_append (p q : Placement) :
    (p.append q).fromRows.Perm (p.fromRows ++ q.fromRows) := by
  unfold append fromRows
  rw [← Multiset.coe_eq_coe]
  simp only [← Multiset.coe_add, List.map_append, List.flatMap_append]
  abel

theorem toRows_append (p q : Placement) : (p.append q).toRows.Perm (p.toRows ++ q.toRows) := by
  unfold append toRows
  rw [← Multiset.coe_eq_coe]
  simp only [← Multiset.coe_add, List.map_append, List.flatMap_append]
  abel

end Placement

def PlacedChange.item (c : PlacedChange) : EdgeChangedItem :=
  edgeChangedItem c.fromRow c.toRow c.identityBasis c.reidentified

def PlacedGroup.item (g : PlacedGroup) : AmbiguousItem where
  identity := g.identity
  countFrom := g.fromRows.length
  countTo := g.toRows.length
  fromItems := g.fromRows.map edgeSideSummary
  toItems := g.toRows.map edgeSideSummary

def PlacedConflict.item (c : PlacedConflict) : ConflictItem where
  claimId := c.claimId
  kind := c.kind
  countFrom := c.fromRows.length
  countTo := c.toRows.length
  fromItems := (contentOrdered c.fromRows).map edgePresentItem
  toItems := (contentOrdered c.toRows).map edgePresentItem

/-- The sizes of the classes. -/
def Placement.sizes (p : Placement) (fromTotal toTotal : Nat) : Counts where
  fromTotal := fromTotal
  toTotal := toTotal
  unchanged := p.unchangedFrom.length
  added := p.added.length
  removed := p.removed.length
  changed := p.changed.length
  annotationOnly := p.changed.countP fun c => c.item.body.annotationOnly
  ambiguousFrom := (p.ambiguous.flatMap PlacedGroup.fromRows).length
  ambiguousTo := (p.ambiguous.flatMap PlacedGroup.toRows).length
  identityConflictFrom := (p.conflicts.flatMap PlacedConflict.fromRows).length
  identityConflictTo := (p.conflicts.flatMap PlacedConflict.toRows).length

/-- A section reports a placement: its counts are the sizes of the classes, its items
are made of their members, and the unchanged rows of both sides have equal states. -/
structure Reports (result : EdgeSection) (p : Placement) : Prop where
  counts : result.counts = p.sizes result.counts.fromTotal result.counts.toTotal
  unchanged : (p.unchangedFrom.map fun r => (r.tupleKey, r.digest)).Perm
    (p.unchangedTo.map fun r => (r.tupleKey, r.digest))
  added : result.added.Perm (p.added.map edgePresentItem)
  removed : result.removed.Perm (p.removed.map edgePresentItem)
  changed : result.changed.Perm (p.changed.map PlacedChange.item)
  ambiguous : result.ambiguous.Perm (p.ambiguous.map PlacedGroup.item)
  conflicts : result.identityConflict.Perm (p.conflicts.map PlacedConflict.item)

/-- A section with the totals `n` and `m` places certain rows of either side. -/
def Accounts (n m : Nat) (result : EdgeSection) (fs ts : List EdgeRow) : Prop :=
  ∃ p, Reports result p ∧ (result.counts.fromTotal = n ∧ result.counts.toTotal = m) ∧
    p.fromRows.Perm fs ∧ p.toRows.Perm ts

theorem Placement.fromRows_length (p : Placement) (a b : Nat) :
    p.fromRows.length = (p.sizes a b).fromSum := by
  simp only [Placement.fromRows, Placement.sizes, Counts.fromSum, List.length_append,
    List.length_map]
  omega

theorem Placement.toRows_length (p : Placement) (a b : Nat)
    (h : p.unchangedFrom.length = p.unchangedTo.length) :
    p.toRows.length = (p.sizes a b).toSum := by
  simp only [Placement.toRows, Placement.sizes, Counts.toSum, List.length_append,
    List.length_map]
  omega

variable {fs ts rows : List EdgeRow} {result : EdgeSection} {m n : Nat}

theorem Accounts.partition (h : Accounts fs.length ts.length result fs ts) :
    result.counts.assertPartition = .ok () := by
  have ⟨p, hp, ⟨hf, ht⟩, hfrom, hto⟩ := h
  have hsame : p.unchangedFrom.length = p.unchangedTo.length := by
    have hlength := hp.unchanged.length_eq
    rwa [List.length_map, List.length_map] at hlength
  have hfsum : result.counts.fromSum = result.counts.fromTotal := by
    rw [hp.counts, ← p.fromRows_length, hfrom.length_eq, ← hf]
    rfl
  have htsum : result.counts.toSum = result.counts.toTotal := by
    rw [hp.counts, ← p.toRows_length _ _ hsame, hto.length_eq, ← ht]
    rfl
  unfold Counts.assertPartition
  rw [if_neg]
  intro hneq
  rcases hneq with hneq | hneq
  · exact hneq hfsum
  · exact hneq htsum

theorem Accounts.perm {fs' ts' : List EdgeRow} (h : Accounts n m result fs ts) (hf : fs.Perm fs')
    (ht : ts.Perm ts') : Accounts n m result fs' ts' := by
  have ⟨p, hp, htotals, hfrom, hto⟩ := h
  exact ⟨p, hp, htotals, hfrom.trans hf, hto.trans ht⟩

def Counts.add (c d : Counts) : Counts where
  fromTotal := c.fromTotal + d.fromTotal
  toTotal := c.toTotal + d.toTotal
  unchanged := c.unchanged + d.unchanged
  added := c.added + d.added
  removed := c.removed + d.removed
  changed := c.changed + d.changed
  annotationOnly := c.annotationOnly + d.annotationOnly
  ambiguousFrom := c.ambiguousFrom + d.ambiguousFrom
  ambiguousTo := c.ambiguousTo + d.ambiguousTo
  identityConflictFrom := c.identityConflictFrom + d.identityConflictFrom
  identityConflictTo := c.identityConflictTo + d.identityConflictTo
  excludedFrom := c.excludedFrom + d.excludedFrom
  excludedTo := c.excludedTo + d.excludedTo

theorem Placement.sizes_append (p q : Placement) (a b : Nat) :
    (p.append q).sizes a b = (p.sizes a b).add (q.sizes 0 0) := by
  unfold Placement.append Placement.sizes Counts.add
  simp only [List.length_append, List.countP_append, List.flatMap_append, Nat.add_zero]

/-- A step that places `q`. -/
structure Places (result result' : EdgeSection) (q : Placement) : Prop where
  counts : result'.counts = result.counts.add (q.sizes 0 0)
  unchanged : (q.unchangedFrom.map fun r => (r.tupleKey, r.digest)).Perm
    (q.unchangedTo.map fun r => (r.tupleKey, r.digest))
  added : result'.added = result.added ++ q.added.map edgePresentItem
  removed : result'.removed = result.removed ++ q.removed.map edgePresentItem
  changed : result'.changed = result.changed ++ q.changed.map PlacedChange.item
  ambiguous : result'.ambiguous = result.ambiguous ++ q.ambiguous.map PlacedGroup.item
  conflicts : result'.identityConflict =
    result.identityConflict ++ q.conflicts.map PlacedConflict.item

variable {q : Placement} {result' : EdgeSection} {gs us : List EdgeRow} {k : IdentityKey}
  {toSide : GraphDiffSide}

theorem Places.totals (h : Places result result' q) :
    result'.counts.fromTotal = result.counts.fromTotal ∧
      result'.counts.toTotal = result.counts.toTotal := by
  rw [h.counts]
  exact ⟨rfl, rfl⟩

theorem Reports.step {result result' : EdgeSection} {p q : Placement} (h : Reports result p)
    (hstep : Places result result' q) : Reports result' (p.append q) where
  counts := by
    rw [hstep.totals.1, hstep.totals.2, p.sizes_append, hstep.counts, ← h.counts]
  unchanged := by
    unfold Placement.append
    rw [List.map_append, List.map_append]
    exact h.unchanged.append hstep.unchanged
  added := by
    rw [hstep.added]
    unfold Placement.append
    rw [List.map_append]
    exact h.added.append_right _
  removed := by
    rw [hstep.removed]
    unfold Placement.append
    rw [List.map_append]
    exact h.removed.append_right _
  changed := by
    rw [hstep.changed]
    unfold Placement.append
    rw [List.map_append]
    exact h.changed.append_right _
  ambiguous := by
    rw [hstep.ambiguous]
    unfold Placement.append
    rw [List.map_append]
    exact h.ambiguous.append_right _
  conflicts := by
    rw [hstep.conflicts]
    unfold Placement.append
    rw [List.map_append]
    exact h.conflicts.append_right _

theorem Accounts.step {n m : Nat} {result result' : EdgeSection} {fs ts : List EdgeRow}
    {q : Placement} (h : Accounts n m result fs ts) (hstep : Places result result' q) :
    Accounts n m result' (fs ++ q.fromRows) (ts ++ q.toRows) := by
  have ⟨p, hp, ⟨hn, hm⟩, hfrom, hto⟩ := h
  exact ⟨p.append q, hp.step hstep, ⟨hstep.totals.1.trans hn, hstep.totals.2.trans hm⟩,
    (p.fromRows_append q).trans (hfrom.append_right _),
    (p.toRows_append q).trans (hto.append_right _)⟩

theorem Places.trans {result'' : EdgeSection} {q' : Placement} (h : Places result result' q)
    (h' : Places result' result'' q') : Places result result'' (q.append q') := by
  constructor
  case counts =>
    rw [h'.counts, h.counts, q.sizes_append]
    simp only [Counts.add, Nat.add_assoc]
  case unchanged =>
    unfold Placement.append
    rw [List.map_append, List.map_append]
    exact h.unchanged.append h'.unchanged
  case added => rw [h'.added, h.added, Placement.append, List.map_append, List.append_assoc]
  case removed => rw [h'.removed, h.removed, Placement.append, List.map_append, List.append_assoc]
  case changed => rw [h'.changed, h.changed, Placement.append, List.map_append, List.append_assoc]
  case ambiguous =>
    rw [h'.ambiguous, h.ambiguous, Placement.append, List.map_append, List.append_assoc]
  case conflicts =>
    rw [h'.conflicts, h.conflicts, Placement.append, List.map_append, List.append_assoc]

theorem appendConflict_places (result : EdgeSection) (c : String) (kind : ConflictKind)
    (fs ts : List EdgeRow) : Places result (appendConflict result c kind fs ts)
      { conflicts := [⟨c, kind, fs, ts⟩] } := by
  constructor
  case counts => simp [appendConflict, Counts.add, Placement.sizes]
  case unchanged => exact List.Perm.refl _
  case added => simp [appendConflict]
  case removed => simp [appendConflict]
  case changed => simp [appendConflict]
  case ambiguous => simp [appendConflict]
  case conflicts => rfl

theorem appendAmbiguous_places (result : EdgeSection) (k : IdentityKey) (fs ts : List EdgeRow) :
    Places result (appendAmbiguous result k fs ts) { ambiguous := [⟨k, fs, ts⟩] } := by
  constructor
  case counts => simp [appendAmbiguous, Counts.add, Placement.sizes]
  case unchanged => exact List.Perm.refl _
  case added => simp [appendAmbiguous]
  case removed => simp [appendAmbiguous]
  case changed => simp [appendAmbiguous]
  case ambiguous => rfl
  case conflicts => simp [appendAmbiguous]

theorem appendChangedEdge_places (result : EdgeSection) (r s : EdgeRow) (basis : IdentityBasis)
    (reidentified : Bool) : Places result (appendChangedEdge result r s basis reidentified)
      { changed := [⟨r, s, basis, reidentified⟩] } := by
  constructor
  case counts =>
    simp [appendChangedEdge, Counts.add, Placement.sizes, PlacedChange.item, List.countP_cons]
  case unchanged => exact List.Perm.refl _
  case added => simp [appendChangedEdge]
  case removed => simp [appendChangedEdge]
  case changed => rfl
  case ambiguous => simp [appendChangedEdge]
  case conflicts => simp [appendChangedEdge]

theorem unchanged_places (result : EdgeSection)
    (h : (fs.map fun r => (r.tupleKey, r.digest)).Perm (ts.map fun r => (r.tupleKey, r.digest))) :
    Places result
      { result with counts :=
          { result.counts with unchanged := result.counts.unchanged + fs.length } }
      { unchangedFrom := fs, unchangedTo := ts } := by
  constructor
  case counts => simp [Counts.add, Placement.sizes]
  case unchanged => exact h
  case added => simp
  case removed => simp
  case changed => simp
  case ambiguous => simp
  case conflicts => simp

theorem resolveEdgeResidual_places (fromSide toSide : GraphDiffSide) (result : EdgeSection)
    (rs ss : List EdgeRow) : ∃ q, Places result
        (resolveEdgeResidual fromSide toSide result rs ss) q ∧ q.fromRows.Perm rs ∧
      q.toRows.Perm ss := by
  have hambiguous : ∀ k, ∃ q, Places result (appendAmbiguous result k rs ss) q ∧
      q.fromRows.Perm rs ∧ q.toRows.Perm ss := fun k =>
    ⟨_, appendAmbiguous_places result k rs ss, by simp [Placement.fromRows],
      by simp [Placement.toRows]⟩
  cases rs with
  | nil =>
    cases ss with
    | nil => exact ⟨{}, by constructor <;> simp [resolveEdgeResidual, Counts.add, Placement.sizes],
        List.Perm.refl _, List.Perm.refl _⟩
    | cons s ss =>
      refine ⟨{ added := s :: ss }, ?_, by simp [Placement.fromRows],
        by simp [Placement.toRows]⟩
      constructor <;> simp [resolveEdgeResidual, Counts.add, Placement.sizes]
  | cons r rs =>
    cases ss with
    | nil =>
      refine ⟨{ removed := r :: rs }, ?_, by simp [Placement.fromRows],
        by simp [Placement.toRows]⟩
      constructor <;> simp [resolveEdgeResidual, Counts.add, Placement.sizes]
    | cons s ss =>
      cases rs with
      | cons r' rs =>
        have hmany : resolveEdgeResidual fromSide toSide result (r :: r' :: rs) (s :: ss) =
            appendAmbiguous result r.tupleKey (r :: r' :: rs) (s :: ss) := by
          simp [resolveEdgeResidual]
        rw [hmany]
        exact hambiguous r.tupleKey
      | nil =>
        cases ss with
        | cons s' ss => exact hambiguous r.tupleKey
        | nil =>
          unfold resolveEdgeResidual
          dsimp only
          split_ifs
          · exact hambiguous r.tupleKey
          · exact ⟨_, appendChangedEdge_places result r s .tuple _,
              by simp [Placement.fromRows], by simp [Placement.toRows]⟩

theorem cancel_sublist (available : String → Nat) (rows : List EdgeRow) :
    (cancel available rows).residual.Sublist rows := by
  induction rows generalizing available with
  | nil => exact List.Sublist.slnil
  | cons r rs ih =>
    rw [cancel]
    split_ifs
    · exact (ih _).cons r
    · exact (ih available).cons_cons r

theorem residualTo_sublist (remaining : String → Nat) (rows : List EdgeRow) :
    (residualTo remaining rows).Sublist rows := by
  induction rows generalizing remaining with
  | nil => exact List.Sublist.slnil
  | cons r rs ih =>
    rw [residualTo]
    split_ifs
    · exact (ih _).cons_cons r
    · exact (ih remaining).cons r

theorem count_map_digest (rows : List EdgeRow) (d : String) :
    (rows.map EdgeRow.digest).count d = rows.countP (digestIs d) := by
  rw [List.count_eq_countP, List.countP_map]
  apply List.countP_congr
  intro r _
  simp [digestIs]

theorem cancelled_digests (hf : fs.Perm (restFrom fs ts ++ gs)) (ht : ts.Perm (restTo fs ts ++ us))
    : (gs.map EdgeRow.digest).Perm (us.map EdgeRow.digest) := by
  rw [List.perm_iff_count]
  intro d
  have hfrom := hf.countP_eq (digestIs d)
  have hto := ht.countP_eq (digestIs d)
  have hrestFrom := congrArg List.length (restFrom_filter fs ts d)
  have hrestTo := congrArg List.length (restTo_filter fs ts d)
  rw [← List.countP_eq_length_filter, List.length_drop, ← List.countP_eq_length_filter] at hrestFrom
  rw [← List.countP_eq_length_filter, List.length_take, ← List.countP_eq_length_filter] at hrestTo
  rw [List.countP_append] at hfrom hto
  rw [count_map_digest, count_map_digest]
  omega

theorem map_of_group (h : ∀ r ∈ rows, r.tupleKey = k) :
    (rows.map fun r => (r.tupleKey, r.digest)) = (rows.map EdgeRow.digest).map fun d => (k, d) := by
  rw [List.map_map]
  apply List.map_congr_left
  intro r hr
  rw [h r hr]
  rfl

theorem mem_bucketOf {r : EdgeRow} : r ∈ bucketOf rows k ↔ r ∈ rows ∧ r.tupleKey = k := by
  rw [bucketOf, List.mem_filter, decide_eq_true_eq]

theorem compareBucket_places (fromSide toSide : GraphDiffSide) (fromRows toRows : List EdgeRow)
    (result : EdgeSection) (k : IdentityKey) : ∃ q, Places result
        (compareBucket fromSide toSide fromRows toRows result k) q ∧
      q.fromRows.Perm (bucketOf fromRows k) ∧ q.toRows.Perm (bucketOf toRows k) := by
  have ⟨gs, hgs⟩ := ((cancel_sublist (byDigest (digestOrdered (bucketOf toRows k)))
    (digestOrdered (bucketOf fromRows k)))).exists_perm_append
  have ⟨us, hus⟩ := (residualTo_sublist (cancel (byDigest (digestOrdered (bucketOf toRows k)))
    (digestOrdered (bucketOf fromRows k))).remaining
    (digestOrdered (bucketOf toRows k))).exists_perm_append
  have hf : (bucketOf fromRows k).Perm
      (restFrom (bucketOf fromRows k) (bucketOf toRows k) ++ gs) :=
    (sortedBy_perm _ _).symm.trans hgs
  have ht : (bucketOf toRows k).Perm (restTo (bucketOf fromRows k) (bucketOf toRows k) ++ us) :=
    (sortedBy_perm _ _).symm.trans hus
  have hpairs : (gs.map fun r => (r.tupleKey, r.digest)).Perm
      (us.map fun r => (r.tupleKey, r.digest)) := by
    rw [map_of_group fun r hr => (mem_bucketOf.mp (hf.mem_iff.mpr (List.mem_append_right _ hr))).2,
      map_of_group fun r hr => (mem_bucketOf.mp (ht.mem_iff.mpr (List.mem_append_right _ hr))).2]
    exact (cancelled_digests hf ht).map _
  have hcount : (cancel (byDigest (digestOrdered (bucketOf toRows k)))
      (digestOrdered (bucketOf fromRows k))).unchanged = gs.length := by
    have hlength := cancel_length (byDigest (digestOrdered (bucketOf toRows k)))
      (digestOrdered (bucketOf fromRows k))
    have hperm := hgs.length_eq
    rw [List.length_append] at hperm
    omega
  have ⟨q, hq, hqf, hqt⟩ := resolveEdgeResidual_places fromSide toSide
    { result with counts :=
      { result.counts with unchanged := result.counts.unchanged + gs.length } }
    (restFrom (bucketOf fromRows k) (bucketOf toRows k))
    (restTo (bucketOf fromRows k) (bucketOf toRows k))
  refine ⟨Placement.append { unchangedFrom := gs, unchangedTo := us } q, ?_, ?_, ?_⟩
  · unfold compareBucket
    dsimp only
    rw [hcount]
    exact (unchanged_places result hpairs).trans hq
  · refine (Placement.fromRows_append _ q).trans ?_
    refine List.Perm.trans ?_ hf.symm
    refine List.perm_append_comm.trans ?_
    simpa [Placement.fromRows] using hqf.append_right gs
  · refine (Placement.toRows_append _ q).trans ?_
    refine List.Perm.trans ?_ ht.symm
    refine List.perm_append_comm.trans ?_
    simpa [Placement.toRows] using hqt.append_right us

variable {fromSide : GraphDiffSide}

theorem Accounts.buckets {fromRows toRows : List EdgeRow} (ks : List IdentityKey)
    (h : Accounts n m result fs ts) :
    Accounts n m (ks.foldl (compareBucket fromSide toSide fromRows toRows) result)
      (fs ++ ks.flatMap (bucketOf fromRows)) (ts ++ ks.flatMap (bucketOf toRows)) := by
  induction ks generalizing result fs ts with
  | nil => simpa using h
  | cons k ks ih =>
    have ⟨q, hq, hqf, hqt⟩ := compareBucket_places fromSide toSide fromRows toRows result k
    have hstep := (h.step hq).perm (hqf.append_left fs) (hqt.append_left ts)
    rw [List.foldl_cons, List.flatMap_cons, List.flatMap_cons, ← List.append_assoc,
      ← List.append_assoc]
    exact ih hstep

theorem compareMatched_places (result : EdgeSection) {pair : EdgeRow × EdgeRow}
    (hkey : pair.1.tupleKey = pair.2.tupleKey) : ∃ q, Places result (compareMatched result pair) q ∧
      q.fromRows = [pair.1] ∧ q.toRows = [pair.2] := by
  unfold compareMatched
  split_ifs with hd
  · have hsame : ([pair.1].map fun r => (r.tupleKey, r.digest)).Perm
        ([pair.2].map fun r => (r.tupleKey, r.digest)) := by simp [hkey, hd]
    exact ⟨_, unchanged_places result hsame, rfl, rfl⟩
  · exact ⟨_, appendChangedEdge_places result pair.1 pair.2 .claimId false, rfl, rfl⟩

theorem Accounts.matched (pairs : List (EdgeRow × EdgeRow))
    (hkeys : ∀ pair ∈ pairs, pair.1.tupleKey = pair.2.tupleKey) (h : Accounts n m result fs ts) :
    Accounts n m (pairs.foldl compareMatched result) (fs ++ pairs.map Prod.fst)
      (ts ++ pairs.map Prod.snd) := by
  induction pairs generalizing result fs ts with
  | nil => simpa using h
  | cons pair pairs ih =>
    have ⟨q, hq, hqf, hqt⟩ := compareMatched_places result (hkeys pair List.mem_cons_self)
    have hstep := h.step hq
    rw [hqf, hqt] at hstep
    have hrest := ih (fun p hp => hkeys p (List.mem_cons_of_mem pair hp)) hstep
    rw [List.append_assoc, List.append_assoc] at hrest
    exact hrest

/-- While ids are swept, the rows that are placed and those that are matched. -/
def SweepAccounts (n m : Nat) (s : Sweep) (fs ts : List EdgeRow) : Prop :=
  ∃ fs' ts', Accounts n m s.result fs' ts' ∧ (fs' ++ s.matched.map Prod.fst).Perm fs ∧
    (ts' ++ s.matched.map Prod.snd).Perm ts

theorem SweepAccounts.conflict {s s' : Sweep} (h : SweepAccounts n m s fs ts) {c : String}
    {k : ConflictKind} (hresult : s'.result = appendConflict s.result c k gs us)
    (hmatched : s'.matched = s.matched) : SweepAccounts n m s' (fs ++ gs) (ts ++ us) := by
  have ⟨fs', ts', haccounts, hf, ht⟩ := h
  have hstep := haccounts.step (appendConflict_places s.result c k gs us)
  refine ⟨fs' ++ gs, ts' ++ us, ?_, ?_, ?_⟩
  · rw [hresult]
    simpa [Placement.fromRows, Placement.toRows] using hstep
  · rw [hmatched, List.append_assoc]
    refine (List.perm_append_comm.append_left fs').trans ?_
    rw [← List.append_assoc]
    exact hf.append_right gs
  · rw [hmatched, List.append_assoc]
    refine (List.perm_append_comm.append_left ts').trans ?_
    rw [← List.append_assoc]
    exact ht.append_right us

theorem SweepAccounts.step {n m : Nat} {fromRows toRows : List EdgeRow} {c : String}
    (hc : Swept fromRows toRows c) {s : Sweep} {fs ts : List EdgeRow}
    (h : SweepAccounts n m s fs ts) : SweepAccounts n m (sweepClaim fromRows toRows s c)
      (fs ++ (rowsOfClaim fromRows c).map Prod.fst) (ts ++ (rowsOfClaim toRows c).map Prod.fst) := by
  rcases hc.cases with hd | ⟨hd, hf, ht⟩
  · apply h.conflict (c := c) (k := .duplicateWithinSide)
    · rw [sweepClaim, if_pos hd]
    · rw [sweepClaim, if_pos hd]
  · have ⟨r, i, hr⟩ := rowsOfClaim_one hf
    have ⟨t, j, ht⟩ := rowsOfClaim_one ht
    by_cases hkey : r.tupleKey = t.tupleKey
    · have ⟨fs', ts', haccounts, hf, ht'⟩ := h
      refine ⟨fs', ts', ?_, ?_, ?_⟩
      · simp only [sweepClaim, if_neg hd, hr, ht, if_pos hkey]
        exact haccounts
      · simp only [sweepClaim, if_neg hd, hr, ht, if_pos hkey, List.map_append]
        rw [← List.append_assoc]
        exact hf.append_right [r]
      · simp only [sweepClaim, if_neg hd, hr, ht, if_pos hkey, List.map_append]
        rw [← List.append_assoc]
        exact ht'.append_right [t]
    · apply h.conflict (c := c) (k := .crossBucket)
      · simp only [sweepClaim, if_neg hd, hr, ht, if_neg hkey]
      · simp only [sweepClaim, if_neg hd, hr, ht, if_neg hkey]

theorem SweepAccounts.run {fromRows toRows : List EdgeRow} (ids : List String)
    (hids : ∀ c ∈ ids, Swept fromRows toRows c) {s : Sweep} (h : SweepAccounts n m s fs ts) :
    SweepAccounts n m (ids.foldl (sweepClaim fromRows toRows) s)
      (fs ++ ids.flatMap fun c => (rowsOfClaim fromRows c).map Prod.fst)
      (ts ++ ids.flatMap fun c => (rowsOfClaim toRows c).map Prod.fst) := by
  induction ids generalizing s fs ts with
  | nil => simpa using h
  | cons c ids ih =>
    have hstep := h.step (hids c List.mem_cons_self)
    rw [List.foldl_cons, List.flatMap_cons, List.flatMap_cons, ← List.append_assoc,
      ← List.append_assoc]
    exact ih (fun d hd => hids d (List.mem_cons_of_mem c hd)) hstep

theorem grouped_perm {α κ : Type} [DecidableEq κ] (f : α → Option κ) (rows : List α)
    {ks : List κ} (h : ks.Nodup) :
    (ks.flatMap fun k => rows.filter fun r => f r = some k).Perm
      (rows.filter fun r => ks.any fun k => f r = some k) := by
  induction ks with
  | nil => simp
  | cons k ks ih =>
    have ⟨hk, hks⟩ := List.nodup_cons.mp h
    have hsplit := List.filter_append_perm (fun r => decide (f r = some k))
      (rows.filter fun r => (k :: ks).any fun k => f r = some k)
    rw [List.filter_filter, List.filter_filter] at hsplit
    have hhere : (rows.filter fun r => decide (f r = some k) &&
        (k :: ks).any fun k => decide (f r = some k)) =
        rows.filter fun r => decide (f r = some k) := by
      apply List.filter_congr
      intro r _
      by_cases hr : f r = some k
      · simp [hr]
      · simp [hr]
    have hthere : (rows.filter fun r => !decide (f r = some k) &&
        (k :: ks).any fun k => decide (f r = some k)) =
        rows.filter fun r => ks.any fun k => f r = some k := by
      apply List.filter_congr
      intro r _
      by_cases hr : f r = some k
      · have hnone : ∀ x ∈ ks, x ≠ k := fun x hx hxk => hk (hxk ▸ hx)
        simp only [hr, decide_true, Bool.not_true, Bool.false_and, Option.some.injEq,
          Bool.false_eq, List.any_eq_false, decide_eq_true_eq]
        exact fun x hx hkx => hnone x hx hkx.symm
      · simp [hr]
    rw [hhere, hthere] at hsplit
    rw [List.flatMap_cons]
    exact ((ih hks).append_left _).trans hsplit

theorem kept_or_swept (fromRows toRows rows : List EdgeRow) :
    ((sweptIds fromRows toRows).flatMap (fun c => (rowsOfClaim rows c).map Prod.fst) ++
      rows.filter (keptRow fromRows toRows)).Perm rows := by
  have hswept := grouped_perm EdgeRow.claimId rows (sweptIds_nodup fromRows toRows)
  simp only [rowsOfClaim_map_fst]
  refine (hswept.append_right _).trans ?_
  have hkept : rows.filter (keptRow fromRows toRows) = rows.filter fun r =>
      !(sweptIds fromRows toRows).any fun c => decide (r.claimId = some c) := by
    apply List.filter_congr
    intro r _
    unfold keptRow
    cases hr : r.claimId with
    | none => simp
    | some c =>
      rw [Bool.eq_iff_iff]
      simp only [Bool.not_eq_true', decide_eq_false_iff_not, List.any_eq_false,
        decide_eq_true_eq, Option.some.injEq, ← mem_sweptIds]
      constructor
      · exact fun h d hd hcd => h (hcd ▸ hd)
      · exact fun h hc => h c hc rfl
  rw [hkept]
  exact List.filter_append_perm _ rows

theorem groups_perm {fromRows toRows : List EdgeRow} (h : ∀ r ∈ rows, r ∈ fromRows ++ toRows) :
    ((tupleKeys fromRows toRows).flatMap (bucketOf rows)).Perm rows := by
  have hnodup : (tupleKeys fromRows toRows).Nodup :=
    (sortedBy_perm _ _).nodup_iff.mpr (List.nodup_dedup _)
  have hgroups := grouped_perm (fun r : EdgeRow => some r.tupleKey) rows hnodup
  simp only [Option.some.injEq] at hgroups
  refine hgroups.trans ?_
  rw [List.filter_eq_self.mpr]
  intro r hr
  rw [List.any_eq_true]
  refine ⟨r.tupleKey, ?_, by simp⟩
  unfold tupleKeys
  rw [(sortedBy_perm _ _).mem_iff, List.mem_dedup]
  exact List.mem_map_of_mem (h r hr)

theorem collectEdges_accounts (fromSide toSide : GraphDiffSide) (fromRows toRows : List EdgeRow) :
    Accounts fromRows.length toRows.length (collectEdges fromSide toSide fromRows toRows)
      fromRows toRows := by
  unfold collectEdges
  generalize hstart : ({ counts := { fromTotal := fromRows.length, toTotal := toRows.length } } :
    EdgeSection) = start
  have hrest := sweep_unconsumed fromRows toRows start
  dsimp only at hrest ⊢
  rw [hrest.1, hrest.2]
  have haccounts : Accounts fromRows.length toRows.length start [] [] := by
    rw [← hstart]
    refine ⟨{}, ?_, ⟨rfl, rfl⟩, List.Perm.refl _, List.Perm.refl _⟩
    constructor <;> rfl
  have hsweep : SweepAccounts fromRows.length toRows.length { result := start } [] [] :=
    ⟨[], [], haccounts, List.Perm.refl _, List.Perm.refl _⟩
  have ⟨fs, ts, hplaced, hf, ht⟩ := hsweep.run (sweptIds fromRows toRows) fun c => mem_sweptIds.mp
  have hkeys : ∀ pair ∈ ((sweptIds fromRows toRows).foldl (sweepClaim fromRows toRows)
      { result := start }).matched, pair.1.tupleKey = pair.2.tupleKey := by
    intro pair hpair
    rw [sweep_matched] at hpair
    exact (mem_matched.mp hpair).tupleKey
  have hmatched := (hplaced.matched _ hkeys).perm hf ht
  refine (hmatched.buckets (tupleKeys (keptFrom fromRows toRows) (keptTo fromRows toRows))).perm
    ?_ ?_
  · have hgroups := groups_perm fun r (hr : r ∈ keptFrom fromRows toRows) =>
      List.mem_append_left (keptTo fromRows toRows) hr
    exact (hgroups.append_left _).trans (kept_or_swept fromRows toRows fromRows)
  · have hgroups := groups_perm fun r (hr : r ∈ keptTo fromRows toRows) =>
      List.mem_append_right (keptFrom fromRows toRows) hr
    exact (hgroups.append_left _).trans (kept_or_swept fromRows toRows toRows)

theorem Accounts.sorted (h : Accounts n m result fs ts) :
    Accounts n m (sortEdgeItems result) fs ts := by
  have ⟨p, hp, htotals, hfrom, hto⟩ := h
  refine ⟨p, ?_, htotals, hfrom, hto⟩
  exact {
    counts := hp.counts
    unchanged := hp.unchanged
    added := (sortedBy_perm _ _).trans hp.added
    removed := (sortedBy_perm _ _).trans hp.removed
    changed := (sortedBy_perm _ _).trans hp.changed
    ambiguous := (sortedBy_perm _ _).trans hp.ambiguous
    conflicts := (sortedBy_perm _ _).trans hp.conflicts }

theorem diffEdges_of_rows {hash : Value → String} {selector : GraphDiffSelector}
    {fromRows toRows : List EdgeRow} (hf : edgeRows hash fromSide selector = .ok fromRows)
    (ht : edgeRows hash toSide selector = .ok toRows) :
    diffEdges hash fromSide toSide selector = .ok (applySelector
      (sortEdgeItems (collectEdges fromSide toSide fromRows toRows)) selector) := by
  have hpartition := (collectEdges_accounts fromSide toSide fromRows toRows).sorted.partition
  unfold diffEdges
  rw [hf, ht]
  dsimp only [bind, Except.bind]
  rw [hpartition]
  rfl

end Cruxible.StateDiffs
