import Cruxible.EdgeAccounting

/-!
# How entities are matched

What the loop of `diff_entities` leaves, and that either section of a diff accounts for
each of its rows.
-/
namespace Cruxible.StateDiffs
open JsonValue PythonDict ComparisonStates

def entityChange (fromRows toRows : Dict (String × String) EntityRow) (key : String × String) :
    List EntityChangedItem :=
  match fromRows.get? key, toRows.get? key with
  | some r, some s =>
      if r.isStub || s.isStub then []
      else if r.digest = s.digest then []
      else [entityChangedItem r s]
  | _, _ => []

theorem compareEntity_step (fromRows toRows : Dict (String × String) EntityRow)
    (p : EntityProgress) (key : String × String) :
    (compareEntity fromRows toRows p key).result.changed =
        p.result.changed ++ entityChange fromRows toRows key ∧
      (compareEntity fromRows toRows p key).result.counts.fromSum =
        p.result.counts.fromSum + (fromRows.get? key).toList.length ∧
      (compareEntity fromRows toRows p key).result.counts.toSum =
        p.result.counts.toSum + (toRows.get? key).toList.length ∧
      (compareEntity fromRows toRows p key).result.counts.fromTotal = p.result.counts.fromTotal ∧
      (compareEntity fromRows toRows p key).result.counts.toTotal = p.result.counts.toTotal := by
  unfold compareEntity entityChange Counts.fromSum Counts.toSum
  dsimp only
  cases fromRows.get? key with
  | none =>
    cases toRows.get? key with
    | none => exact ⟨(List.append_nil _).symm, rfl, rfl, rfl, rfl⟩
    | some s =>
      cases hs : s.isStub with
      | false =>
        simp only [hs, Option.toList_none, Option.toList_some, List.length_nil,
          List.length_singleton, Bool.false_eq_true, if_false, and_true, List.append_nil, true_and]
        omega
      | true =>
        simp only [hs, Option.toList_none, Option.toList_some, List.length_nil,
          List.length_singleton, if_true, and_true, List.append_nil, true_and]
        omega
  | some r =>
    cases toRows.get? key with
    | none =>
      cases hr : r.isStub with
      | false =>
        simp only [hr, Option.toList_none, Option.toList_some, List.length_nil,
          List.length_singleton, Bool.false_eq_true, if_false, and_true, List.append_nil, true_and]
        omega
      | true =>
        simp only [hr, Option.toList_none, Option.toList_some, List.length_nil,
          List.length_singleton, if_true, and_true, List.append_nil, true_and]
        omega
    | some s =>
      simp only [Option.toList_some, List.length_singleton]
      by_cases hstub : (r.isStub || s.isStub) = true
      · simp only [if_pos hstub, and_true, List.append_nil, true_and]
        omega
      · by_cases hd : r.digest = s.digest
        · simp only [if_neg hstub, if_pos hd, and_true, List.append_nil, true_and]
          omega
        · simp only [if_neg hstub, if_neg hd, and_true, true_and]
          omega

variable {fromRows toRows : Dict (String × String) EntityRow}

theorem mem_entityKeys {key : String × String} :
    key ∈ entityKeys fromRows toRows ↔ key ∈ fromRows.keys ∨ key ∈ toRows.keys := by
  unfold entityKeys
  rw [(sortedBy_perm _ _).mem_iff, List.mem_dedup, List.mem_append]

theorem mem_changedEntities {item : EntityChangedItem} :
    item ∈ (collectEntities fromRows toRows).result.changed ↔
      ∃ key r s, fromRows.get? key = some r ∧ toRows.get? key = some s ∧ r.isStub = false ∧
        s.isStub = false ∧ r.digest ≠ s.digest ∧ item = entityChangedItem r s := by
  unfold collectEntities
  rw [foldl_appends (fun p : EntityProgress => p.result.changed) _
    fun p key => (compareEntity_step fromRows toRows p key).1, List.nil_append, List.mem_flatMap]
  constructor
  · intro ⟨key, _, hitem⟩
    unfold entityChange at hitem
    cases hr : fromRows.get? key with
    | none =>
      rw [hr] at hitem
      cases hitem
    | some r =>
      cases hs : toRows.get? key with
      | none =>
        rw [hr, hs] at hitem
        cases hitem
      | some s =>
        rw [hr, hs] at hitem
        dsimp only at hitem
        split_ifs at hitem with hstub hd
        · cases hitem
        · cases hitem
        · rw [Bool.or_eq_true, not_or, Bool.not_eq_true, Bool.not_eq_true] at hstub
          exact ⟨key, r, s, hr, hs, hstub.1, hstub.2, hd, List.mem_singleton.mp hitem⟩
  · intro ⟨key, r, s, hr, hs, hrstub, hsstub, hd, hitem⟩
    refine ⟨key, mem_entityKeys.mpr (.inl (Dict.mem_keys.mpr ⟨r, hr⟩)), ?_⟩
    unfold entityChange
    rw [hr, hs]
    dsimp only
    rw [hrstub, hsstub, if_neg (by decide), if_neg hd, List.mem_singleton]
    exact hitem

theorem keys_met (rows : Dict (String × String) EntityRow) {ks : List (String × String)}
    (hn : ks.Nodup) (hks : ∀ key ∈ rows.keys, key ∈ ks) :
    (ks.map fun key => (rows.get? key).toList.length).sum = rows.keys.length := by
  have hperm : (ks.filter fun key => decide (key ∈ rows.keys)).Perm rows.keys := by
    have hrows : rows.keys.Nodup := rows.nodup
    rw [List.perm_ext_iff_of_nodup (hn.filter _) hrows]
    intro key
    rw [List.mem_filter, decide_eq_true_eq]
    exact ⟨fun h => h.2, fun h => ⟨hks key h, h⟩⟩
  rw [← hperm.length_eq]
  clear hperm hn hks
  induction ks with
  | nil => rfl
  | cons key ks ih =>
    rw [List.map_cons, List.sum_cons, ih]
    cases hkey : rows.get? key with
    | none =>
      have hnot : key ∉ rows.keys := Dict.get?_eq_none.mp hkey
      rw [List.filter_cons_of_neg (by simpa using hnot)]
      simp
    | some r =>
      have hin : key ∈ rows.keys := Dict.mem_keys.mpr ⟨r, hkey⟩
      rw [List.filter_cons_of_pos (by simpa using hin), List.length_cons]
      simp only [Option.toList_some, List.length_singleton]
      omega

theorem collectEntities_partition (fromRows toRows : Dict (String × String) EntityRow) :
    (collectEntities fromRows toRows).result.counts.assertPartition = .ok () := by
  have hn : (entityKeys fromRows toRows).Nodup :=
    (sortedBy_perm _ _).nodup_iff.mpr (List.nodup_dedup _)
  have hfrom := keys_met fromRows hn fun key hkey => mem_entityKeys.mpr (.inl hkey)
  have hto := keys_met toRows hn fun key hkey => mem_entityKeys.mpr (.inr hkey)
  unfold collectEntities Counts.assertPartition
  rw [foldl_adds (fun p : EntityProgress => p.result.counts.fromSum) _
      fun p key => (compareEntity_step fromRows toRows p key).2.1,
    foldl_adds (fun p : EntityProgress => p.result.counts.toSum) _
      fun p key => (compareEntity_step fromRows toRows p key).2.2.1,
    foldl_adds (fun p : EntityProgress => p.result.counts.fromTotal) (fun _ => 0)
      fun p key => (compareEntity_step fromRows toRows p key).2.2.2.1,
    foldl_adds (fun p : EntityProgress => p.result.counts.toTotal) (fun _ => 0)
      fun p key => (compareEntity_step fromRows toRows p key).2.2.2.2, hfrom, hto]
  simp [Counts.fromSum, Counts.toSum]

/-- The edge rows of both sides; reading them is all that can fail. -/
def edgeSides (hash : Value → String) (fromSide toSide : GraphDiffSide)
    (selector : GraphDiffSelector) : Except String (List EdgeRow × List EdgeRow) := do
  let fromRows ← edgeRows hash fromSide selector
  let toRows ← edgeRows hash toSide selector
  pure (fromRows, toRows)

/-- The entity rows of both sides. -/
def entitySides (hash : Value → String) (fromSide toSide : GraphDiffSide)
    (selector : GraphDiffSelector) : Except String
      (Dict (String × String) EntityRow × Dict (String × String) EntityRow) := do
  let detectionEnabled := fromSide.ownership.isKnown && toSide.ownership.isKnown
  let fromStubs ← stubsWhen detectionEnabled fromSide
  let toStubs ← stubsWhen detectionEnabled toSide
  let fromRows ← entityRows hash fromSide selector fromStubs
  let toRows ← entityRows hash toSide selector toStubs
  pure (fromRows, toRows)

variable (hash : Value → String) (fromSide toSide : GraphDiffSide) (selector : GraphDiffSelector)

theorem diffEdges_eq : diffEdges hash fromSide toSide selector =
    (edgeSides hash fromSide toSide selector).map fun rows => applySelector
      (sortEdgeItems (collectEdges fromSide toSide rows.1 rows.2)) selector := by
  unfold edgeSides
  cases hf : edgeRows hash fromSide selector with
  | error e =>
    unfold diffEdges
    rw [hf]
    rfl
  | ok fromRows =>
    cases ht : edgeRows hash toSide selector with
    | error e =>
      unfold diffEdges
      rw [hf, ht]
      rfl
    | ok toRows =>
      rw [diffEdges_of_rows hf ht]
      rfl

theorem diffEntities_eq : diffEntities hash fromSide toSide selector =
    (entitySides hash fromSide toSide selector).map fun rows => applySelector
      (sortEntityItems (fromSide.ownership.isKnown && toSide.ownership.isKnown)
        (collectEntities rows.1 rows.2)) selector := by
  have hpartition : ∀ enabled fromRows toRows,
      (sortEntityItems enabled (collectEntities fromRows toRows)).counts.assertPartition =
        .ok () := fun _ fromRows toRows => collectEntities_partition fromRows toRows
  unfold diffEntities entitySides
  dsimp only
  cases stubsWhen (fromSide.ownership.isKnown && toSide.ownership.isKnown) fromSide with
  | error e => rfl
  | ok fromStubs =>
    cases stubsWhen (fromSide.ownership.isKnown && toSide.ownership.isKnown) toSide with
    | error e => rfl
    | ok toStubs =>
      dsimp only [bind, Except.bind]
      cases entityRows hash fromSide selector fromStubs with
      | error e => rfl
      | ok fromRows =>
        cases entityRows hash toSide selector toStubs with
        | error e => rfl
        | ok toRows =>
          dsimp only
          rw [hpartition]
          rfl

/-- Unless a graph cannot be read, every edge row of either side is placed in one class
once, the counts are the sizes of the classes, and the partition of neither section is
broken. -/
theorem every_row_is_placed_once :
    ((∃ e, edgeSides hash fromSide toSide selector = .error e ∧
        diffEdges hash fromSide toSide selector = .error e) ∨
      ∃ fromRows toRows result p,
        edgeSides hash fromSide toSide selector = .ok (fromRows, toRows) ∧
        diffEdges hash fromSide toSide selector = .ok (applySelector result selector) ∧
        Reports result p ∧ result.counts.fromTotal = fromRows.length ∧
        result.counts.toTotal = toRows.length ∧ p.fromRows.Perm fromRows ∧
        p.toRows.Perm toRows) ∧
    ((∃ e, entitySides hash fromSide toSide selector = .error e ∧
        diffEntities hash fromSide toSide selector = .error e) ∨
      ∃ result, diffEntities hash fromSide toSide selector = .ok (applySelector result selector) ∧
        result.counts.assertPartition = .ok ()) := by
  constructor
  · rw [diffEdges_eq]
    cases h : edgeSides hash fromSide toSide selector with
    | error e => exact .inl ⟨e, rfl, rfl⟩
    | ok rows =>
        have ⟨p, hp, ⟨hn, hm⟩, hf, ht⟩ :=
          (collectEdges_accounts fromSide toSide rows.1 rows.2).sorted
        exact .inr ⟨rows.1, rows.2, _, p, rfl, rfl, hp, hn, hm, hf, ht⟩
  · rw [diffEntities_eq]
    cases h : entitySides hash fromSide toSide selector with
    | error e => exact .inl ⟨e, rfl, rfl⟩
    | ok rows => exact .inr ⟨_, rfl, collectEntities_partition rows.1 rows.2⟩

end Cruxible.StateDiffs
