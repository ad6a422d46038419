import Cruxible.StateDiffs
import Mathlib.Algebra.BigOperators.Group.List.Basic
import Mathlib.Algebra.GroupWithZero.Nat

/-!
# How edges are matched

What the loops of `diff_edges` leave: the rows that a claim id consumes, the pairs that
it matches, and of a group of parallel edges the rows that no equal digest cancels.
-/
namespace Cruxible.StateDiffs
open JsonValue PythonDict ComparisonStates
open GraphImages (IdentityKey)

section Loops

variable {σ κ α β : Type} {step : σ → κ → σ}

theorem foldl_appends (p : σ → List β) (δ : κ → List β)
    (h : ∀ s k, p (step s k) = p s ++ δ k) (s : σ) (ks : List κ) :
    p (ks.foldl step s) = p s ++ ks.flatMap δ := by
  induction ks generalizing s with
  | nil => simp
  | cons k ks ih => rw [List.foldl_cons, ih, h, List.flatMap_cons, List.append_assoc]

theorem foldl_adds (p : σ → Nat) (δ : κ → Nat) (h : ∀ s k, p (step s k) = p s + δ k) (s : σ)
    (ks : List κ) : p (ks.foldl step s) = p s + (ks.map δ).sum := by
  induction ks generalizing s with
  | nil => simp
  | cons k ks ih => rw [List.foldl_cons, ih, h, List.map_cons, List.sum_cons, Nat.add_assoc]

theorem sortedBy_perm (key : α → List String) (xs : List α) : (sortedBy key xs).Perm xs :=
  List.mergeSort_perm xs _

theorem sortedBy_filter (key : α → List String) (xs : List α) (p : α → Bool)
    (hp : ∀ a b, p a = true → p b = true → key a = key b) :
    (sortedBy key xs).filter p = xs.filter p := by
  have hpair : (xs.filter p).Pairwise fun a b => decide (key a ≤ key b) = true := by
    apply List.Pairwise.imp_of_mem (R := fun _ _ => True)
    · intro a b ha hb _
      rw [hp a b (List.mem_filter.mp ha).2 (List.mem_filter.mp hb).2]
      simp
    · exact List.pairwise_of_forall fun _ _ => trivial
  have hsub : (xs.filter p).Sublist (sortedBy key xs) :=
    List.sublist_mergeSort (by simpa using fun a b c => le_trans)
      (by simpa using fun a b => le_total (key a) (key b)) hpair List.filter_sublist
  have hsub' : (xs.filter p).Sublist ((sortedBy key xs).filter p) := by
    have h := hsub.filter p
    rwa [List.filter_filter, show (fun a => p a && p a) = p from funext fun a => Bool.and_self _] at h
  exact (hsub'.eq_of_length ((sortedBy_perm key xs).filter p).length_eq.symm).symm

end Loops

def countClaim (rows : List EdgeRow) (c : String) : Nat := rows.countP fun r => r.claimId = some c

/-- The sweep takes every id that both sides hold, or that one side holds twice. -/
def Swept (fromRows toRows : List EdgeRow) (c : String) : Prop :=
  (1 < countClaim fromRows c ∨ 1 < countClaim toRows c) ∨
    (0 < countClaim fromRows c ∧ 0 < countClaim toRows c)

instance (fromRows toRows : List EdgeRow) (c : String) : Decidable (Swept fromRows toRows c) :=
  inferInstanceAs (Decidable ((_ ∨ _) ∨ _))

/-- A row whose id, if it has one, is not swept. -/
def keptRow (fromRows toRows : List EdgeRow) (r : EdgeRow) : Bool :=
  match r.claimId with
  | none => true
  | some c => !decide (Swept fromRows toRows c)

theorem rowsOfClaim_map_fst (rows : List EdgeRow) (c : String) :
    (rowsOfClaim rows c).map Prod.fst = rows.filter fun r => r.claimId = some c := by
  unfold rowsOfClaim
  rw [show (fun r : EdgeRow × Nat => decide (r.1.claimId = some c)) =
    (fun r : EdgeRow => decide (r.claimId = some c)) ∘ Prod.fst from rfl, ← List.filter_map,
    List.zipIdx_map_fst]

theorem rowsOfClaim_length (rows : List EdgeRow) (c : String) :
    (rowsOfClaim rows c).length = countClaim rows c := by
  rw [countClaim, List.countP_eq_length_filter, ← rowsOfClaim_map_fst, List.length_map]

variable {c : String} {rows fromRows toRows : List EdgeRow} {r s : EdgeRow}

theorem mem_claimIdsOf : c ∈ claimIdsOf rows ↔ 0 < countClaim rows c := by
  unfold claimIdsOf countClaim
  rw [List.mem_dedup, List.mem_filterMap, List.countP_pos_iff]
  simp

theorem mem_duplicatedIds :
    c ∈ duplicatedIds fromRows toRows ↔
      1 < countClaim fromRows c ∨ 1 < countClaim toRows c := by
  unfold duplicatedIds
  rw [List.mem_append, List.mem_filter, List.mem_filter, mem_claimIdsOf, mem_claimIdsOf,
    rowsOfClaim_length, rowsOfClaim_length, decide_eq_true_eq, decide_eq_true_eq]
  omega

theorem mem_sweptIds : c ∈ sweptIds fromRows toRows ↔ Swept fromRows toRows c := by
  unfold sweptIds Swept
  rw [List.mem_mergeSort, List.mem_dedup, List.mem_append, mem_duplicatedIds, List.mem_filter,
    decide_eq_true_eq, mem_claimIdsOf, mem_claimIdsOf]

theorem sweptIds_nodup (fromRows toRows : List EdgeRow) : (sweptIds fromRows toRows).Nodup :=
  (List.mergeSort_perm _ _).nodup_iff.mpr (List.nodup_dedup _)

theorem rowsOfClaim_one (h : countClaim rows c = 1) : ∃ r i, rowsOfClaim rows c = [(r, i)] := by
  have hlength := rowsOfClaim_length rows c
  rw [h, List.length_eq_one_iff] at hlength
  have ⟨⟨r, i⟩, hr⟩ := hlength
  exact ⟨r, i, hr⟩

/-- An id is swept as a conflict within a side, or it is on both sides once. -/
theorem Swept.cases (h : Swept fromRows toRows c) :
    c ∈ duplicatedIds fromRows toRows ∨
      (c ∉ duplicatedIds fromRows toRows ∧ countClaim fromRows c = 1 ∧ countClaim toRows c = 1) := by
  by_cases hd : c ∈ duplicatedIds fromRows toRows
  · exact .inl hd
  · right
    refine ⟨hd, ?_⟩
    rw [mem_duplicatedIds] at hd
    unfold Swept at h
    omega

theorem sweepClaim_consumed (h : Swept fromRows toRows c) (s : Sweep) :
    (sweepClaim fromRows toRows s c).consumedFrom =
        s.consumedFrom ++ (rowsOfClaim fromRows c).map Prod.snd ∧
      (sweepClaim fromRows toRows s c).consumedTo =
        s.consumedTo ++ (rowsOfClaim toRows c).map Prod.snd := by
  unfold sweepClaim
  rcases h.cases with hd | ⟨hd, hf, ht⟩
  · simp only [if_pos hd, and_self]
  · have ⟨r, i, hr⟩ := rowsOfClaim_one hf
    have ⟨t, j, ht⟩ := rowsOfClaim_one ht
    simp only [if_neg hd, hr, ht]
    split_ifs
    · exact ⟨rfl, rfl⟩
    · exact ⟨rfl, rfl⟩

theorem sweep_consumed (ids : List String) (h : ∀ c ∈ ids, Swept fromRows toRows c) (s : Sweep) :
    (ids.foldl (sweepClaim fromRows toRows) s).consumedFrom =
        s.consumedFrom ++ ids.flatMap (fun c => (rowsOfClaim fromRows c).map Prod.snd) ∧
      (ids.foldl (sweepClaim fromRows toRows) s).consumedTo =
        s.consumedTo ++ ids.flatMap (fun c => (rowsOfClaim toRows c).map Prod.snd) := by
  induction ids generalizing s with
  | nil => simp
  | cons c ids ih =>
    have hstep := sweepClaim_consumed (h c List.mem_cons_self) s
    have hrest := ih (fun d hd => h d (List.mem_cons_of_mem c hd)) (sweepClaim fromRows toRows s c)
    rw [List.foldl_cons, hrest.1, hrest.2, hstep.1, hstep.2]
    simp

theorem unconsumed_eq (rows : List EdgeRow) (ids : List String) :
    unconsumed rows (ids.flatMap fun c => (rowsOfClaim rows c).map Prod.snd) =
      rows.filter fun r => match r.claimId with
        | none => true
        | some c => decide (c ∉ ids) := by
  unfold unconsumed
  conv_rhs => rw [← List.zipIdx_map_fst 0 rows, List.filter_map]
  congr 1
  apply List.filter_congr
  intro ⟨r, i⟩ hr
  rw [Function.comp_apply, Bool.eq_iff_iff, decide_eq_true_eq]
  have hrow : (i ∈ ids.flatMap fun c => (rowsOfClaim rows c).map Prod.snd) ↔
      ∃ c ∈ ids, r.claimId = some c := by
    rw [List.mem_flatMap]
    apply exists_congr
    intro c
    apply and_congr_right
    intro _
    rw [List.mem_map]
    constructor
    · intro ⟨⟨r', i'⟩, hr', hi⟩
      rw [rowsOfClaim, List.mem_filter, decide_eq_true_eq] at hr'
      have hi : i' = i := hi
      rw [hi, List.mem_zipIdx_iff_getElem?] at hr'
      rw [List.mem_zipIdx_iff_getElem?] at hr
      have heq : r' = r := Option.some.inj (hr'.1.symm.trans hr)
      exact heq ▸ hr'.2
    · intro hc
      refine ⟨(r, i), ?_, rfl⟩
      rw [rowsOfClaim, List.mem_filter, decide_eq_true_eq]
      exact ⟨hr, hc⟩
  rw [hrow]
  cases hc : r.claimId with
  | none => simp
  | some c => simp

/-- Two rows that share a claim id, alone on their sides, and the endpoints. -/
structure ClaimPair (fromRows toRows : List EdgeRow) (r s : EdgeRow) : Prop where
  fromRow : r ∈ fromRows
  toRow : s ∈ toRows
  claim : ∃ c, r.claimId = some c ∧ s.claimId = some c ∧ countClaim fromRows c = 1 ∧
    countClaim toRows c = 1
  tupleKey : r.tupleKey = s.tupleKey

def matchedOf (fromRows toRows : List EdgeRow) (c : String) : List (EdgeRow × EdgeRow) :=
  if c ∈ duplicatedIds fromRows toRows then []
  else
    match rowsOfClaim fromRows c, rowsOfClaim toRows c with
    | (r, _) :: _, (s, _) :: _ => if r.tupleKey = s.tupleKey then [(r, s)] else []
    | _, _ => []

theorem sweepClaim_matched (fromRows toRows : List EdgeRow) (s : Sweep) (c : String) :
    (sweepClaim fromRows toRows s c).matched = s.matched ++ matchedOf fromRows toRows c := by
  unfold sweepClaim matchedOf
  dsimp only
  split_ifs with hd
  · rw [List.append_nil]
  · cases rowsOfClaim fromRows c with
    | nil => simp
    | cons r rs =>
      cases rowsOfClaim toRows c with
      | nil => simp
      | cons t ts =>
        dsimp only
        split_ifs
        · rfl
        · rw [List.append_nil]

theorem sweepClaim_changed (fromRows toRows : List EdgeRow) (s : Sweep) (c : String) :
    (sweepClaim fromRows toRows s c).result.changed = s.result.changed := by
  unfold sweepClaim
  dsimp only
  split_ifs with hd
  · rfl
  · split
    · split_ifs
      · rfl
      · rfl
    · rfl

theorem filter_of_one (hr : r ∈ rows) (hc : r.claimId = some c) (h : countClaim rows c = 1) :
    (rowsOfClaim rows c).map Prod.fst = [r] := by
  have hlength : ((rowsOfClaim rows c).map Prod.fst).length = 1 := by
    rw [List.length_map, rowsOfClaim_length, h]
  have hmem : r ∈ (rowsOfClaim rows c).map Prod.fst := by
    rw [rowsOfClaim_map_fst, List.mem_filter, decide_eq_true_eq]
    exact ⟨hr, hc⟩
  have ⟨x, hx⟩ := List.length_eq_one_iff.mp hlength
  rw [hx, List.mem_singleton] at hmem
  rw [hx, hmem]

theorem mem_matched :
    (r, s) ∈ (sweptIds fromRows toRows).flatMap (matchedOf fromRows toRows) ↔
      ClaimPair fromRows toRows r s := by
  rw [List.mem_flatMap]
  constructor
  case mp =>
    intro ⟨c, hc, hmem⟩
    rcases (mem_sweptIds.mp hc).cases with hd | ⟨hd, hf, ht⟩
    · rw [matchedOf, if_pos hd] at hmem
      cases hmem
    · have ⟨x, i, hx⟩ := rowsOfClaim_one hf
      have ⟨y, j, hy⟩ := rowsOfClaim_one ht
      have hxm : (x, i) ∈ rowsOfClaim fromRows c := by rw [hx]; exact List.mem_cons_self
      have hym : (y, j) ∈ rowsOfClaim toRows c := by rw [hy]; exact List.mem_cons_self
      rw [rowsOfClaim, List.mem_filter, decide_eq_true_eq] at hxm hym
      rw [matchedOf, if_neg hd, hx, hy] at hmem
      dsimp only at hmem
      split_ifs at hmem with hkey
      · rw [List.mem_singleton, Prod.mk.injEq] at hmem
        rw [hmem.1, hmem.2]
        exact ⟨List.fst_mem_of_mem_zipIdx hxm.1, List.fst_mem_of_mem_zipIdx hym.1,
          ⟨c, hxm.2, hym.2, hf, ht⟩, hkey⟩
      · cases hmem
  case mpr =>
    intro h
    have ⟨c, hr, hs, hf, ht⟩ := h.claim
    have hd : c ∉ duplicatedIds fromRows toRows := by
      rw [mem_duplicatedIds]
      omega
    refine ⟨c, mem_sweptIds.mpr (.inr ⟨by omega, by omega⟩), ?_⟩
    have ⟨x, i, hx⟩ := rowsOfClaim_one hf
    have ⟨y, j, hy⟩ := rowsOfClaim_one ht
    have hxr := filter_of_one h.fromRow hr hf
    have hys := filter_of_one h.toRow hs ht
    rw [hx, List.map_singleton, List.cons.injEq] at hxr
    rw [hy, List.map_singleton, List.cons.injEq] at hys
    have hxr' : x = r := hxr.1
    have hys' : y = s := hys.1
    rw [matchedOf, if_neg hd, hx, hy, hxr', hys']
    dsimp only
    rw [if_pos h.tupleKey]
    exact List.mem_cons_self

def digestIs (d : String) (r : EdgeRow) : Bool := r.digest = d

theorem digestIs_of_ne {d : String} {r : EdgeRow} (h : r.digest ≠ d) : ¬digestIs d r = true :=
  mt of_decide_eq_true h

theorem cancel_digest (available : String → Nat) (rows : List EdgeRow) (d : String) :
    (cancel available rows).residual.filter (digestIs d) =
        (rows.filter (digestIs d)).drop (available d) ∧
      (cancel available rows).remaining d = available d - rows.countP (digestIs d) := by
  induction rows generalizing available with
  | nil => simp [cancel]
  | cons r rs ih =>
    rw [cancel]
    by_cases hr : r.digest = d
    · have hdr : digestIs d r = true := decide_eq_true hr
      rw [List.filter_cons_of_pos hdr, List.countP_cons_of_pos hdr]
      split_ifs with havail
      · have hpos : 0 < available d := hr ▸ havail
        have hone : decrement available r.digest d = available d - 1 := if_pos hr.symm
        have hstep : available d = available d - 1 + 1 := by omega
        obtain ⟨hresidual, hremaining⟩ := ih (decrement available r.digest)
        rw [hone] at hresidual hremaining
        constructor
        · rw [hresidual, hstep, List.drop_succ_cons, Nat.add_sub_cancel]
        · rw [hremaining]
          omega
      · have hzero : available d = 0 := by
          rw [hr] at havail
          omega
        dsimp only
        rw [List.filter_cons_of_pos hdr, (ih available).1, (ih available).2, hzero]
        simp only [List.drop_zero, Nat.zero_sub, and_self]
    · have hdr := digestIs_of_ne hr
      rw [List.filter_cons_of_neg hdr, List.countP_cons_of_neg hdr]
      split_ifs with havail
      · have hsame : decrement available r.digest d = available d :=
          if_neg fun h => hr h.symm
        rw [← hsame]
        exact ih _
      · dsimp only
        rw [List.filter_cons_of_neg hdr]
        exact ih available

theorem cancel_length (available : String → Nat) (rows : List EdgeRow) :
    (cancel available rows).unchanged + (cancel available rows).residual.length = rows.length := by
  induction rows generalizing available with
  | nil => rfl
  | cons r rs ih =>
    rw [cancel]
    split_ifs with havail
    · have h := ih (decrement available r.digest)
      dsimp only
      rw [List.length_cons]
      omega
    · have h := ih available
      dsimp only
      rw [List.length_cons, List.length_cons]
      omega

theorem residualTo_filter (remaining : String → Nat) (rows : List EdgeRow) (d : String) :
    (residualTo remaining rows).filter (digestIs d) =
      (rows.filter (digestIs d)).take (remaining d) := by
  induction rows generalizing remaining with
  | nil => simp [residualTo]
  | cons r rs ih =>
    by_cases hr : r.digest = d
    · have hdr : digestIs d r = true := decide_eq_true hr
      rw [residualTo, List.filter_cons_of_pos hdr]
      split_ifs with havail
      · have hpos : 0 < remaining d := hr ▸ havail
        have hone : decrement remaining r.digest d = remaining d - 1 := if_pos hr.symm
        have hstep : remaining d = remaining d - 1 + 1 := by omega
        rw [List.filter_cons_of_pos hdr, ih, hone, hstep, List.take_succ_cons,
          Nat.add_sub_cancel]
      · have hzero : remaining d = 0 := by
          rw [hr] at havail
          omega
        rw [ih, hzero, List.take_zero, List.take_zero]
    · have hdr := digestIs_of_ne hr
      rw [residualTo, List.filter_cons_of_neg hdr]
      split_ifs with havail
      · have hsame : decrement remaining r.digest d = remaining d :=
          if_neg fun h => hr h.symm
        rw [List.filter_cons_of_neg hdr, ih, hsame]
      · rw [ih]

/-- The rows of a group's from side that no equal digest cancels. -/
def restFrom (fromBucket toBucket : List EdgeRow) : List EdgeRow :=
  (cancel (byDigest (digestOrdered toBucket)) (digestOrdered fromBucket)).residual

/-- The rows of a group's to side that no equal digest cancels. -/
def restTo (fromBucket toBucket : List EdgeRow) : List EdgeRow :=
  residualTo (cancel (byDigest (digestOrdered toBucket)) (digestOrdered fromBucket)).remaining
    (digestOrdered toBucket)

theorem digestOrdered_filter (rows : List EdgeRow) (d : String) :
    (digestOrdered rows).filter (digestIs d) = rows.filter (digestIs d) := by
  apply sortedBy_filter
  intro a b ha hb
  rw [digestIs, decide_eq_true_eq] at ha hb
  rw [ha, hb]

theorem digestOrdered_count (rows : List EdgeRow) (d : String) :
    (digestOrdered rows).countP (digestIs d) = rows.countP (digestIs d) := by
  rw [List.countP_eq_length_filter, digestOrdered_filter, ← List.countP_eq_length_filter]

theorem restFrom_filter (fromBucket toBucket : List EdgeRow) (d : String) :
    (restFrom fromBucket toBucket).filter (digestIs d) =
      (fromBucket.filter (digestIs d)).drop (toBucket.countP (digestIs d)) := by
  unfold restFrom
  rw [(cancel_digest _ _ d).1, digestOrdered_filter]
  change (fromBucket.filter (digestIs d)).drop ((digestOrdered toBucket).countP (digestIs d)) = _
  rw [digestOrdered_count]

theorem restTo_filter (fromBucket toBucket : List EdgeRow) (d : String) :
    (restTo fromBucket toBucket).filter (digestIs d) =
      (toBucket.filter (digestIs d)).take
        (toBucket.countP (digestIs d) - fromBucket.countP (digestIs d)) := by
  unfold restTo
  rw [residualTo_filter, digestOrdered_filter, (cancel_digest _ _ d).2, digestOrdered_count]
  change (toBucket.filter (digestIs d)).take
    ((digestOrdered toBucket).countP (digestIs d) - _) = _
  rw [digestOrdered_count]

theorem eq_singleton_iff :
    rows = [r] ↔ rows.filter (digestIs r.digest) = [r] ∧
      ∀ d, d ≠ r.digest → rows.filter (digestIs d) = [] := by
  constructor
  case mp =>
    intro h
    rw [h]
    refine ⟨by simp [digestIs], ?_⟩
    intro d hd
    simp [digestIs, Ne.symm hd]
  case mpr =>
    intro ⟨hone, hothers⟩
    rw [← hone, eq_comm, List.filter_eq_self]
    intro x hx
    by_contra hxr
    rw [digestIs, decide_eq_true_eq] at hxr
    have hmem : x ∈ rows.filter (digestIs x.digest) := by
      rw [List.mem_filter, digestIs, decide_eq_true_eq]
      exact ⟨hx, rfl⟩
    rw [hothers x.digest hxr] at hmem
    cases hmem

/-- A group in which one row is left on each side: `r`, the last of a digest that the
from side has once more, and `s`, the first of one that the to side has once more. -/
structure LeftOver (fromBucket toBucket : List EdgeRow) (r s : EdgeRow) : Prop where
  fromRow : (fromBucket.filter (digestIs r.digest)).getLast? = some r
  fromSurplus : fromBucket.countP (digestIs r.digest) = toBucket.countP (digestIs r.digest) + 1
  fromOthers : ∀ d, d ≠ r.digest →
    fromBucket.countP (digestIs d) ≤ toBucket.countP (digestIs d)
  toRow : (toBucket.filter (digestIs s.digest)).head? = some s
  toSurplus : toBucket.countP (digestIs s.digest) = fromBucket.countP (digestIs s.digest) + 1
  toOthers : ∀ d, d ≠ s.digest →
    toBucket.countP (digestIs d) ≤ fromBucket.countP (digestIs d)

theorem drop_eq_singleton {n : Nat} :
    rows.drop n = [r] ↔ rows.length = n + 1 ∧ rows.getLast? = some r := by
  constructor
  case mp =>
    intro h
    have hlength := congrArg List.length h
    rw [List.length_drop, List.length_singleton] at hlength
    refine ⟨by omega, ?_⟩
    have hlast := congrArg List.getLast? h
    rw [List.getLast?_drop, if_neg (by omega)] at hlast
    exact hlast
  case mpr =>
    intro ⟨hlength, hlast⟩
    have ⟨ys, hys⟩ := List.getLast?_eq_some_iff.mp hlast
    rw [hys, List.length_append, List.length_singleton] at hlength
    rw [hys, List.drop_append_of_le_length (by omega), List.drop_eq_nil_of_le (by omega)]
    rfl

theorem take_eq_singleton {n : Nat} (hn : n ≤ rows.length) :
    rows.take n = [s] ↔ n = 1 ∧ rows.head? = some s := by
  constructor
  case mp =>
    intro h
    have hlength := congrArg List.length h
    rw [List.length_take, List.length_singleton, Nat.min_eq_left hn] at hlength
    refine ⟨hlength, ?_⟩
    have hhead := congrArg List.head? h
    rw [hlength, List.head?_take, if_neg (by omega)] at hhead
    exact hhead
  case mpr =>
    intro ⟨hone, hhead⟩
    have ⟨ys, hys⟩ := List.head?_eq_some_iff.mp hhead
    rw [hone, hys]
    rfl

theorem rest_eq_singletons {fromBucket toBucket : List EdgeRow} :
    (restFrom fromBucket toBucket = [r] ∧ restTo fromBucket toBucket = [s]) ↔
      LeftOver fromBucket toBucket r s := by
  have hfrom : restFrom fromBucket toBucket = [r] ↔
      ((fromBucket.countP (digestIs r.digest) = toBucket.countP (digestIs r.digest) + 1 ∧
        (fromBucket.filter (digestIs r.digest)).getLast? = some r) ∧
      ∀ d, d ≠ r.digest → fromBucket.countP (digestIs d) ≤ toBucket.countP (digestIs d)) := by
    rw [eq_singleton_iff, restFrom_filter, drop_eq_singleton, ← List.countP_eq_length_filter]
    simp only [restFrom_filter, List.drop_eq_nil_iff, ← List.countP_eq_length_filter]
  have hto : restTo fromBucket toBucket = [s] ↔
      ((toBucket.countP (digestIs s.digest) - fromBucket.countP (digestIs s.digest) = 1 ∧
        (toBucket.filter (digestIs s.digest)).head? = some s) ∧
      ∀ d, d ≠ s.digest → toBucket.countP (digestIs d) ≤ fromBucket.countP (digestIs d)) := by
    rw [eq_singleton_iff, restTo_filter, take_eq_singleton (by
      rw [← List.countP_eq_length_filter]
      omega)]
    apply and_congr_right
    intro _
    apply forall₂_congr
    intro d _
    rw [restTo_filter, List.take_eq_nil_iff, ← List.length_eq_zero_iff,
      ← List.countP_eq_length_filter]
    omega
  rw [hfrom, hto]
  constructor
  case mp =>
    intro ⟨⟨⟨hfs, hfr⟩, hfo⟩, ⟨hts, htr⟩, hto⟩
    exact ⟨hfr, hfs, hfo, htr, by omega, hto⟩
  case mpr =>
    intro h
    have hts := h.toSurplus
    exact ⟨⟨⟨h.fromSurplus, h.fromRow⟩, h.fromOthers⟩, ⟨by omega, h.toRow⟩, h.toOthers⟩

def keptFrom (fromRows toRows : List EdgeRow) : List EdgeRow :=
  fromRows.filter (keptRow fromRows toRows)

def keptTo (fromRows toRows : List EdgeRow) : List EdgeRow :=
  toRows.filter (keptRow fromRows toRows)

theorem sweep_unconsumed (fromRows toRows : List EdgeRow) (start : EdgeSection) :
    let sweep := (sweptIds fromRows toRows).foldl (sweepClaim fromRows toRows) { result := start }
    unconsumed fromRows sweep.consumedFrom = keptFrom fromRows toRows ∧
      unconsumed toRows sweep.consumedTo = keptTo fromRows toRows := by
  have h := sweep_consumed (sweptIds fromRows toRows) (fun c => mem_sweptIds.mp)
    { result := start }
  have hkept : ∀ r : EdgeRow, (match r.claimId with
      | none => true
      | some c => decide (c ∉ sweptIds fromRows toRows)) = keptRow fromRows toRows r := by
    intro r
    unfold keptRow
    cases r.claimId with
    | none => rfl
    | some c =>
      simp only [mem_sweptIds, decide_not]
  dsimp only
  rw [h.1, h.2, List.nil_append, List.nil_append, unconsumed_eq, unconsumed_eq]
  simp only [hkept]
  exact ⟨rfl, rfl⟩

theorem sweep_matched (fromRows toRows : List EdgeRow) (start : EdgeSection) :
    ((sweptIds fromRows toRows).foldl (sweepClaim fromRows toRows) { result := start }).matched =
      (sweptIds fromRows toRows).flatMap (matchedOf fromRows toRows) := by
  rw [foldl_appends Sweep.matched _ (sweepClaim_matched fromRows toRows)]
  rfl

def bucketRest (fromRows toRows : List EdgeRow) (k : IdentityKey) : List EdgeRow × List EdgeRow :=
  (restFrom (bucketOf fromRows k) (bucketOf toRows k),
    restTo (bucketOf fromRows k) (bucketOf toRows k))

def matchedChange (pair : EdgeRow × EdgeRow) : List EdgeChangedItem :=
  if pair.1.digest = pair.2.digest then []
  else [edgeChangedItem pair.1 pair.2 .claimId false]

/-- Two rows that are left alone in their group may stand for one edge unless they
carry claim ids and the identity maps do not explain the new one. -/
def mayPair (fromSide toSide : GraphDiffSide) (r s : EdgeRow) : Bool :=
  !(r.claimId.isSome && s.claimId.isSome) || reidentificationPermitted fromSide toSide r s

def residualChange (fromSide toSide : GraphDiffSide) (residual : List EdgeRow × List EdgeRow) :
    List EdgeChangedItem :=
  match residual with
  | ([r], [s]) =>
      if mayPair fromSide toSide r s then
        [edgeChangedItem r s .tuple (r.claimId.isSome && s.claimId.isSome)]
      else []
  | _ => []

theorem compareMatched_changed (result : EdgeSection) (pair : EdgeRow × EdgeRow) :
    (compareMatched result pair).changed = result.changed ++ matchedChange pair := by
  unfold compareMatched matchedChange
  split_ifs
  · rw [List.append_nil]
  · rfl

theorem resolveEdgeResidual_changed (fromSide toSide : GraphDiffSide) (result : EdgeSection)
    (rs ss : List EdgeRow) : (resolveEdgeResidual fromSide toSide result rs ss).changed =
      result.changed ++ residualChange fromSide toSide (rs, ss) := by
  cases rs with
  | nil =>
    cases ss with
    | nil | cons s ss => simp [resolveEdgeResidual, residualChange]
  | cons r rs =>
    cases ss with
    | nil => simp [resolveEdgeResidual, residualChange]
    | cons s ss =>
      cases rs with
      | cons r' rs => simp [resolveEdgeResidual, residualChange, appendAmbiguous]
      | nil =>
        cases ss with
        | cons s' ss => simp [resolveEdgeResidual, residualChange, appendAmbiguous]
        | nil =>
          unfold resolveEdgeResidual residualChange mayPair
          cases hboth : r.claimId.isSome && s.claimId.isSome with
          | false => simp [appendChangedEdge, hboth]
          | true =>
            cases hpermitted : reidentificationPermitted fromSide toSide r s with
            | false => simp [appendAmbiguous, hboth, hpermitted]
            | true => simp [appendChangedEdge, hboth, hpermitted]

theorem compareBucket_changed (fromSide toSide : GraphDiffSide) (fromRows toRows : List EdgeRow)
    (result : EdgeSection) (k : IdentityKey) :
    (compareBucket fromSide toSide fromRows toRows result k).changed =
      result.changed ++ residualChange fromSide toSide (bucketRest fromRows toRows k) := by
  unfold compareBucket
  rw [resolveEdgeResidual_changed]
  rfl

theorem collectEdges_changed (fromSide toSide : GraphDiffSide) (fromRows toRows : List EdgeRow) :
    (collectEdges fromSide toSide fromRows toRows).changed =
      ((sweptIds fromRows toRows).flatMap (matchedOf fromRows toRows)).flatMap matchedChange ++
        (tupleKeys (keptFrom fromRows toRows) (keptTo fromRows toRows)).flatMap fun k =>
          residualChange fromSide toSide
            (bucketRest (keptFrom fromRows toRows) (keptTo fromRows toRows) k) := by
  unfold collectEdges
  have hrest := sweep_unconsumed fromRows toRows
    { counts := { fromTotal := fromRows.length, toTotal := toRows.length } }
  dsimp only at hrest ⊢
  rw [hrest.1, hrest.2, sweep_matched,
    foldl_appends SectionDiff.changed _ (compareBucket_changed fromSide toSide _ _),
    foldl_appends SectionDiff.changed _ compareMatched_changed]
  have hsweep : ∀ s, ((sweptIds fromRows toRows).foldl (sweepClaim fromRows toRows) s).result.changed =
      s.result.changed := by
    intro s
    rw [foldl_appends (fun s : Sweep => s.result.changed) (fun _ => []) (by
      intro s c
      rw [sweepClaim_changed, List.append_nil])]
    simp
  rw [hsweep]
  rfl

theorem mem_changed {fromSide toSide : GraphDiffSide} {item : EdgeChangedItem} :
    item ∈ (collectEdges fromSide toSide fromRows toRows).changed ↔
      (∃ r s, ClaimPair fromRows toRows r s ∧ r.digest ≠ s.digest ∧
        item = edgeChangedItem r s .claimId false) ∨
      ∃ k r s, LeftOver (bucketOf (keptFrom fromRows toRows) k)
          (bucketOf (keptTo fromRows toRows) k) r s ∧ mayPair fromSide toSide r s = true ∧
        item = edgeChangedItem r s .tuple (r.claimId.isSome && s.claimId.isSome) := by
  rw [collectEdges_changed, List.mem_append, List.mem_flatMap, List.mem_flatMap]
  apply or_congr
  · constructor
    · intro ⟨⟨r, s⟩, hpair, hitem⟩
      unfold matchedChange at hitem
      split_ifs at hitem with hd
      · cases hitem
      · exact ⟨r, s, mem_matched.mp hpair, hd, List.mem_singleton.mp hitem⟩
    · intro ⟨r, s, hpair, hd, hitem⟩
      refine ⟨(r, s), mem_matched.mpr hpair, ?_⟩
      unfold matchedChange
      rw [if_neg hd, List.mem_singleton]
      exact hitem
  · constructor
    · intro ⟨k, _, hitem⟩
      unfold residualChange at hitem
      split at hitem
      · rename_i r s heq
        split_ifs at hitem with hpair
        · exact ⟨k, r, s, rest_eq_singletons.mp (Prod.mk.inj heq), hpair,
            List.mem_singleton.mp hitem⟩
        · cases hitem
      · cases hitem
    · intro ⟨k, r, s, hleft, hpair, hitem⟩
      have ⟨hr, hs⟩ := rest_eq_singletons.mpr hleft
      have hkey : k ∈ tupleKeys (keptFrom fromRows toRows) (keptTo fromRows toRows) := by
        have hmem := List.mem_of_getLast? hleft.fromRow
        rw [List.mem_filter, bucketOf, List.mem_filter, decide_eq_true_eq] at hmem
        unfold tupleKeys
        rw [(sortedBy_perm _ _).mem_iff, List.mem_dedup, List.mem_map]
        exact ⟨r, List.mem_append_left _ hmem.1.1, hmem.1.2⟩
      refine ⟨k, hkey, ?_⟩
      unfold bucketRest residualChange
      rw [hr, hs]
      dsimp only
      rw [if_pos hpair, List.mem_singleton]
      exact hitem

end Cruxible.StateDiffs
