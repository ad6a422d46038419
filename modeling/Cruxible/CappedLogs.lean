import Cruxible.PythonDict
import Mathlib.Algebra.BigOperators.Group.List.Basic
import Mathlib.Algebra.GroupWithZero.Nat

/-!
# Append-only logs with a cap for each key

A log keeps, for each key, its first record and the most recent ones up to a cap, in
the order in which they were appended. Truncating after every append keeps the same
records as truncating the whole history once.
-/
namespace Cruxible.CappedLogs
open PythonDict

variable {α β κ : Type}

/-- The first record and the last `cap - 1` ones. -/
def capped (cap : Nat) (xs : List α) : List α :=
  if xs.length ≤ cap then xs else xs.take 1 ++ xs.drop (xs.length - (cap - 1))

theorem capped_map (cap : Nat) (f : α → β) (xs : List α) :
    capped cap (xs.map f) = (capped cap xs).map f := by
  unfold capped
  rw [List.length_map]
  split_ifs
  · rfl
  · rw [List.map_append, List.map_take, List.map_drop]

variable {xs records : List α} {k : κ}

theorem length_capped {cap : Nat} (hcap : 2 ≤ cap) (h : cap < xs.length) :
    (capped cap xs).length = cap := by
  have hnot : ¬xs.length ≤ cap := by omega
  rw [capped, if_neg hnot, List.length_append, List.length_take, List.length_drop]
  omega

theorem capped_sublist {cap : Nat} (hcap : 2 ≤ cap) (xs : List α) : (capped cap xs).Sublist xs := by
  unfold capped
  split_ifs with h
  · exact List.Sublist.refl xs
  · have hsplit : xs.take 1 ++ xs.drop 1 = xs := List.take_append_drop 1 xs
    have hlate : (xs.drop (xs.length - (cap - 1))).Sublist (xs.drop 1) := by
      have hshift : xs.length - (cap - 1) = 1 + (xs.length - cap) := by omega
      rw [hshift, ← List.drop_drop]
      exact List.drop_sublist _ _
    have hboth := (List.Sublist.refl (xs.take 1)).append hlate
    rwa [hsplit] at hboth

/-- The first record stays. -/
theorem capped_head? (cap : Nat) (xs : List α) : (capped cap xs).head? = xs.head? := by
  unfold capped
  split_ifs with h
  · rfl
  · cases xs with
    | nil => simp at h
    | cons x xs => simp

/-- Truncating before an append changes nothing. -/
theorem capped_append {cap : Nat} (hcap : 2 ≤ cap) (xs ys : List α) :
    capped cap (capped cap xs ++ ys) = capped cap (xs ++ ys) := by
  by_cases hshort : xs.length ≤ cap
  · have hsame : capped cap xs = xs := if_pos hshort
    rw [hsame]
  · have hlong : cap < xs.length := by omega
    have hlength := length_capped hcap hlong
    have hcapped : capped cap xs = xs.take 1 ++ xs.drop (xs.length - (cap - 1)) := if_neg hshort
    have hfirst : (xs.take 1).length = 1 := by
      rw [List.length_take]
      omega
    have hright : capped cap (xs ++ ys) =
        xs.take 1 ++ (xs ++ ys).drop (xs.length + ys.length - (cap - 1)) := by
      rw [capped, if_neg (by rw [List.length_append]; omega), List.length_append,
        List.take_append_of_le_length (by omega)]
    cases ys with
    | nil =>
      rw [List.append_nil, List.append_nil, capped, if_pos (by omega)]
    | cons y ys =>
      have hmore : ¬(capped cap xs ++ y :: ys).length ≤ cap := by
        rw [List.length_append, List.length_cons]
        omega
      rw [hright, capped, if_neg hmore, List.length_append, hlength,
        List.take_append_of_le_length (by omega), hcapped,
        List.take_append_of_le_length (by omega), List.take_take, List.append_assoc]
      congr 1
      have hdrop : cap + (y :: ys).length - (cap - 1) = 1 + (y :: ys).length := by
        rw [List.length_cons]
        omega
      have htail : (xs.drop (xs.length - (cap - 1)) ++ y :: ys) =
          (xs ++ y :: ys).drop (xs.length - (cap - 1)) := by
        rw [List.drop_append_of_le_length (by omega)]
      rw [hdrop, ← List.drop_drop, List.drop_left' hfirst, htail, List.drop_drop]
      congr 1
      omega

variable [DecidableEq κ] (identity : α → Option κ) (cap : Nat)

/-- `positions_by_identity[identity].append(position)`. -/
def filePosition (d : Dict κ (List Nat)) (r : α × Nat) : Dict κ (List Nat) :=
  match identity r.1 with
  | none => d
  | some k => d.set k ((d.get? k).getD [] ++ [r.2])

def positionsByIdentity (records : List α) : Dict κ (List Nat) :=
  records.zipIdx.foldl (filePosition identity) ∅

def keptPositions (records : List α) : List Nat :=
  (positionsByIdentity identity records).entries.flatMap fun b => capped cap b.2

def droppedCount (records : List α) : Nat :=
  ((positionsByIdentity identity records).entries.map fun b =>
    b.2.length - (capped cap b.2).length).sum

/-- The kept records in their original order, with the number of dropped ones. -/
def boundedLog (records : List α) : List α × Nat :=
  ((records.zipIdx.filter fun r => r.2 ∈ keptPositions identity cap records).map Prod.fst,
    droppedCount identity cap records)

/-- The records of a key. -/
def ofKey (k : κ) (records : List α) : List α := records.filter fun r => identity r = some k

/-- The records of a key with their positions. -/
def placed (k : κ) (records : List α) : List (α × Nat) :=
  records.zipIdx.filter fun r => identity r.1 = some k

variable {identity cap}

theorem placed_map_fst (k : κ) (records : List α) :
    (placed identity k records).map Prod.fst = ofKey identity k records := by
  unfold placed ofKey
  have hfst := List.zipIdx_map_fst 0 records
  conv_rhs => rw [← hfst]
  rw [List.filter_map]
  rfl

theorem placed_snd_nodup (k : κ) (records : List α) :
    ((placed identity k records).map Prod.snd).Nodup := by
  have hsub : (placed identity k records).Sublist records.zipIdx := List.filter_sublist
  have hall : (records.zipIdx.map Prod.snd).Nodup := by
    rw [List.zipIdx_map_snd]
    exact List.nodup_range'
  exact hall.sublist (hsub.map Prod.snd)

theorem get?_foldl_filePosition (rs : List (α × Nat)) (d : Dict κ (List Nat)) (k : κ) :
    ((rs.foldl (filePosition identity) d).get? k).getD [] =
      (d.get? k).getD [] ++ (rs.filter fun r => identity r.1 = some k).map Prod.snd := by
  induction rs generalizing d with
  | nil => simp
  | cons r rs ih =>
    rw [List.foldl_cons, ih]
    unfold filePosition
    cases hr : identity r.1 with
    | none => simp [hr]
    | some k' =>
      by_cases hk : k' = k
      · subst hk
        simp [hr]
      · simp [hr, hk, Dict.get?_set_of_ne]

theorem mem_keys_foldl_filePosition (rs : List (α × Nat)) (d : Dict κ (List Nat)) (k : κ) :
    k ∈ (rs.foldl (filePosition identity) d).keys ↔
      k ∈ d.keys ∨ ∃ r ∈ rs, identity r.1 = some k := by
  induction rs generalizing d with
  | nil => simp
  | cons r rs ih =>
    rw [List.foldl_cons, ih]
    unfold filePosition
    cases hr : identity r.1 with
    | none => simp [hr]
    | some k' =>
      simp only [Dict.mem_keys, Dict.get?_set]
      by_cases hk : k' = k
      · subst hk
        simp [hr]
      · simp [hr, hk]

theorem mem_positionsByIdentity {positions : List Nat}
    (h : (k, positions) ∈ (positionsByIdentity identity records).entries) :
    positions = (placed identity k records).map Prod.snd := by
  have hget : ((records.zipIdx.foldl (filePosition identity) ∅).get? k).getD [] = _ :=
    get?_foldl_filePosition records.zipIdx ∅ k
  have hlook : (positionsByIdentity identity records).get? k = some positions :=
    Dict.get?_of_mem h
  unfold positionsByIdentity at hlook
  rw [hlook] at hget
  simpa [placed] using hget

theorem mem_keys_positionsByIdentity :
    k ∈ (positionsByIdentity identity records).keys ↔ ∃ r ∈ records, identity r = some k := by
  unfold positionsByIdentity
  rw [mem_keys_foldl_filePosition]
  constructor
  · rintro (h | ⟨r, hr, hk⟩)
    · simp [Dict.mem_keys] at h
    · have hmem : r.1 ∈ records.zipIdx.map Prod.fst := List.mem_map_of_mem hr
      rw [List.zipIdx_map_fst] at hmem
      exact ⟨r.1, hmem, hk⟩
  · rintro ⟨r, hr, hk⟩
    rw [← List.zipIdx_map_fst 0 records] at hr
    obtain ⟨x, hx, hxr⟩ := List.mem_map.mp hr
    exact .inr ⟨x, hx, by rw [hxr, hk]⟩

theorem mem_keptPositions {i : Nat} :
    i ∈ keptPositions identity cap records ↔
      ∃ k, i ∈ capped cap ((placed identity k records).map Prod.snd) := by
  unfold keptPositions
  rw [List.mem_flatMap]
  constructor
  · rintro ⟨⟨k, positions⟩, hb, hi⟩
    rw [mem_positionsByIdentity hb] at hi
    exact ⟨k, hi⟩
  · rintro ⟨k, hi⟩
    have hne : ∃ r ∈ records, identity r = some k := by
      by_contra hnone
      have hnil : placed identity k records = [] := by
        have hof : (placed identity k records).map Prod.fst = _ := placed_map_fst k records
        have hempty : ofKey identity k records = [] := by
          unfold ofKey
          rw [List.filter_eq_nil_iff]
          intro r hr hk
          exact hnone ⟨r, hr, of_decide_eq_true hk⟩
        rw [hempty] at hof
        exact List.map_eq_nil_iff.mp hof
      rw [hnil] at hi
      simp [capped] at hi
    rw [← mem_keys_positionsByIdentity] at hne
    have ⟨positions, hget⟩ := Dict.mem_keys.mp hne
    have hmem := Dict.mem_of_get? hget
    refine ⟨(k, positions), hmem, ?_⟩
    rw [mem_positionsByIdentity hmem]
    exact hi

/-- A sublist is what a test for its own images keeps, where images are distinct. -/
theorem filter_mem_map_of_sublist {γ : Type} [DecidableEq γ] {f : α → γ} {ys : List α}
    (hsub : ys.Sublist xs) (hn : (xs.map f).Nodup) :
    (xs.filter fun x => decide (f x ∈ ys.map f)) = ys := by
  induction hsub with
  | slnil => rfl
  | @cons ys xs x hsub ih =>
    rw [List.map_cons, List.nodup_cons] at hn
    have hout : f x ∉ ys.map f := fun hmem => hn.1 ((hsub.map f).subset hmem)
    rw [List.filter_cons_of_neg (by simpa using hout)]
    exact ih hn.2
  | @cons_cons ys xs x hsub ih =>
    rw [List.map_cons, List.nodup_cons] at hn
    rw [List.filter_cons_of_pos (by simp)]
    congr 1
    have hrest : ∀ y ∈ xs, decide (f y ∈ (x :: ys).map f) = decide (f y ∈ ys.map f) := by
      intro y hy
      have hne : f y ≠ f x := fun heq => hn.1 (heq ▸ List.mem_map_of_mem hy)
      simp [hne]
    rw [List.filter_congr hrest]
    exact ih hn.2

/-- Positions belong to one key. -/
theorem mem_placed_unique {k' : κ} {r : α × Nat} (hr : r ∈ placed identity k records)
    (hi : r.2 ∈ (placed identity k' records).map Prod.snd) : k = k' := by
  have ⟨r', hr', hsame⟩ := List.mem_map.mp hi
  have ⟨hmem, hk⟩ := List.mem_filter.mp hr
  have ⟨hmem', hk'⟩ := List.mem_filter.mp hr'
  have hn : (records.zipIdx.map Prod.snd).Nodup := by
    rw [List.zipIdx_map_snd]
    exact List.nodup_range'
  have heq : r' = r := List.inj_on_of_nodup_map hn hmem' hmem hsame
  rw [heq] at hk'
  have hkk := (of_decide_eq_true hk).symm.trans (of_decide_eq_true hk')
  exact Option.some.inj hkk

/-- The log keeps of each key what the cap keeps of it. -/
theorem ofKey_boundedLog (hcap : 2 ≤ cap) (k : κ) (records : List α) :
    ofKey identity k (boundedLog identity cap records).1 =
      capped cap (ofKey identity k records) := by
  unfold boundedLog
  have hfst : ofKey identity k ((records.zipIdx.filter fun r =>
      decide (r.2 ∈ keptPositions identity cap records)).map Prod.fst) =
      ((placed identity k records).filter fun r =>
        decide (r.2 ∈ keptPositions identity cap records)).map Prod.fst := by
    unfold ofKey placed
    rw [List.filter_map, List.filter_filter, List.filter_filter]
    congr 2
    funext r
    exact Bool.and_comm _ _
  have hkept : ∀ r ∈ placed identity k records,
      decide (r.2 ∈ keptPositions identity cap records) =
        decide (r.2 ∈ (capped cap (placed identity k records)).map Prod.snd) := by
    intro r hr
    rw [decide_eq_decide, mem_keptPositions, ← capped_map]
    constructor
    · rintro ⟨k', hi⟩
      have hsub := capped_sublist hcap ((placed identity k' records).map Prod.snd)
      rwa [mem_placed_unique hr (hsub.subset hi)]
    · exact fun hi => ⟨k, hi⟩
  rw [hfst, List.filter_congr hkept,
    filter_mem_map_of_sublist (capped_sublist hcap _) (placed_snd_nodup k records), ← capped_map,
    placed_map_fst]

theorem boundedLog_sublist (records : List α) :
    (boundedLog identity cap records).1.Sublist records := by
  unfold boundedLog
  have hsub : (records.zipIdx.filter fun r =>
      decide (r.2 ∈ keptPositions identity cap records)).Sublist records.zipIdx :=
    List.filter_sublist
  have hmap := hsub.map Prod.fst
  rwa [List.zipIdx_map_fst] at hmap

/-- Only records with a key are kept. -/
theorem identified_of_mem_boundedLog (hcap : 2 ≤ cap) {r : α}
    (hr : r ∈ (boundedLog identity cap records).1) : ∃ k, identity r = some k := by
  have ⟨x, hx, hxr⟩ := List.mem_map.mp hr
  have ⟨hmem, hkept⟩ := List.mem_filter.mp hx
  have ⟨k, hi⟩ := mem_keptPositions.mp (of_decide_eq_true hkept)
  have hi' := (capped_sublist hcap _).subset hi
  have ⟨y, hy, hyx⟩ := List.mem_map.mp hi'
  have ⟨hymem, hk⟩ := List.mem_filter.mp hy
  have hn : (records.zipIdx.map Prod.snd).Nodup := by
    rw [List.zipIdx_map_snd]
    exact List.nodup_range'
  have heq : y = x := List.inj_on_of_nodup_map hn hymem hmem hyx
  rw [heq] at hk
  exact ⟨k, hxr ▸ of_decide_eq_true hk⟩

/-- Records with keys are counted key by key. -/
theorem length_eq_sum_ofKey {keys : List κ} (hn : keys.Nodup)
    (h : ∀ x ∈ xs, ∃ k ∈ keys, identity x = some k) :
    xs.length = (keys.map fun k => (ofKey identity k xs).length).sum := by
  induction keys generalizing xs with
  | nil =>
    cases xs with
    | nil => rfl
    | cons x xs =>
      have ⟨k, hk, _⟩ := h x List.mem_cons_self
      cases hk
  | cons k keys ih =>
    rw [List.nodup_cons] at hn
    have hsplit := List.length_eq_length_filter_add (l := xs) (fun x => identity x = some k)
    have hothers : ∀ x ∈ xs.filter fun x => !decide (identity x = some k),
        ∃ k' ∈ keys, identity x = some k' := by
      intro x hx
      have ⟨hmem, hne⟩ := List.mem_filter.mp hx
      have ⟨k', hk', hid⟩ := h x hmem
      rcases List.mem_cons.mp hk' with heq | htail
      · rw [heq] at hid
        simp [hid] at hne
      · exact ⟨k', htail, hid⟩
    have hrest := ih hn.2 hothers
    have hsame : ∀ k' ∈ keys, (ofKey identity k' (xs.filter fun x =>
        !decide (identity x = some k))).length = (ofKey identity k' xs).length := by
      intro k' hk'
      have hne : k' ≠ k := by
        rintro rfl
        exact hn.1 hk'
      unfold ofKey
      rw [List.filter_filter]
      congr 1
      refine List.filter_congr fun x _ => ?_
      by_cases hid : identity x = some k'
      · simp [hid, hne]
      · simp [hid]
    rw [List.map_cons, List.sum_cons, hsplit]
    rw [List.map_congr_left hsame] at hrest
    rw [hrest]
    rfl

theorem droppedCount_eq (records : List α) :
    droppedCount identity cap records =
      ((positionsByIdentity identity records).keys.map fun k =>
        (ofKey identity k records).length - (capped cap (ofKey identity k records)).length).sum := by
  unfold droppedCount Dict.keys
  rw [List.map_map]
  congr 1
  refine List.map_congr_left fun b hb => ?_
  have hpositions := mem_positionsByIdentity (show (b.1, b.2) ∈ _ from hb)
  have hsnd : ((placed identity b.1 records).map Prod.snd).length =
      (ofKey identity b.1 records).length := by
    rw [← placed_map_fst, List.length_map, List.length_map]
  have hcapped : (capped cap ((placed identity b.1 records).map Prod.snd)).length =
      (capped cap (ofKey identity b.1 records)).length := by
    rw [← placed_map_fst, capped_map, capped_map, List.length_map, List.length_map]
  rw [Function.comp_apply, hpositions, hsnd, hcapped]

/-- Every record with a key is kept or counted as dropped. -/
theorem boundedLog_count (hcap : 2 ≤ cap) (records : List α) :
    (boundedLog identity cap records).1.length + (boundedLog identity cap records).2 =
      (records.filter fun r => (identity r).isSome).length := by
  have hn : (positionsByIdentity identity records).keys.Nodup :=
    (positionsByIdentity identity records).nodup
  have hkeys : ∀ r ∈ records, ∀ k, identity r = some k →
      k ∈ (positionsByIdentity identity records).keys :=
    fun r hr k hk => mem_keys_positionsByIdentity.mpr ⟨r, hr, hk⟩
  have hlogKeys : ∀ r ∈ (boundedLog identity cap records).1,
      ∃ k ∈ (positionsByIdentity identity records).keys, identity r = some k := by
    intro r hr
    have ⟨k, hk⟩ := identified_of_mem_boundedLog hcap hr
    exact ⟨k, hkeys r ((boundedLog_sublist records).subset hr) k hk, hk⟩
  have hallKeys : ∀ r ∈ records.filter fun r => (identity r).isSome,
      ∃ k ∈ (positionsByIdentity identity records).keys, identity r = some k := by
    intro r hr
    have ⟨hmem, hsome⟩ := List.mem_filter.mp hr
    have ⟨k, hk⟩ := Option.isSome_iff_exists.mp hsome
    exact ⟨k, hkeys r hmem k hk, hk⟩
  have hlog := length_eq_sum_ofKey hn hlogKeys
  have hall := length_eq_sum_ofKey hn hallKeys
  have hfilter : ∀ k, ofKey identity k (records.filter fun r => (identity r).isSome) =
      ofKey identity k records := by
    intro k
    unfold ofKey
    rw [List.filter_filter]
    refine List.filter_congr fun r _ => ?_
    by_cases hk : identity r = some k
    · simp [hk]
    · simp [hk]
  have hdropped : (boundedLog identity cap records).2 = _ := droppedCount_eq records
  rw [hdropped, hlog, hall, ← List.sum_map_add]
  congr 1
  refine List.map_congr_left fun k _ => ?_
  rw [ofKey_boundedLog hcap, hfilter]
  have hle := (capped_sublist hcap (ofKey identity k records)).length_le
  omega

/-- What a log and its count of dropped records keep of the history. -/
structure Retains (identity : α → Option κ) (cap : Nat) (history log : List α) (dropped : Nat) :
    Prop where
  kept : ∀ k, ofKey identity k log = capped cap (ofKey identity k history)
  ordered : log.Sublist history
  identified : ∀ r ∈ log, ∃ k, identity r = some k
  counted : log.length + dropped = (history.filter fun r => (identity r).isSome).length

theorem retains_boundedLog (hcap : 2 ≤ cap) (history : List α) :
    Retains identity cap history (boundedLog identity cap history).1
      (boundedLog identity cap history).2 where
  kept k := ofKey_boundedLog hcap k history
  ordered := boundedLog_sublist history
  identified _ hr := identified_of_mem_boundedLog hcap hr
  counted := boundedLog_count hcap history

/-- One append. -/
theorem Retains.append (hcap : 2 ≤ cap) {history log : List α} {dropped : Nat}
    (h : Retains identity cap history log dropped) (batch : List α) :
    Retains identity cap (history ++ batch) (boundedLog identity cap (log ++ batch)).1
      (dropped + (boundedLog identity cap (log ++ batch)).2) := by
  constructor
  case kept =>
    intro k
    have hsplit : ofKey identity k (log ++ batch) =
        ofKey identity k log ++ ofKey identity k batch := List.filter_append ..
    have hsplit' : ofKey identity k (history ++ batch) =
        ofKey identity k history ++ ofKey identity k batch := List.filter_append ..
    rw [ofKey_boundedLog hcap, hsplit, hsplit', h.kept, capped_append hcap]
  case ordered =>
    exact (boundedLog_sublist _).trans (h.ordered.append (List.Sublist.refl batch))
  case identified => exact fun r hr => identified_of_mem_boundedLog hcap hr
  case counted =>
    have hcount : (boundedLog identity cap (log ++ batch)).1.length +
        (boundedLog identity cap (log ++ batch)).2 = _ := boundedLog_count hcap (log ++ batch)
    have hlog : (log.filter fun r => (identity r).isSome) = log := by
      rw [List.filter_eq_self]
      intro r hr
      have ⟨k, hk⟩ := h.identified r hr
      rw [hk]
      rfl
    have hbefore := h.counted
    rw [List.filter_append, List.length_append] at hcount ⊢
    rw [hlog] at hcount
    omega

end Cruxible.CappedLogs
