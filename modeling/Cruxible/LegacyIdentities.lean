import Cruxible.ClaimIndexes

/-!
# Claim ids of re-pulled legacy images

The reconcile map keeps, for every tuple, the claim ids of its parallel edges by
position. A walk over the image from the map that a first walk has left takes
every id from the map: the candidate at each position is the id that the first
walk assigned there, and it is as free as it was then.
-/
namespace Cruxible.LegacyIdentities
open PythonDict GraphImages ClaimIndexes
open Cruxible.Graph (blank)

/-- The ids that were assigned under a tuple, in order. -/
def claimsAt (assigned : List EdgeData) (k : IdentityKey) : List String :=
  assigned.filterMap fun e => if e.identity = some k then e.claimId else none

theorem foldl_placeId (ids existing : List String) (n : Nat) (hn : n ≤ existing.length) :
    (ids.zipIdx n).foldl placeId existing =
      existing.take n ++ ids ++ existing.drop (n + ids.length) := by
  induction ids generalizing existing n with
  | nil => simp
  | cons c ids ih =>
    rw [List.zipIdx_cons, List.foldl_cons]
    by_cases hlt : n < existing.length
    · have hplace : placeId existing (c, n) = existing.set n c := if_pos hlt
      rw [hplace, ih (existing.set n c) (n + 1) (by simp; omega)]
      have htake : (existing.set n c).take (n + 1) = existing.take n ++ [c] := by
        rw [List.take_succ_eq_append_getElem (by simpa using hlt),
          List.take_set_of_le (Nat.le_refl n)]
        simp
      have hdrop : (existing.set n c).drop (n + 1 + ids.length) =
          existing.drop (n + (c :: ids).length) := by
        rw [List.drop_set_of_lt (by omega), List.length_cons]
        congr 1
        omega
      rw [htake, hdrop]
      simp
    · have hplace : placeId existing (c, n) = existing ++ [c] := if_neg hlt
      have hend : n = existing.length := by omega
      have htake : (existing ++ [c]).take (n + 1) = existing ++ [c] :=
        List.take_of_length_le (by simp; omega)
      have hdrop : (existing ++ [c]).drop (n + 1 + ids.length) = [] :=
        List.drop_eq_nil_of_le (by simp; omega)
      rw [hplace, ih (existing ++ [c]) (n + 1) (by simp; omega), htake, hdrop, hend]
      simp

/-- The new positions first, and what the old list has beyond them. -/
theorem overwriteIds_eq (existing ids : List String) :
    overwriteIds existing ids = ids ++ existing.drop ids.length := by
  unfold overwriteIds
  rw [foldl_placeId ids existing 0 (Nat.zero_le _)]
  simp

theorem get?_groupEdge (grouped : IdentityMap) (e : EdgeData) (k : IdentityKey) :
    ((groupEdge grouped e).get? k).getD [] = (grouped.get? k).getD [] ++ claimsAt [e] k := by
  unfold groupEdge
  cases hc : e.claimId with
  | none => simp [claimsAt, hc]
  | some c =>
    cases hi : e.identity with
    | none => simp [claimsAt, hi]
    | some k' =>
      simp only [Dict.get?_set]
      by_cases hk : k' = k
      · simp [claimsAt, hi, hc, hk]
      · simp [claimsAt, hi, hk]

theorem claimsAt_cons (e : EdgeData) (es : List EdgeData) (k : IdentityKey) :
    claimsAt (e :: es) k = claimsAt [e] k ++ claimsAt es k := by
  unfold claimsAt
  rw [← List.filterMap_append, List.singleton_append]

theorem get?_groupAssigned (assigned : List EdgeData) (k : IdentityKey) :
    ((groupAssigned assigned).get? k).getD [] = claimsAt assigned k := by
  have hfold : ∀ (assigned : List EdgeData) (grouped : IdentityMap),
      ((assigned.foldl groupEdge grouped).get? k).getD [] =
        (grouped.get? k).getD [] ++ claimsAt assigned k := by
    intro assigned
    induction assigned with
    | nil => simp [claimsAt]
    | cons e es ih =>
      intro grouped
      rw [List.foldl_cons, ih, get?_groupEdge, claimsAt_cons e es, List.append_assoc]
  unfold groupAssigned
  rw [hfold]
  rfl

theorem get?_foldl_recordEntry (bs : List (IdentityKey × List String))
    (hbs : (bs.map Prod.fst).Nodup) (entries : IdentityMap) (k : IdentityKey) :
    (bs.foldl recordEntry entries).get? k =
      ((Bindings.get? bs k).map (overwriteIds ((entries.get? k).getD []))).or
        (entries.get? k) := by
  induction bs generalizing entries with
  | nil => simp [Bindings.get?]
  | cons b bs ih =>
    obtain ⟨k', ids⟩ := b
    rw [List.map_cons, List.nodup_cons] at hbs
    rw [List.foldl_cons, ih hbs.2, recordEntry, Dict.get?_set]
    by_cases hk : k' = k
    · have hnone : Bindings.get? bs k = none := by
        rw [Bindings.get?_eq_none, ← hk]
        exact hbs.1
      simp [Bindings.get?, hk, hnone]
    · simp [Bindings.get?, hk]

theorem get?_recordMintedIdentities (entries : IdentityMap) (assigned : List EdgeData)
    (k : IdentityKey) :
    ((recordMintedIdentities entries assigned).get? k).getD [] =
      claimsAt assigned k ++ ((entries.get? k).getD []).drop (claimsAt assigned k).length := by
  have hgroup := get?_groupAssigned assigned k
  have hread : (groupAssigned assigned).get? k =
      Bindings.get? (groupAssigned assigned).entries k := rfl
  unfold recordMintedIdentities
  rw [get?_foldl_recordEntry _ (groupAssigned assigned).nodup, ← hread, ← hgroup]
  cases (groupAssigned assigned).get? k with
  | none => simp
  | some ids =>
    rw [Option.map_some, Option.some_or, Option.getD_some, Option.getD_some, overwriteIds_eq]

variable {assigned : List EdgeData} {c : String} {k : IdentityKey} {e : EdgeData}
  {mint : Nat → String} {reuse : IdentityMap} {s : Walk} {entries : IdentityMap} {position : Nat}
  {es : List EdgeData} {claimIds : List String}

theorem reusable_recorded (h : (claimsAt assigned k)[position]? = some c) :
    reusable (recordMintedIdentities entries assigned) k position = c := by
  unfold reusable
  rw [get?_recordMintedIdentities, List.getElem?_append_left, h, Option.getD_some]
  exact (List.getElem?_eq_some_iff.mp h).1

theorem reusable_beyond (h : (claimsAt assigned k).length ≤ position) :
    reusable (recordMintedIdentities entries assigned) k position =
      reusable entries k position := by
  unfold reusable
  rw [get?_recordMintedIdentities, List.getElem?_append_right h, List.getElem?_drop]
  congr 2
  omega

theorem set_self {d : IdentityMap} {ids : List String} (h : d.get? k = some ids) :
    d.set k ids = d := by
  apply Dict.ext_entries
  have hbindings : ∀ {bs : Bindings IdentityKey (List String)}, Bindings.get? bs k = some ids →
      Bindings.set bs k ids = bs := by
    intro bs
    induction bs with
    | nil => simp [Bindings.get?]
    | cons b bs ih =>
      obtain ⟨k', ids'⟩ := b
      intro hget
      by_cases hk : k' = k
      · simp only [Bindings.get?, hk, if_true, Option.some.injEq] at hget
        simp [Bindings.set, hk, hget]
      · simp only [Bindings.get?, hk, if_false] at hget
        simp [Bindings.set, hk, ih hget]
  exact hbindings h

/-- Recording the same ids once more changes nothing. -/
theorem record_again (entries : IdentityMap) (assigned : List EdgeData) :
    recordMintedIdentities (recordMintedIdentities entries assigned) assigned =
      recordMintedIdentities entries assigned := by
  have hkeep : ∀ b ∈ (groupAssigned assigned).entries,
      recordEntry (recordMintedIdentities entries assigned) b =
        recordMintedIdentities entries assigned := by
    intro b hb
    have hread : Bindings.get? (groupAssigned assigned).entries b.1 = some b.2 :=
      Dict.get?_of_mem hb
    have hold : (recordMintedIdentities entries assigned).get? b.1 =
        some (overwriteIds ((entries.get? b.1).getD []) b.2) := by
      unfold recordMintedIdentities
      rw [get?_foldl_recordEntry _ (groupAssigned assigned).nodup, hread]
      rfl
    unfold recordEntry
    apply set_self
    rw [hold, Option.getD_some, overwriteIds_eq, overwriteIds_eq]
    simp
  have hfold : ∀ {bs : List (IdentityKey × List String)} {m : IdentityMap},
      (∀ b ∈ bs, recordEntry m b = m) → bs.foldl recordEntry m = m := by
    intro bs m hbs
    induction bs with
    | nil => rfl
    | cons b bs ih =>
      rw [List.foldl_cons, hbs b List.mem_cons_self]
      exact ih fun x hx => hbs x (List.mem_cons_of_mem b hx)
  exact hfold hkeep

/-- From the positions that a walk has reached on, the map has the ids that were
then assigned. -/
def Agrees (reuse : IdentityMap) (seen : Dict IdentityKey Nat) (assigned : List EdgeData) : Prop :=
  ∀ k position c, (claimsAt assigned k)[position]? = some c →
    reusable reuse k ((seen.get? k).getD 0 + position) = c

/-- What a walk that does not raise assigns, and that any walk from an agreeing
map assigns it again. -/
structure Replays (reuse : IdentityMap) (mint : Nat → String) (es : List EdgeData) (s : Walk)
    (assigned : List EdgeData) : Prop where
  assigns : (assignClaimIds (backfiller mint) reuse es s).2.1.assigned = s.assigned ++ assigned
  counted : ∀ k, (claimsAt assigned k).length =
    es.countP fun e => e.claimId = none && e.identity = some k
  again : ∀ reuse' mint' (t : Walk), t.claimIds = s.claimIds → t.seen = s.seen →
    Agrees reuse' s.seen assigned →
    (assignClaimIds (backfiller mint') reuse' es t).1 =
        (assignClaimIds (backfiller mint) reuse es s).1 ∧
      (assignClaimIds (backfiller mint') reuse' es t).2.1.claimIds =
        (assignClaimIds (backfiller mint) reuse es s).2.1.claimIds ∧
      (assignClaimIds (backfiller mint') reuse' es t).2.1.minted = t.minted ∧
      (assignClaimIds (backfiller mint') reuse' es t).2.1.assigned = t.assigned ++ assigned ∧
      (assignClaimIds (backfiller mint') reuse' es t).2.2 = none

theorem backfill_cons (es : List EdgeData) (he : e.claimId = none) (hk : e.identity = some k)
    (hpick : (backfiller mint).pick (reusable reuse k ((s.seen.get? k).getD 0)) s.claimIds
      s.minted = some c) (hc : blank c = false) :
    assignClaimIds (backfiller mint) reuse (e :: es) s =
      ({ e with claimId := some c } :: (assignClaimIds (backfiller mint) reuse es
          (s.take (backfiller mint) k ((s.seen.get? k).getD 0)
            (reusable reuse k ((s.seen.get? k).getD 0)) e c)).1,
        (assignClaimIds (backfiller mint) reuse es
          (s.take (backfiller mint) k ((s.seen.get? k).getD 0)
            (reusable reuse k ((s.seen.get? k).getD 0)) e c)).2) := by
  have hidless : (backfiller mint).idless e.claimId = true := by simp [backfiller, he]
  have hrefuses : (backfiller mint).refuses c = false := hc
  rw [assignClaimIds, if_pos hidless]
  simp only [hk, hpick, hrefuses, Bool.false_eq_true, if_false]

theorem backfill_skip (he : e.claimId ≠ none) :
    assignClaimIds (backfiller mint) reuse (e :: es) s =
      (e :: (assignClaimIds (backfiller mint) reuse es s).1,
        (assignClaimIds (backfiller mint) reuse es s).2) := by
  have hidless : (backfiller mint).idless e.claimId = false := by simp [backfiller, he]
  rw [assignClaimIds, if_neg (by simp [hidless])]

theorem claimsAt_take (hk : e.identity = some k) (assigned : List EdgeData) (k' : IdentityKey) :
    claimsAt ({ e with claimId := some c } :: assigned) k' =
      if k = k' then c :: claimsAt assigned k' else claimsAt assigned k' := by
  have hsame : ({ e with claimId := some c } : EdgeData).identity = some k := hk
  by_cases hkk : k = k'
  · rw [if_pos hkk, claimsAt, List.filterMap_cons_some (b := c) (by simp [hsame, hkk])]
    rfl
  · rw [if_neg hkk, claimsAt, List.filterMap_cons_none (by simp [hsame, hkk])]
    rfl

theorem agrees_take {seen : Dict IdentityKey Nat} (hk : e.identity = some k)
    (h : Agrees reuse seen ({ e with claimId := some c } :: assigned)) :
    reusable reuse k ((seen.get? k).getD 0) = c ∧
      Agrees reuse (seen.set k ((seen.get? k).getD 0 + 1)) assigned := by
  constructor
  · apply h k 0 c
    rw [claimsAt_take hk, if_pos rfl]
    rfl
  · intro k' position d hd
    rw [Dict.get?_set]
    by_cases hkk : k = k'
    · rw [if_pos hkk, Option.getD_some, hkk]
      have hnext := h k' (position + 1) d (by
        rw [claimsAt_take hk, if_pos hkk, List.getElem?_cons_succ]
        exact hd)
      rw [← hnext]
      congr 1
      omega
    · rw [if_neg hkk]
      apply h k' position d
      rw [claimsAt_take hk, if_neg hkk]
      exact hd

theorem turn_of_ok (hc : e.claimId = none)
    (hok : (assignClaimIds (backfiller mint) reuse (e :: es) s).2.2 = none) :
    ∃ k c, e.identity = some k ∧ (backfiller mint).pick
      (reusable reuse k ((s.seen.get? k).getD 0)) s.claimIds s.minted = some c ∧
      blank c = false := by
  have hidless : (backfiller mint).idless e.claimId = true := by simp [backfiller, hc]
  rw [assignClaimIds, if_pos hidless] at hok
  cases hk : e.identity with
  | none =>
    rw [hk] at hok
    cases hok
  | some k =>
    simp only [hk] at hok
    cases hpick : (backfiller mint).pick (reusable reuse k ((s.seen.get? k).getD 0)) s.claimIds
        s.minted with
    | none => simp [backfiller, ite_eq_iff] at hpick
    | some c =>
      refine ⟨k, c, rfl, hpick, ?_⟩
      by_contra hblank
      have hrefuses : (backfiller mint).refuses c = true := by simpa [backfiller] using hblank
      simp only [hpick, hrefuses, if_true] at hok
      cases hok

theorem replays_backfill (hmint : FreshMints mint reuse claimIds)
    (hs : ∀ n, s.minted ≤ n → mint n ∉ s.claimIds)
    (hok : (assignClaimIds (backfiller mint) reuse es s).2.2 = none) :
    ∃ assigned, Replays reuse mint es s assigned := by
  induction es generalizing s with
  | nil =>
    refine ⟨[], by simp [assignClaimIds], by simp [claimsAt], ?_⟩
    intro reuse' mint' t hids _ _
    simp [assignClaimIds, hids]
  | cons e es ih =>
    cases hc : e.claimId with
    | some d =>
      have hne : e.claimId ≠ none := by simp [hc]
      rw [backfill_skip hne] at hok
      obtain ⟨assigned, h⟩ := ih hs hok
      refine ⟨assigned, ?_, ?_, ?_⟩
      · rw [backfill_skip hne]
        exact h.assigns
      · intro k
        rw [h.counted, List.countP_cons_of_neg (by simp [hc])]
      · intro reuse' mint' t hids hseen hagrees
        obtain ⟨h₁, h₂⟩ := h.again reuse' mint' t hids hseen hagrees
        rw [backfill_skip hne, backfill_skip hne, h₁]
        exact ⟨rfl, h₂⟩
    | none =>
      obtain ⟨k, c, hk, hpick, hblank⟩ := turn_of_ok hc hok
      have hne : c ≠ "" := by
        rintro rfl
        cases hblank
      obtain ⟨hfresh, hnext⟩ := picks_backfiller hmint k _ _ _ c hs hpick
      have hturn := backfill_cons es hc hk hpick hblank
      rw [hturn] at hok
      obtain ⟨assigned, h⟩ := ih (s := s.take (backfiller mint) k _ _ e c) hnext hok
      refine ⟨{ e with claimId := some c } :: assigned, ?_, ?_, ?_⟩
      · rw [hturn, h.assigns]
        simp [Walk.take]
      · intro k'
        rw [claimsAt_take hk, List.countP_cons, ← h.counted]
        by_cases hkk : k = k' <;> simp [hc, hk, hkk]
      · intro reuse' mint' t hids hseen hagrees
        obtain ⟨hcandidate, hrest⟩ := agrees_take hk hagrees
        rw [← hseen] at hcandidate
        have hfree : c ∉ t.claimIds := by
          rw [hids]
          exact hfresh
        have hpick' : (backfiller mint').pick
            (reusable reuse' k ((t.seen.get? k).getD 0)) t.claimIds t.minted =
              some c := by
          simp [backfiller, hcandidate, hne, hfree]
        have hturn' := backfill_cons es hc hk hpick' hblank
        obtain ⟨h₁, h₂, h₃, h₄, h₅⟩ := h.again reuse' mint'
          (t.take (backfiller mint') k ((t.seen.get? k).getD 0)
            (reusable reuse' k ((t.seen.get? k).getD 0)) e c)
          (by simp [Walk.take, hids]) (by simp [Walk.take, hseen]) hrest
        rw [hturn, hturn', h₁]
        refine ⟨rfl, h₂, ?_, ?_, h₅⟩
        · rw [h₃]
          simp [Walk.take, hcandidate, hne, hfree]
        · rw [h₄]
          simp [Walk.take]

/-- The ids that the edges without one have in the result. -/
def given (es result : List EdgeData) : List String :=
  (es.zip result).filterMap fun p => if p.1.claimId = none then p.2.claimId else none

theorem given_cons (e f : EdgeData) (es result : List EdgeData) :
    given (e :: es) (f :: result) =
      (if e.claimId = none then f.claimId.toList else []) ++ given es result := by
  unfold given
  rw [List.zip_cons_cons, List.filterMap_cons]
  split_ifs
  · cases f.claimId <;> rfl
  · rfl

/-- The candidate when no edge has it yet, else a minted id. -/
def Picked (mint : Nat → String) (ids : List String) (candidate c : String) : Prop :=
  (candidate ≠ "" ∧ candidate ∉ ids → c = candidate) ∧
    (candidate = "" ∨ candidate ∈ ids → ∃ n, c = mint n)

theorem picked_of_pick {candidate : String} {ids : List String} {minted : Nat}
    (h : (backfiller mint).pick candidate ids minted = some c) : Picked mint ids candidate c := by
  simp only [backfiller, Bool.or_eq_true, decide_eq_true_eq] at h
  split_ifs at h with hgap
  · exact ⟨fun hfree => absurd hgap (not_or.mpr hfree), fun _ => ⟨_, (Option.some.inj h).symm⟩⟩
  · exact ⟨fun _ => (Option.some.inj h).symm, fun hgap' => absurd hgap' hgap⟩

/-- Each edge of the result has an id: the one it had, else the one that the map has at its
position among the id-less edges of its tuple if no edge has it yet, else a minted one. -/
structure Identified (reuse : IdentityMap) (mint : Nat → String) (start : Walk)
    (es result : List EdgeData) : Prop where
  length : result.length = es.length
  each : ∀ i e, es[i]? = some e → ∃ c, result[i]? = some { e with claimId := some c } ∧
    (∀ d, e.claimId = some d → c = d) ∧
    (e.claimId = none → ∃ k candidate, e.identity = some k ∧
      candidate = reusable reuse k ((start.seen.get? k).getD 0 +
        (es.take i).countP fun e => e.claimId = none && e.identity = some k) ∧
      Picked mint (start.claimIds ++ given (es.take i) (result.take i)) candidate c)

theorem identified_backfill
    (hok : (assignClaimIds (backfiller mint) reuse es s).2.2 = none) :
    Identified reuse mint s es (assignClaimIds (backfiller mint) reuse es s).1 := by
  induction es generalizing s with
  | nil => exact ⟨rfl, by simp⟩
  | cons e es ih =>
    cases hc : e.claimId with
    | some d =>
      have hne : e.claimId ≠ none := by simp [hc]
      rw [backfill_skip hne] at hok ⊢
      obtain ⟨hlength, heach⟩ := ih hok
      refine ⟨by simp [hlength], ?_⟩
      intro i f hf
      cases i with
      | zero =>
        obtain rfl : e = f := by simpa using hf
        exact ⟨d, by simp [← hc], by simp [hc], by simp [hc]⟩
      | succ i =>
        obtain ⟨c, hresult, hsome, hnone⟩ := heach i f (by simpa using hf)
        refine ⟨c, by simpa using hresult, hsome, fun hf => ?_⟩
        obtain ⟨k, candidate, hk, hcandidate, hpick⟩ := hnone hf
        refine ⟨k, candidate, hk, by simpa [hc] using hcandidate, ?_⟩
        rw [List.take_succ_cons, List.take_succ_cons, given_cons, if_neg hne, List.nil_append]
        exact hpick
    | none =>
      obtain ⟨k, c, hk, hpick, hblank⟩ := turn_of_ok hc hok
      rw [backfill_cons es hc hk hpick hblank] at hok ⊢
      obtain ⟨hlength, heach⟩ := ih hok
      refine ⟨by simp [hlength], ?_⟩
      intro i f hf
      cases i with
      | zero =>
        obtain rfl : e = f := by simpa using hf
        exact ⟨c, by simp, by simp [hc], fun _ => ⟨k, _, hk, rfl, by
          simpa [given] using picked_of_pick hpick⟩⟩
      | succ i =>
        obtain ⟨d, hresult, hsome, hnone⟩ := heach i f (by simpa using hf)
        refine ⟨d, by simpa using hresult, hsome, fun hf => ?_⟩
        obtain ⟨k', candidate, hk', hcandidate, hpick'⟩ := hnone hf
        refine ⟨k', candidate, hk', ?_, ?_⟩
        · rw [hcandidate, Walk.take, Dict.get?_set, List.take_succ_cons, List.countP_cons]
          by_cases hkk : k = k'
          · simp only [hkk, if_true, Option.getD_some, hc, hk, decide_true, Bool.and_self]
            congr 1
            omega
          · simp [hkk, hk, hc]
        · rw [List.take_succ_cons, List.take_succ_cons, given_cons, if_pos hc, ← List.append_assoc]
          exact hpick'

/-- The ids of the map and the minted ones are not blank, and the ends of an id-less edge are
spelled `type:id`. -/
structure Spelled (reuse : IdentityMap) (mint : Nat → String) (es : List EdgeData) : Prop where
  ends : ∀ e ∈ es, e.claimId = none → e.identity.isSome = true
  mapped : ∀ k position, reusable reuse k position = "" ∨
    blank (reusable reuse k position) = false
  minted : ∀ n, blank (mint n) = false

theorem backfill_total (h : Spelled reuse mint es) :
    (assignClaimIds (backfiller mint) reuse es s).2.2 = none := by
  induction es generalizing s with
  | nil => rfl
  | cons e es ih =>
    have hrest : Spelled reuse mint es :=
      ⟨fun f hf => h.ends f (List.mem_cons_of_mem e hf), h.mapped, h.minted⟩
    cases hc : e.claimId with
    | some d =>
      rw [backfill_skip (by simp [hc])]
      exact ih hrest
    | none =>
      obtain ⟨k, hk⟩ := Option.isSome_iff_exists.mp (h.ends e List.mem_cons_self hc)
      obtain ⟨c, hpick, hblank⟩ : ∃ c, (backfiller mint).pick
          (reusable reuse k ((s.seen.get? k).getD 0)) s.claimIds s.minted = some c ∧
            blank c = false := by
        simp only [backfiller, Bool.or_eq_true, decide_eq_true_eq]
        split_ifs with hgap
        · exact ⟨_, rfl, h.minted _⟩
        · exact ⟨_, rfl, (h.mapped k _).resolve_left (not_or.mp hgap).1⟩
      rw [backfill_cons es hc hk hpick hblank]
      exact ih hrest

/-- The map after a backfill has been recorded in it. -/
def updatedMap (g : EntityGraph) (reuse : IdentityMap) (mint : Nat → String) : IdentityMap :=
  recordMintedIdentities reuse (g.backfillMissingClaimIds reuse mint).2.1.assigned

/-- A backfill returns unless an id is blank or a node id is not spelled `type:id`, and it gives
every edge its id. After the recording of what it assigned, a second backfill of the same graph
gives every edge the same id, mints nothing, and leaves the map as it is. The map keeps the ids
beyond the positions that the image covers. -/
theorem backfill_is_stable (g : EntityGraph) (reuse : IdentityMap) (mint mint' : Nat → String)
    (hmint : FreshMints mint reuse g.claimIds) :
    (Spelled reuse mint g.edges → (g.backfillMissingClaimIds reuse mint).2.2 = none) ∧
    ((g.backfillMissingClaimIds reuse mint).2.2 = none →
      Identified reuse mint { claimIds := g.claimIds } g.edges
        (g.backfillMissingClaimIds reuse mint).1.edges ∧
      (g.backfillMissingClaimIds (updatedMap g reuse mint) mint').1 =
        (g.backfillMissingClaimIds reuse mint).1 ∧
      (g.backfillMissingClaimIds (updatedMap g reuse mint) mint').2.1.minted = 0 ∧
      (g.backfillMissingClaimIds (updatedMap g reuse mint) mint').2.2 = none ∧
      updatedMap g (updatedMap g reuse mint) mint' = updatedMap g reuse mint ∧
      ∀ k position,
        (g.edges.countP fun e => e.claimId = none && e.identity = some k) ≤ position →
          reusable (updatedMap g reuse mint) k position = reusable reuse k position) := by
  refine ⟨backfill_total, fun hok => ⟨identified_backfill hok, ?_⟩⟩
  have ⟨assigned, h⟩ := replays_backfill hmint (s := { claimIds := g.claimIds })
    (fun n _ => hmint.unused n) hok
  have hassigned : (g.backfillMissingClaimIds reuse mint).2.1.assigned = assigned := h.assigns
  have hupdated : updatedMap g reuse mint = recordMintedIdentities reuse assigned := by
    rw [updatedMap, hassigned]
  rw [hupdated]
  have hagrees : Agrees (recordMintedIdentities reuse assigned) ∅ assigned := by
    intro k position c hc
    have hstart : ((∅ : Dict IdentityKey Nat).get? k).getD 0 + position = position := by simp
    rw [hstart]
    exact reusable_recorded hc
  have ⟨h₁, h₂, h₃, h₄, h₅⟩ := h.again (recordMintedIdentities reuse assigned) mint'
    { claimIds := g.claimIds } rfl rfl hagrees
  have hagain : (g.backfillMissingClaimIds (recordMintedIdentities reuse assigned)
      mint').2.1.assigned = assigned := h₄
  refine ⟨?_, h₃, h₅, ?_, ?_⟩
  · unfold EntityGraph.backfillMissingClaimIds EntityGraph.assign
    simp only [h₁, h₂]
  · rw [updatedMap, hagain]
    exact record_again reuse assigned
  · intro k position hposition
    rw [← h.counted] at hposition
    exact reusable_beyond hposition

/-- Two parallel dependencies without claim ids. -/
def parallelGraph : EntityGraph where
  nodes := legacyImage.nodes
  edges :=
    [{ fromNode := "Service:a", toNode := "Service:b", key := .int 0,
       relationshipType := "depends_on" },
     { fromNode := "Service:a", toNode := "Service:b", key := .int 1,
       relationshipType := "depends_on" }]

/-- The map knows the first of three positions and keeps the third. -/
def recordedMap : IdentityMap :=
  Dict.ofList [(("depends_on", "Service", "a", "Service", "b"), ["CLM-a", "", "CLM-c"])]

theorem countedId_fresh : FreshMints countedId recordedMap parallelGraph.claimIds := by
  refine ⟨countedId_injective, fun n => List.not_mem_nil, ?_⟩
  intro n k position hsame
  have hmem : reusable recordedMap k position ∈ ["CLM-a", "", "CLM-c"] := by
    unfold reusable recordedMap
    rw [Dict.get?_ofList (by simp)]
    simp only [Bindings.get?]
    split_ifs with hk
    · rw [Option.getD_some]
      rcases position with _ | _ | _ | n <;> simp
    · simp
  have hzero : ∀ c ∈ (countedId n).toList.drop 4, c = '0' := by
    simp [countedId]
  rw [hsame] at hzero
  have hlength : ("CLM-" : String).toList <+: (countedId n).toList := by
    simp [countedId, String.toList_append]
  rw [hsame] at hlength
  simp only [List.mem_cons, List.not_mem_nil, or_false] at hmem
  rcases hmem with hmem | hmem | hmem
  · rw [hmem] at hzero
    exact absurd (hzero 'a' (by decide)) (by decide)
  · rw [hmem] at hlength
    exact absurd hlength (by decide)
  · rw [hmem] at hzero
    exact absurd (hzero 'c' (by decide)) (by decide)

theorem parallel_dependencies_are_stable :
    (parallelGraph.backfillMissingClaimIds recordedMap countedId).2.2 = none ∧
      (parallelGraph.backfillMissingClaimIds
          (updatedMap parallelGraph recordedMap countedId) countedId).1 =
        (parallelGraph.backfillMissingClaimIds recordedMap countedId).1 := by
  have hok : (parallelGraph.backfillMissingClaimIds recordedMap countedId).2.2 = none := by
    decide +kernel
  have hstable := (backfill_is_stable parallelGraph recordedMap countedId countedId
    countedId_fresh).2 hok
  exact ⟨hok, hstable.2.1⟩

end Cruxible.LegacyIdentities
