import Cruxible.LegacyIdentities

/-!
# Previewing the claim ids of a legacy image

The read path annotates an image from the reconcile map, the apply path backfills it.
The two walks count positions alike except at an edge whose claim id is the empty
text: the preview takes such an edge for id-less, the backfill passes over it.
-/
namespace Cruxible.IdentityPreviews
open PythonDict GraphImages ClaimIndexes LegacyIdentities
open Cruxible.Graph (blank)

/-- How an edge leaves the two walks: the preview first, the backfill second. -/
inductive Turn (mint : Nat → String) (e : EdgeData) : EdgeData → EdgeData → Prop
  | kept {c : String} (hc : e.claimId = some c) (hne : c ≠ "") : Turn mint e e e
  | reused {c : String} (hc : e.claimId = none) (hne : c ≠ "") (hmap : ∀ n, c ≠ mint n) :
      Turn mint e { e with claimId := some c } { e with claimId := some c }
  | minted (hc : e.claimId = none) (n : Nat) : Turn mint e e { e with claimId := some (mint n) }

/-- The turns of all edges, in order. -/
inductive Turns (mint : Nat → String) : List EdgeData → List EdgeData → List EdgeData → Prop
  | nil : Turns mint [] [] []
  | cons {e a b : EdgeData} {es as bs : List EdgeData} (head : Turn mint e a b)
      (tail : Turns mint es as bs) : Turns mint (e :: es) (a :: as) (b :: bs)

theorem Turns.at {mint : Nat → String} {es as bs : List EdgeData} (h : Turns mint es as bs)
    {i : Nat} {e : EdgeData} (he : es[i]? = some e) :
    ∃ a b, as[i]? = some a ∧ bs[i]? = some b ∧ Turn mint e a b := by
  induction h generalizing i with
  | nil => simp at he
  | @cons e' a b es as bs head tail ih =>
    cases i with
    | zero =>
      rw [List.getElem?_cons_zero, Option.some.injEq] at he
      exact ⟨a, b, rfl, rfl, he ▸ head⟩
    | succ i => exact ih (by simpa using he)

/-- Two walks that stand at the same positions and know the same ids, apart from the
minted ones. -/
structure InStep (mint : Nat → String) (t s : Walk) : Prop where
  seen : t.seen = s.seen
  claimIds : ∀ c, (∀ n, c ≠ mint n) → (c ∈ t.claimIds ↔ c ∈ s.claimIds)

variable {e : EdgeData} {es : List EdgeData} {mint : Nat → String} {reuse : IdentityMap} {s : Walk}
  {k : IdentityKey}

theorem not_blank_of_returns {c : String} (he : e.claimId = none) (hk : e.identity = some k)
    (hpick : (backfiller mint).pick (reusable reuse k ((s.seen.get? k).getD 0)) s.claimIds
      s.minted = some c) (hback : (assignClaimIds (backfiller mint) reuse (e :: es) s).2.2 = none) :
    blank c = false := by
  by_contra hblank
  have hidless : (backfiller mint).idless e.claimId = true := by simp [backfiller, he]
  have hrefuses : (backfiller mint).refuses c = true := by simpa [backfiller] using hblank
  rw [assignClaimIds, if_pos hidless] at hback
  simp only [hk, hpick, hrefuses, if_true] at hback
  cases hback

theorem annotate_cons (es : List EdgeData) {t : Walk} (he : e.claimId = none)
    (hk : e.identity = some k) :
    assignClaimIds annotator reuse (e :: es) t =
      if reusable reuse k ((t.seen.get? k).getD 0) = "" ∨
          reusable reuse k ((t.seen.get? k).getD 0) ∈ t.claimIds then
        (e :: (assignClaimIds annotator reuse es (t.skip k ((t.seen.get? k).getD 0))).1,
          (assignClaimIds annotator reuse es (t.skip k ((t.seen.get? k).getD 0))).2)
      else
        ({ e with claimId := some (reusable reuse k ((t.seen.get? k).getD 0)) } ::
            (assignClaimIds annotator reuse es (t.take annotator k ((t.seen.get? k).getD 0)
              (reusable reuse k ((t.seen.get? k).getD 0)) e
              (reusable reuse k ((t.seen.get? k).getD 0)))).1,
          (assignClaimIds annotator reuse es (t.take annotator k ((t.seen.get? k).getD 0)
            (reusable reuse k ((t.seen.get? k).getD 0)) e
            (reusable reuse k ((t.seen.get? k).getD 0)))).2) := by
  have hidless : annotator.idless e.claimId = true := by simp [annotator, he]
  rw [assignClaimIds, if_pos hidless]
  simp only [hk]
  split_ifs with hgap
  · have hpick : annotator.pick (reusable reuse k ((t.seen.get? k).getD 0)) t.claimIds t.minted =
        none := by
      simp only [annotator, Bool.or_eq_true, decide_eq_true_eq, if_pos hgap]
    rw [hpick]
  · have hpick : annotator.pick (reusable reuse k ((t.seen.get? k).getD 0)) t.claimIds t.minted =
        some (reusable reuse k ((t.seen.get? k).getD 0)) := by
      simp only [annotator, Bool.or_eq_true, decide_eq_true_eq, if_neg hgap]
    have hrefuses : annotator.refuses (reusable reuse k ((t.seen.get? k).getD 0)) = false := rfl
    rw [hpick]
    simp only [hrefuses, Bool.false_eq_true, if_false]

theorem turns_of_inStep {claimIds : List String} (hmint : FreshMints mint reuse claimIds) {t : Walk}
    (hempty : ∀ e ∈ es, e.claimId ≠ some "") (h : InStep mint t s)
    (hback : (assignClaimIds (backfiller mint) reuse es s).2.2 = none) :
    (assignClaimIds annotator reuse es t).2.2 = none ∧
      Turns mint es (assignClaimIds annotator reuse es t).1
        (assignClaimIds (backfiller mint) reuse es s).1 := by
  induction es generalizing t s with
  | nil => exact ⟨rfl, .nil⟩
  | cons e es ih =>
    have hrest := fun {t s : Walk} => ih (t := t) (s := s) fun x hx =>
      hempty x (List.mem_cons_of_mem e hx)
    cases hc : e.claimId with
    | some c =>
      have hne : c ≠ "" := by
        rintro rfl
        exact hempty e List.mem_cons_self hc
      have hidless : annotator.idless e.claimId = false := by simp [annotator, hc, hne]
      rw [backfill_skip (by simp [hc])] at hback ⊢
      obtain ⟨hok, hturns⟩ := hrest h hback
      rw [assignClaimIds, if_neg (by simp [hidless])]
      exact ⟨hok, .cons (.kept hc hne) hturns⟩
    | none =>
      cases hk : e.identity with
      | none =>
        have hidless : (backfiller mint).idless e.claimId = true := by simp [backfiller, hc]
        rw [assignClaimIds, if_pos hidless, hk] at hback
        cases hback
      | some k =>
        have hseen : (t.seen.get? k).getD 0 = (s.seen.get? k).getD 0 := by rw [h.seen]
        have hmap : ∀ n, reusable reuse k ((s.seen.get? k).getD 0) ≠ mint n :=
          fun n hn => hmint.unmapped n k _ hn.symm
        have hknown := h.claimIds _ hmap
        rw [annotate_cons es hc hk, hseen]
        by_cases hgap : reusable reuse k ((s.seen.get? k).getD 0) = "" ∨
            reusable reuse k ((s.seen.get? k).getD 0) ∈ s.claimIds
        · have hpick : (backfiller mint).pick (reusable reuse k ((s.seen.get? k).getD 0))
              s.claimIds s.minted = some (mint s.minted) := by
            simp only [backfiller, Bool.or_eq_true, decide_eq_true_eq, if_pos hgap]
          have hblank := not_blank_of_returns hc hk hpick hback
          rw [backfill_cons es hc hk hpick hblank] at hback ⊢
          rw [if_pos (by rw [hknown]; exact hgap)]
          have hstep : InStep mint (t.skip k ((s.seen.get? k).getD 0))
              (s.take (backfiller mint) k ((s.seen.get? k).getD 0)
                (reusable reuse k ((s.seen.get? k).getD 0)) e (mint s.minted)) := by
            constructor
            · simp only [Walk.skip, Walk.take, h.seen]
            · intro c hnot
              simp only [Walk.skip, Walk.take, List.mem_append, List.mem_singleton, hnot,
                or_false]
              exact h.claimIds c hnot
          obtain ⟨hok, hturns⟩ := hrest hstep hback
          exact ⟨hok, .cons (.minted hc s.minted) hturns⟩
        · have hpick : (backfiller mint).pick (reusable reuse k ((s.seen.get? k).getD 0))
              s.claimIds s.minted = some (reusable reuse k ((s.seen.get? k).getD 0)) := by
            simp only [backfiller, Bool.or_eq_true, decide_eq_true_eq, if_neg hgap]
          have hblank := not_blank_of_returns hc hk hpick hback
          rw [backfill_cons es hc hk hpick hblank] at hback ⊢
          rw [if_neg (by rw [hknown]; exact hgap)]
          have hstep : InStep mint
              (t.take annotator k ((s.seen.get? k).getD 0)
                (reusable reuse k ((s.seen.get? k).getD 0)) e
                (reusable reuse k ((s.seen.get? k).getD 0)))
              (s.take (backfiller mint) k ((s.seen.get? k).getD 0)
                (reusable reuse k ((s.seen.get? k).getD 0)) e
                (reusable reuse k ((s.seen.get? k).getD 0))) := by
            constructor
            · simp only [Walk.take, h.seen]
            · intro c hnot
              simp only [Walk.take, List.mem_append]
              rw [h.claimIds c hnot]
          obtain ⟨hok, hturns⟩ := hrest hstep hback
          rw [not_or] at hgap
          exact ⟨hok, .cons (.reused hc hgap.1 hmap) hturns⟩

/-- A claim id that the preview counts as one. -/
def hasId : Option String → Bool
  | some c => c ≠ ""
  | none => false

/-- How the preview `a` and the backfill `b` of an edge `e` have to agree: the same id
where the backfill takes one from the map, and none where it mints one. -/
structure AgreesAt (mint : Nat → String) (e a b : EdgeData) : Prop where
  same : ∀ c, (a.claimId ≠ e.claimId ∧ a.claimId = some c) ↔
    (b.claimId ≠ e.claimId ∧ b.claimId = some c ∧ ∀ n, c ≠ mint n)
  unresolved : hasId a.claimId = false ↔
    (b.claimId ≠ e.claimId ∧ ∃ n, b.claimId = some (mint n))

/-- The preview returns and agrees with the backfill at every edge. -/
structure Previews (g : EntityGraph) (reuse : IdentityMap) (mint : Nat → String) : Prop where
  returns : (g.annotateClaimIdsFromMap reuse).2.2 = none
  agrees : ∀ (i : Nat) (e : EdgeData), g.edges[i]? = some e →
    ∃ a b, (g.annotateClaimIdsFromMap reuse).1.edges[i]? = some a ∧
      (g.backfillMissingClaimIds reuse mint).1.edges[i]? = some b ∧ AgreesAt mint e a b

theorem agreesAt_of_turn {a b : EdgeData} (h : Turn mint e a b) : AgreesAt mint e a b := by
  cases h with
  | @kept c hc hne =>
    constructor
    · simp
    · simp [hasId, hc, hne]
  | @reused c hc hne hmap =>
    constructor
    · intro d
      simp only [hc, ne_eq, reduceCtorEq, not_false_eq_true, Option.some.injEq, true_and]
      constructor
      · rintro rfl
        exact ⟨rfl, hmap⟩
      · exact And.left
    · simp [hasId, hc, hne, hmap]
  | minted hc n =>
    constructor
    · intro d
      simp only [hc, ne_eq, not_true_eq_false, reduceCtorEq, and_false, false_iff,
        not_and, Option.some.injEq, not_forall, not_not]
      rintro _ rfl
      exact ⟨n, rfl⟩
    · simp [hasId, hc]

theorem backfill_keeps {i : Nat} (he : es[i]? = some e) (hc : e.claimId ≠ none) :
    (assignClaimIds (backfiller mint) reuse es s).1[i]? = some e := by
  induction es generalizing s i with
  | nil => simp at he
  | cons x xs ih =>
    unfold assignClaimIds
    cases i with
    | zero =>
      rw [List.getElem?_cons_zero, Option.some.injEq] at he
      have hidless : (backfiller mint).idless x.claimId = false := by simp [backfiller, he, hc]
      rw [if_neg (by simp [hidless]), List.getElem?_cons_zero, he]
    | succ i =>
      rw [List.getElem?_cons_succ] at he
      split_ifs with hidless
      · cases x.identity with
        | none => simpa using he
        | some k =>
          dsimp only
          split
          case h_1 => simpa using ih he
          case h_2 c _ =>
            by_cases hrefused : (backfiller mint).refuses c = true
            · simpa [hrefused] using he
            · simpa [hrefused] using ih he
      · simpa using ih he

/-- Where a backfill returns, the read path previews it exactly if no edge has the
empty text as its claim id. -/
theorem annotation_previews_backfill_iff (g : EntityGraph) (reuse : IdentityMap)
    (mint : Nat → String) (hmint : FreshMints mint reuse g.claimIds)
    (hback : (g.backfillMissingClaimIds reuse mint).2.2 = none) :
    Previews g reuse mint ↔ ∀ e ∈ g.edges, e.claimId ≠ some "" := by
  constructor
  · rintro ⟨_, hagrees⟩ e he hempty
    have ⟨i, hi⟩ := List.mem_iff_getElem?.mp he
    have ⟨a, b, _, hb, hat⟩ := hagrees i e hi
    have hkeep : (g.backfillMissingClaimIds reuse mint).1.edges[i]? = some e :=
      backfill_keeps hi (by simp [hempty])
    have hsame : b = e := Option.some.inj (hb.symm.trans hkeep)
    subst hsame
    cases hid : hasId a.claimId with
    | false => exact (hat.unresolved.mp hid).1 rfl
    | true =>
      cases hc : a.claimId with
      | none =>
        rw [hc] at hid
        cases hid
      | some c =>
        have hne : a.claimId ≠ b.claimId := by
          intro heq
          rw [heq, hempty] at hid
          cases hid
        exact ((hat.same c).mp ⟨hne, hc⟩).1 rfl
  · intro hempty
    have hstart : InStep mint { claimIds := g.claimIds } { claimIds := g.claimIds } :=
      ⟨rfl, fun _ _ => Iff.rfl⟩
    have ⟨hok, hturns⟩ := turns_of_inStep hmint hempty hstart hback
    refine ⟨hok, fun i e he => ?_⟩
    have ⟨a, b, ha, hb, hturn⟩ := hturns.at he
    exact ⟨a, b, ha, hb, agreesAt_of_turn hturn⟩

theorem parallel_dependencies_are_previewed : Previews parallelGraph recordedMap countedId :=
  (annotation_previews_backfill_iff parallelGraph recordedMap countedId countedId_fresh
    (by decide +kernel)).mpr (by simp [parallelGraph])

/-- A dependency whose claim id is the empty text. -/
def emptyIdGraph : EntityGraph where
  nodes := legacyImage.nodes
  edges :=
    [{ fromNode := "Service:a", toNode := "Service:b", key := .int 0,
       relationshipType := "depends_on", claimId := some "" }]
  claimIds := [""]

/-- The preview takes CLM-a from the map for the dependency; the backfill returns and
leaves it without one. -/
theorem empty_id_is_previewed_as_claim :
    (emptyIdGraph.backfillMissingClaimIds recordedMap countedId).2.2 = none ∧
      ((emptyIdGraph.annotateClaimIdsFromMap recordedMap).1.edges.map EdgeData.claimId) =
        [some "CLM-a"] ∧
      ((emptyIdGraph.backfillMissingClaimIds recordedMap countedId).1.edges.map
        EdgeData.claimId) = [some ""] ∧
      ¬Previews emptyIdGraph recordedMap countedId := by
  have hpreview : (emptyIdGraph.annotateClaimIdsFromMap recordedMap).1.edges.map
      EdgeData.claimId = [some "CLM-a"] := by decide +kernel
  have hbackfill : (emptyIdGraph.backfillMissingClaimIds recordedMap countedId).1.edges.map
      EdgeData.claimId = [some ""] := by decide +kernel
  refine ⟨by decide +kernel, hpreview, hbackfill, ?_⟩
  rintro ⟨_, hagrees⟩
  have ⟨a, b, ha, hb, hat⟩ := hagrees 0 _ rfl
  have ha' : a.claimId = some "CLM-a" := by
    have hmap := congrArg (fun l => l[0]?) hpreview
    simpa [ha] using hmap
  have hb' : b.claimId = some "" := by
    have hmap := congrArg (fun l => l[0]?) hbackfill
    simpa [hb] using hmap
  have hassigned := (hat.same "CLM-a").mp ⟨by simp [ha'], ha'⟩
  exact hassigned.1 hb'

end Cruxible.IdentityPreviews
