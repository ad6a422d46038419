import Cruxible.FallibleLoops
import Mathlib.Data.List.Induction

/-!
# Extrema in one pass

A pass over a list that keeps the best element so far and goes on to one that is
ahead of it. Elements may have no key, and a comparison may refuse. Where some
element is at least as good as every other, the pass ends at the first such
element; what it ends at is the same in every order of the list when all keys
compare and the ones that nothing is ahead of stand for one value.
-/
namespace Cruxible.OnlineExtrema
open Fallible

variable {α β ε : Type}

/-- A comparison that may refuse, with the equality beside it. -/
structure Comparison (α : Type) where
  lt : α → α → Option Bool
  eq : α → α → Bool
  refuses : ∀ a b, lt a b = none → lt b a = none
  asymm : ∀ a b, lt a b = some true → lt b a ≠ some true
  trans : ∀ a b c, lt a b = some true → lt b c = some true → lt a c = some true
  eq_symm : ∀ a b, eq a b = true → eq b a = true
  eq_trans : ∀ a b c, eq a b = true → eq b c = true → eq a c = true
  congr_left : ∀ a b c, eq a b = true → lt a c = lt b c
  congr_right : ∀ a b c, eq a b = true → lt c a = lt c b
  not_lt : ∀ a b, eq a b = true → lt a b ≠ some true

/-- The comparison the other way round. -/
def Comparison.dual (c : Comparison α) : Comparison α where
  lt a b := c.lt b a
  eq := c.eq
  refuses a b := c.refuses b a
  asymm a b := c.asymm b a
  trans a b d h h' := c.trans d b a h' h
  eq_symm := c.eq_symm
  eq_trans := c.eq_trans
  congr_left a b d h := c.congr_right a b d h
  congr_right a b d h := c.congr_left a b d h
  not_lt a b h := c.not_lt b a (c.eq_symm a b h)

variable (c : Comparison α) (key? : β → Option α) (refusal : ε)

/-- The better of the best so far and a further element. -/
def prefer (best x : β) : Except ε β :=
  match key? x, key? best with
  | none, _ => .ok best
  | some _, none => .ok x
  | some k, some b =>
      match c.lt k b with
      | none => .error refusal
      | some ahead => .ok (if ahead then x else best)

def select (best : β) (xs : List β) : Except ε β := xs.foldlM (prefer c key? refusal) best

inductive Preferred (best x : β) : β → Prop
  | absent : key? x = none → Preferred best x best
  | onlyOne {k : α} : key? x = some k → key? best = none → Preferred best x x
  | ahead {k b : α} : key? x = some k → key? best = some b → c.lt k b = some true →
      Preferred best x x
  | behind {k b : α} : key? x = some k → key? best = some b → c.lt k b = some false →
      Preferred best x best

variable {c key? refusal}

variable {best t : β} {xs : List β}

theorem prefer_eq_ok {x : β} :
    prefer c key? refusal best x = .ok t ↔ Preferred c key? best x t := by
  unfold prefer
  constructor
  case mp =>
    intro h
    cases hx : key? x with
    | none =>
      rw [hx] at h
      cases h
      exact .absent hx
    | some k =>
      cases hb : key? best with
      | none =>
        rw [hx, hb] at h
        cases h
        exact .onlyOne hx hb
      | some b =>
        rw [hx, hb] at h
        dsimp only at h
        cases hlt : c.lt k b with
        | none =>
          rw [hlt] at h
          cases h
        | some ahead =>
          rw [hlt] at h
          cases ahead with
          | true =>
            cases h
            exact .ahead hx hb hlt
          | false =>
            cases h
            exact .behind hx hb hlt
  case mpr =>
    intro h
    cases h with
    | absent hx => rw [hx]
    | onlyOne hx hb => rw [hx, hb]
    | ahead hx hb hlt | behind hx hb hlt =>
      rw [hx, hb]
      dsimp only
      rw [hlt]
      rfl

theorem select_cons_eq_ok {x : β} :
    select c key? refusal best (x :: xs) = .ok t ↔
      ∃ s, Preferred c key? best x s ∧ select c key? refusal s xs = .ok t := by
  unfold select
  rw [List.foldlM_cons, bind_eq_ok]
  simp only [prefer_eq_ok]

theorem select_append_eq_ok {ys : List β} :
    select c key? refusal best (xs ++ ys) = .ok t ↔
      ∃ s, select c key? refusal best xs = .ok s ∧ select c key? refusal s ys = .ok t := by
  unfold select
  rw [List.foldlM_append, bind_eq_ok]

theorem select_mem (h : select c key? refusal best xs = .ok t) : t ∈ best :: xs := by
  induction xs generalizing best with
  | nil =>
    cases h
    exact List.mem_cons_self
  | cons x xs ih =>
    obtain ⟨s, hs, hrest⟩ := select_cons_eq_ok.mp h
    rcases List.mem_cons.mp (ih hrest) with rfl | hmem
    · cases hs with
      | absent | behind => exact List.mem_cons_self
      | onlyOne | ahead => exact List.mem_cons_of_mem _ List.mem_cons_self
    · exact List.mem_cons_of_mem _ (List.mem_cons_of_mem _ hmem)

theorem select_absent (hxs : ∀ x ∈ xs, key? x = none) (h : select c key? refusal best xs = .ok t) :
    t = best := by
  induction xs with
  | nil =>
    cases h
    rfl
  | cons x xs ih =>
    obtain ⟨s, hs, hrest⟩ := select_cons_eq_ok.mp h
    have hx : key? x = none := hxs x List.mem_cons_self
    cases hs with
    | absent => exact ih (fun y hy => hxs y (List.mem_cons_of_mem _ hy)) hrest
    | onlyOne hsome | ahead hsome | behind hsome =>
      rw [hx] at hsome
      cases hsome

variable (c key?)

/-- The key of an element is ahead of every other one's or equal to it. -/
def Attains (xs : List β) (s : β) : Prop :=
  ∃ k, key? s = some k ∧ ∀ t ∈ xs, ∀ l, key? t = some l →
    t = s ∨ c.lt k l = some true ∨ c.eq k l = true

def Earliest (xs : List β) (s : β) : Prop :=
  ∃ before after, xs = before ++ s :: after ∧ Attains c key? xs s ∧
    ∀ t ∈ before, ¬Attains c key? xs t

variable {c key?}

/-- An element equal to one that attains the extremum attains it too. -/
theorem Attains.of_eq {s : β} {k l : α} (h : Attains c key? xs s) (hs : key? s = some k)
    (ht : key? t = some l) (heq : c.eq l k = true) : Attains c key? xs t := by
  obtain ⟨k', hk', hall⟩ := h
  obtain rfl : k' = k := Option.some.inj (hk'.symm.trans hs)
  refine ⟨l, ht, fun u hu m hm => ?_⟩
  rcases hall u hu m hm with rfl | hlt | hkm
  · obtain rfl : k' = m := Option.some.inj (hs.symm.trans hm)
    exact .inr (.inr heq)
  · exact .inr (.inl ((c.congr_left l k' m heq).trans hlt))
  · exact .inr (.inr (c.eq_trans l k' m heq hkm))

/-- Nothing displaces an element that attains the extremum. -/
theorem select_of_attains {all : List β} {s : β} (h : Attains c key? all s)
    (hxs : ∀ x ∈ xs, x ∈ all) (hselect : select c key? refusal s xs = .ok t) : t = s := by
  induction xs with
  | nil =>
    cases hselect
    rfl
  | cons x xs ih =>
    obtain ⟨u, hu, hrest⟩ := select_cons_eq_ok.mp hselect
    have hrestall : ∀ y ∈ xs, y ∈ all := fun y hy => hxs y (List.mem_cons_of_mem _ hy)
    obtain ⟨k, hk, hall⟩ := h
    have hx := hall x (hxs x List.mem_cons_self)
    cases hu with
    | absent | behind => exact ih hrestall hrest
    | onlyOne _ hnone =>
      rw [hk] at hnone
      cases hnone
    | ahead hkey hbest hlt =>
      obtain rfl := Option.some.inj (hk.symm.trans hbest)
      rcases hx _ hkey with rfl | hlt' | heq
      · exact ih hrestall hrest
      · exact absurd hlt (c.asymm _ _ hlt')
      · exact absurd hlt (c.not_lt _ _ (c.eq_symm _ _ heq))

theorem first_satisfying {P : β → Prop} (h : ∃ s ∈ xs, P s) :
    ∃ before s after, xs = before ++ s :: after ∧ P s ∧ ∀ t ∈ before, ¬P t := by
  induction xs with
  | nil =>
    obtain ⟨s, hs, -⟩ := h
    cases hs
  | cons x xs ih =>
    by_cases hx : P x
    · exact ⟨[], x, xs, rfl, hx, fun t ht => absurd ht List.not_mem_nil⟩
    · have hrest : ∃ s ∈ xs, P s := by
        obtain ⟨s, hmem, hs⟩ := h
        rcases List.mem_cons.mp hmem with rfl | hmem
        · exact absurd hs hx
        · exact ⟨s, hmem, hs⟩
      obtain ⟨before, s, after, rfl, hs, hbefore⟩ := ih hrest
      exact ⟨x :: before, s, after, rfl, hs, List.forall_mem_cons.mpr ⟨hx, hbefore⟩⟩

/-- Where the extremum is attained the pass ends at the first element that attains it. -/
theorem select_earliest {first : β} (hselect : select c key? refusal first xs = .ok t)
    (hsome : ∃ s ∈ first :: xs, Attains c key? (first :: xs) s) :
    Earliest c key? (first :: xs) t := by
  obtain ⟨before, s, after, hsplit, hs, hbefore⟩ := first_satisfying hsome
  suffices t = s by
    subst this
    exact ⟨before, after, hsplit, hs, hbefore⟩
  cases before with
  | nil =>
    simp only [List.nil_append, List.cons.injEq] at hsplit
    obtain ⟨rfl, rfl⟩ := hsplit
    exact select_of_attains hs (fun x hx => List.mem_cons_of_mem _ hx) hselect
  | cons b before =>
    simp only [List.cons_append, List.cons.injEq] at hsplit
    obtain ⟨rfl, rfl⟩ := hsplit
    obtain ⟨best, hbest, hrest⟩ := select_append_eq_ok.mp hselect
    obtain ⟨u, hu, hafter⟩ := select_cons_eq_ok.mp hrest
    have hmem : best ∈ first :: before := select_mem hbest
    have hnot := hbefore best hmem
    have hall : best ∈ first :: (before ++ s :: after) := by
      rw [← List.cons_append]
      exact List.mem_append_left _ hmem
    obtain ⟨k, hk, hbetter⟩ := id hs
    have hdisplaced : u = s := by
      cases hu with
      | onlyOne | ahead => rfl
      | absent hnone =>
        rw [hk] at hnone
        cases hnone
      | behind hkey hbestkey hlt =>
        obtain rfl := Option.some.inj (hk.symm.trans hkey)
        rcases hbetter best hall _ hbestkey with rfl | hlt' | heq
        · exact absurd hs hnot
        · rw [hlt] at hlt'
          cases hlt'
        · exact absurd (hs.of_eq hk hbestkey (c.eq_symm _ _ heq)) hnot
    subst hdisplaced
    refine select_of_attains hs (fun x hx => ?_) hafter
    rw [← List.cons_append]
    exact List.mem_append_right _ (List.mem_cons_of_mem _ hx)

/-- Where keys that are in no order are equal, the pass ends at an extremum. -/
theorem select_attains {first : β}
    (htotal : ∀ x ∈ first :: xs, ∀ y ∈ first :: xs, ∀ k l, key? x = some k → key? y = some l →
      c.lt k l = some false → c.lt l k = some false → c.eq k l = true)
    (hselect : select c key? refusal first xs = .ok t) (hsome : ∃ s ∈ first :: xs, (key? s).isSome)
    : Attains c key? (first :: xs) t := by
  induction xs using List.reverseRecOn generalizing t with
  | nil =>
    cases hselect
    obtain ⟨s, hmem, hs⟩ := hsome
    obtain rfl := List.mem_singleton.mp hmem
    obtain ⟨k, hk⟩ := Option.isSome_iff_exists.mp hs
    exact ⟨k, hk, fun u hu _ _ => .inl (List.mem_singleton.mp hu)⟩
  | append_singleton xs x ih =>
    obtain ⟨s, hs, hlast⟩ := select_append_eq_ok.mp hselect
    obtain ⟨u, hu, hend⟩ := select_cons_eq_ok.mp hlast
    cases hend
    have hsub : ∀ y ∈ first :: xs, y ∈ first :: (xs ++ [x]) := by
      intro y hy
      rw [← List.cons_append]
      exact List.mem_append_left _ hy
    have hx : x ∈ first :: (xs ++ [x]) := by simp
    have hmem := select_mem hs
    have hbefore : (∃ s ∈ first :: xs, (key? s).isSome) → Attains c key? (first :: xs) s :=
      ih (fun y hy z hz => htotal y (hsub y hy) z (hsub z hz)) hs
    have hsplit : ∀ y ∈ first :: (xs ++ [x]), y ∈ first :: xs ∨ y = x := by
      intro y hy
      rw [← List.cons_append, List.mem_append, List.mem_singleton] at hy
      exact hy
    cases hu with
    | absent hnone =>
      obtain ⟨k, hk, hall⟩ := hbefore (by
        obtain ⟨y, hy, hsome⟩ := hsome
        rcases hsplit y hy with hy | rfl
        · exact ⟨y, hy, hsome⟩
        · rw [hnone] at hsome
          cases hsome)
      refine ⟨k, hk, fun y hy l hl => ?_⟩
      rcases hsplit y hy with hy | rfl
      · exact hall y hy l hl
      · rw [hnone] at hl
        cases hl
    | onlyOne hsomex hnone =>
      have hnobody : ¬∃ s ∈ first :: xs, (key? s).isSome := by
        intro h
        obtain ⟨k, hk, -⟩ := hbefore h
        rw [hnone] at hk
        cases hk
      refine ⟨_, hsomex, fun y hy l hl => ?_⟩
      rcases hsplit y hy with hy | rfl
      · exact absurd ⟨y, hy, by rw [hl]; rfl⟩ hnobody
      · exact .inl rfl
    | ahead hxk hsk hlt =>
      obtain ⟨k, hk, hall⟩ := hbefore ⟨_, hmem, by rw [hsk]; rfl⟩
      obtain rfl := Option.some.inj (hk.symm.trans hsk)
      refine ⟨_, hxk, fun y hy l hl => ?_⟩
      rcases hsplit y hy with hy | rfl
      · rcases hall y hy l hl with heq | hlt' | heq
        · rw [heq] at hl
          obtain rfl := Option.some.inj (hk.symm.trans hl)
          exact .inr (.inl hlt)
        · exact .inr (.inl (c.trans _ _ _ hlt hlt'))
        · exact .inr (.inl ((c.congr_right _ _ _ heq).symm.trans hlt))
      · exact .inl rfl
    | behind hxk hsk hlt =>
      obtain ⟨k, hk, hall⟩ := hbefore ⟨_, hmem, by rw [hsk]; rfl⟩
      obtain rfl := Option.some.inj (hk.symm.trans hsk)
      refine ⟨k, hk, fun y hy l hl => ?_⟩
      rcases hsplit y hy with hy | rfl
      · exact hall y hy l hl
      · obtain rfl := Option.some.inj (hxk.symm.trans hl)
        right
        rcases hback : c.lt k _ with _ | ahead
        · rw [c.refuses _ _ hback] at hlt
          cases hlt
        · cases ahead with
          | true => exact .inl rfl
          | false => exact .inr (htotal _ (hsub _ hmem) _ hx _ _ hk hl hback hlt)

section Orders

variable {key : β → α} {Same : β → β → Prop}

/-- Two elements compare. -/
def Compares (c : Comparison α) (key : β → α) (x y : β) : Prop := c.lt (key x) (key y) ≠ none

/-- All elements compare, and one value is ahead of what stands for other ones. -/
structure Settled (c : Comparison α) (key : β → α) (Same : β → β → Prop) (xs : List β) : Prop where
  compares : xs.Pairwise (Compares c key)
  least : ∃ r ∈ xs, ∀ v ∈ xs, Same v r ∨
    ∃ u ∈ xs, Same u r ∧ c.lt (key u) (key v) = some true

theorem Compares.symm {x y : β} (h : Compares c key x y) : Compares c key y x :=
  fun hnone => h (c.refuses _ _ hnone)

variable {best t : β} {xs : List β}

theorem Preferred.chain {x s : β} (h : Preferred c (fun x => some (key x)) best x s) :
    (s = best ∧ c.lt (key x) (key best) = some false) ∨
      (s = x ∧ c.lt (key x) (key best) = some true) := by
  cases h with
  | absent hnone => cases hnone
  | onlyOne _ hnone => cases hnone
  | ahead hx hb hlt =>
    cases hx
    cases hb
    exact .inr ⟨rfl, hlt⟩
  | behind hx hb hlt =>
    cases hx
    cases hb
    exact .inl ⟨rfl, hlt⟩

/-- The pass only moves ahead. -/
theorem select_chain (h : select c (fun x => some (key x)) refusal best xs = .ok t) :
    t = best ∨ c.lt (key t) (key best) = some true := by
  induction xs generalizing best with
  | nil =>
    cases h
    exact .inl rfl
  | cons x xs ih =>
    obtain ⟨s, hs, hrest⟩ := select_cons_eq_ok.mp h
    rcases hs.chain with ⟨rfl, -⟩ | ⟨rfl, hlt⟩
    · exact ih hrest
    · rcases ih hrest with rfl | hlt'
      · exact .inr hlt
      · exact .inr (c.trans _ _ _ hlt' hlt)

/-- Nothing is ahead of what the pass ends at. -/
theorem select_least (h : select c (fun x => some (key x)) refusal best xs = .ok t) :
    ∀ u ∈ best :: xs, c.lt (key u) (key t) ≠ some true := by
  induction xs generalizing best with
  | nil =>
    cases h
    intro u hu hlt
    obtain rfl := List.mem_singleton.mp hu
    exact c.asymm _ _ hlt hlt
  | cons x xs ih =>
    obtain ⟨s, hs, hrest⟩ := select_cons_eq_ok.mp h
    have hlater := ih hrest
    have hchain := select_chain hrest
    intro u hu hlt
    have hrun : ∀ y, y = s → c.lt (key y) (key t) ≠ some true := by
      rintro y rfl
      exact hlater y List.mem_cons_self
    rcases List.mem_cons.mp hu with rfl | hu
    · rcases hs.chain with ⟨rfl, -⟩ | ⟨rfl, hahead⟩
      · exact hrun _ rfl hlt
      · exact hrun _ rfl (c.trans _ _ _ hahead hlt)
    · rcases List.mem_cons.mp hu with rfl | hu
      · rcases hs.chain with ⟨rfl, hbehind⟩ | ⟨rfl, -⟩
        · rcases hchain with rfl | hlt'
          · rw [hbehind] at hlt
            cases hlt
          · rw [c.trans _ _ _ hlt hlt'] at hbehind
            cases hbehind
        · exact hrun _ rfl hlt
      · exact hlater u (List.mem_cons_of_mem _ hu) hlt

theorem select_returns (h : (best :: xs).Pairwise (Compares c key)) :
    ∃ t, select c (fun x => some (key x)) refusal best xs = .ok t := by
  induction xs generalizing best with
  | nil => exact ⟨best, rfl⟩
  | cons x xs ih =>
    obtain ⟨hbest, hrest⟩ := List.pairwise_cons.mp h
    obtain ⟨hx, hmore⟩ := List.pairwise_cons.mp hrest
    have hcompare : Compares c key x best := (hbest x List.mem_cons_self).symm
    cases hlt : c.lt (key x) (key best) with
    | none => exact absurd hlt hcompare
    | some ahead =>
      cases ahead with
      | true =>
        obtain ⟨t, ht⟩ := ih hrest
        exact ⟨t, select_cons_eq_ok.mpr ⟨x, .ahead rfl rfl hlt, ht⟩⟩
      | false =>
        obtain ⟨t, ht⟩ := ih (List.pairwise_cons.mpr
          ⟨fun y hy => hbest y (List.mem_cons_of_mem _ hy), hmore⟩)
        exact ⟨t, select_cons_eq_ok.mpr ⟨best, .behind rfl rfl hlt, ht⟩⟩

/-- The pass ends at the same value in every order if and only if the list is settled. -/
theorem select_same_iff (hsame : Equivalence Same) {first : β}
    (hselect : select c (fun x => some (key x)) refusal first xs = .ok t) :
    (∀ y ys, (y :: ys).Perm (first :: xs) →
        ∃ s, select c (fun x => some (key x)) refusal y ys = .ok s ∧ Same s t) ↔
      Settled c key Same (first :: xs) := by
  constructor
  case mp =>
    intro h
    constructor
    case compares =>
      rw [List.pairwise_iff_forall_sublist]
      intro x y hxy
      obtain ⟨rest, hrest⟩ := hxy.exists_perm_append
      obtain ⟨s, hs, -⟩ := h x (y :: rest) hrest.symm
      obtain ⟨u, hu, -⟩ := select_cons_eq_ok.mp hs
      apply Compares.symm
      intro hnone
      rcases hu.chain with ⟨-, hlt⟩ | ⟨-, hlt⟩ <;> simp [hnone] at hlt
    case least =>
      refine ⟨t, select_mem hselect, fun v hv => ?_⟩
      obtain ⟨before, after, hsplit⟩ := List.append_of_mem hv
      have hperm : (v :: (before ++ after)).Perm (first :: xs) := by
        rw [hsplit]
        exact List.perm_middle.symm
      obtain ⟨s, hs, hst⟩ := h v (before ++ after) hperm
      rcases select_chain hs with rfl | hlt
      · exact .inl hst
      · exact .inr ⟨s, hperm.mem_iff.mp (select_mem hs), hst, hlt⟩
  case mpr =>
    rintro ⟨hcompares, r, hr, hleast⟩ y ys hperm
    have hsettles : ∀ z zs u, (z :: zs).Perm (first :: xs) →
        select c (fun x => some (key x)) refusal z zs = .ok u → Same u r := by
      intro z zs u hz hu
      rcases hleast u (hz.mem_iff.mp (select_mem hu)) with hsame | ⟨w, hw, -, hlt⟩
      · exact hsame
      · exact absurd hlt (select_least hu w (hz.mem_iff.mpr hw))
    have hpairs : (y :: ys).Pairwise (Compares c key) :=
      (hperm.pairwise_iff fun h => h.symm).mpr hcompares
    obtain ⟨s, hs⟩ := select_returns hpairs
    exact ⟨s, hs, hsame.trans (hsettles y ys s hperm hs)
      (hsame.symm (hsettles first xs t (List.Perm.refl _) hselect))⟩

end Orders

end Cruxible.OnlineExtrema
