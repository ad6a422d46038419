import Cruxible.Fallible
import Cruxible.PythonDict
import Mathlib.Algebra.BigOperators.Group.List.Lemmas
import Mathlib.Algebra.GroupWithZero.Nat
import Mathlib.Data.List.Dedup
import Mathlib.Data.List.Induction

/-!
# Grouping by a key

A loop over keyed values that keeps one state for each key: the first value of a
key starts its state, every further one advances it, and an advance may fail. In
the end the keys stand in the order of their first values, and the state of a key
is what its own values make, whatever stood between them.
-/
namespace Cruxible.Groupings
open PythonDict Fallible

variable {κ α σ ε : Type} [DecidableEq κ]

/-- The values listed under a key, in order. -/
def members (es : List (κ × α)) (k : κ) : List α := (es.filter fun e => e.1 = k).map Prod.snd

/-- The keys in the order of their first values. -/
def firstKeys (es : List (κ × α)) : List κ := (es.map Prod.fst).eraseDups

variable (start : α → σ) (next : σ → α → Except ε σ)

def advance : Option σ → α → Except ε (Option σ)
  | none, a => .ok (some (start a))
  | some s, a => (next s a).map some

/-- What the values of one key make. -/
def settle (as : List α) : Except ε (Option σ) := as.foldlM (advance start next) none

def turn (d : Dict κ σ) (e : κ × α) : Except ε (Dict κ σ) :=
  match d.get? e.1 with
  | none => .ok (d.set e.1 (start e.2))
  | some s => (next s e.2).map fun t => d.set e.1 t

def gather (es : List (κ × α)) : Except ε (Dict κ σ) := es.foldlM (turn start next) ∅

theorem members_concat (es : List (κ × α)) (e : κ × α) (k : κ) :
    members (es ++ [e]) k = members es k ++ if e.1 = k then [e.2] else [] := by
  unfold members
  rw [List.filter_append, List.map_append]
  split_ifs with h <;> simp [h]

variable {es : List (κ × α)} {k : κ} {xs : List α}

theorem mem_firstKeys : k ∈ firstKeys es ↔ k ∈ es.map Prod.fst :=
  List.mem_eraseDups

theorem firstKeys_concat (es : List (κ × α)) (e : κ × α) :
    firstKeys (es ++ [e]) = if e.1 ∈ firstKeys es then firstKeys es else firstKeys es ++ [e.1] := by
  unfold firstKeys
  rw [List.map_append, List.eraseDups_append]
  split_ifs with h
  · rw [List.mem_eraseDups] at h
    simp [List.removeAll, h]
  · rw [List.mem_eraseDups] at h
    simp [List.removeAll, h, List.eraseDups_cons]

theorem members_eq_nil : members es k = [] ↔ k ∉ firstKeys es := by
  rw [mem_firstKeys]
  simp only [members, List.map_eq_nil_iff, List.filter_eq_nil_iff, decide_eq_true_eq, List.mem_map,
    not_exists, not_and]

theorem settle_concat (as : List α) (a : α) :
    settle start next (as ++ [a]) = settle start next as >>= fun s => advance start next s a := by
  unfold settle
  rw [List.foldlM_append]
  congr 1
  funext s
  rw [List.foldlM_cons]
  cases advance start next s a <;> rfl

variable {as : List α} {d : Dict κ σ} {es' : List (κ × α)}

theorem settle_cons_eq_ok {a : α} {s : Option σ} :
    settle start next (a :: as) = .ok s ↔ ∃ t, as.foldlM next (start a) = .ok t ∧ s = some t := by
  have hstarted : ∀ t, as.foldlM (advance start next) (some t) = (as.foldlM next t).map some := by
    induction as with
    | nil => exact fun t => rfl
    | cons b bs ih =>
      intro t
      rw [List.foldlM_cons, List.foldlM_cons]
      change ((next t b).map some >>= _) = _
      cases next t b with
      | error e => rfl
      | ok u => exact ih u
  have hsettle : settle start next (a :: as) = (as.foldlM next (start a)).map some :=
    hstarted (start a)
  rw [hsettle]
  cases as.foldlM next (start a) <;> simp [Except.map, eq_comm]

theorem gather_concat (es : List (κ × α)) (e : κ × α) :
    gather start next (es ++ [e]) = gather start next es >>= fun d => turn start next d e := by
  unfold gather
  rw [List.foldlM_append]
  congr 1
  funext d
  rw [List.foldlM_cons]
  cases turn start next d e <;> rfl

/-- A turn advances the state of its key and sets it. -/
theorem turn_eq_ok {c : Dict κ σ} {e : κ × α} :
    turn start next d e = .ok c ↔
      ∃ s, advance start next (d.get? e.1) e.2 = .ok (some s) ∧ c = d.set e.1 s := by
  unfold turn
  cases d.get? e.1 with
  | none => simp [advance, eq_comm]
  | some s =>
    cases h : next s e.2 <;> simp [advance, h, Except.map, eq_comm]

/-- The loop keeps the keys in order and every key's own state. -/
theorem gather_spec (h : gather start next es = .ok d) :
    d.keys = firstKeys es ∧ ∀ k, settle start next (members es k) = .ok (d.get? k) := by
  induction es using List.reverseRecOn generalizing d with
  | nil =>
    cases h
    exact ⟨rfl, fun _ => rfl⟩
  | append_singleton es e ih =>
    rw [gather_concat, bind_eq_ok] at h
    obtain ⟨c, hc, hturn⟩ := h
    obtain ⟨hkeys, hstates⟩ := ih hc
    obtain ⟨s, hs, rfl⟩ := (turn_eq_ok start next).mp hturn
    constructor
    · rw [Dict.keys_set, hkeys, firstKeys_concat]
    · intro k
      rw [members_concat, Dict.get?_set]
      by_cases hk : e.1 = k
      · subst hk
        rw [if_pos rfl, if_pos rfl, settle_concat, hstates]
        exact hs
      · rw [if_neg hk, if_neg hk, List.append_nil]
        exact hstates k

/-- `d.setdefault(key, []).append(value)`. -/
def push (d : Dict κ (List α)) (e : κ × α) : Dict κ (List α) :=
  d.set e.1 ((d.get? e.1).getD [] ++ [e.2])

def group (es : List (κ × α)) : Dict κ (List α) := es.foldl push ∅

theorem group_concat (es : List (κ × α)) (e : κ × α) : group (es ++ [e]) = push (group es) e := by
  simp [group]

theorem keys_group (es : List (κ × α)) : (group es).keys = firstKeys es := by
  induction es using List.reverseRecOn with
  | nil => rfl
  | append_singleton es e ih =>
    rw [group_concat, push, Dict.keys_set, ih, firstKeys_concat]

theorem getD_group (es : List (κ × α)) (k : κ) : ((group es).get? k).getD [] = members es k := by
  induction es using List.reverseRecOn with
  | nil => rfl
  | append_singleton es e ih =>
    rw [group_concat, push, Dict.get?_set, members_concat]
    by_cases hk : e.1 = k
    · subst hk
      rw [if_pos rfl, if_pos rfl, Option.getD_some, ih]
    · rw [if_neg hk, if_neg hk, List.append_nil, ih]

theorem nodup_firstKeys (es : List (κ × α)) : (firstKeys es).Nodup := by
  rw [← keys_group]
  exact (group es).nodup

/-- Every value is listed under one of the keys. -/
theorem sum_length_members (es : List (κ × α)) :
    ((firstKeys es).map fun k => (members es k).length).sum = es.length := by
  have hcount : ∀ k, (members es k).length = (es.map Prod.fst).count k := by
    intro k
    rw [members, List.length_map, List.count, List.countP_map, List.countP_eq_length_filter]
    congr 2
  have hkeys : (firstKeys es).Perm (es.map Prod.fst).dedup := by
    rw [List.perm_ext_iff_of_nodup (nodup_firstKeys es) (List.nodup_dedup _)]
    intro k
    rw [mem_firstKeys, List.mem_dedup]
  calc ((firstKeys es).map fun k => (members es k).length).sum
      = ((firstKeys es).map fun k => (es.map Prod.fst).count k).sum := by simp only [hcount]
    _ = ((es.map Prod.fst).dedup.map fun k => (es.map Prod.fst).count k).sum :=
        (hkeys.map _).sum_eq
    _ = es.length := by rw [List.sum_map_count_dedup_eq_length, List.length_map]

theorem members_perm (h : es.Perm es') (k : κ) :
    (members es k).Perm (members es' k) := (h.filter _).map _

theorem firstKeys_perm (h : es.Perm es') : (firstKeys es).Perm (firstKeys es') := by
  rw [List.perm_ext_iff_of_nodup (nodup_firstKeys es) (nodup_firstKeys es')]
  intro k
  rw [mem_firstKeys, mem_firstKeys, (h.map Prod.fst).mem_iff]

/-- Lists whose elements a map tells apart. -/
theorem map_injective_on {β : Type} {f : α → β} {ys : List α}
    (hf : ∀ x ∈ xs, ∀ y ∈ ys, f x = f y → x = y) (h : xs.map f = ys.map f) : xs = ys := by
  induction xs generalizing ys with
  | nil => exact (List.map_eq_nil_iff.mp h.symm).symm
  | cons x xs ih =>
    cases ys with
    | nil => cases h
    | cons y ys =>
      rw [List.map_cons, List.map_cons, List.cons.injEq] at h
      rw [hf x List.mem_cons_self y List.mem_cons_self h.1]
      rw [ih (fun z hz w hw =>
        hf z (List.mem_cons_of_mem _ hz) w (List.mem_cons_of_mem _ hw)) h.2]

/-- Every order of what a filter keeps comes from an order of the list. -/
theorem filterMap_reorder {β : Type} {f : α → Option β} {ys : List β} (h : ys.Perm (xs.filterMap f))
    : ∃ xs' : List α, xs'.Perm xs ∧ xs'.filterMap f = ys := by
  induction ys generalizing xs with
  | nil => exact ⟨xs, .refl _, h.symm.eq_nil⟩
  | cons y ys ih =>
    have hmem : y ∈ xs.filterMap f := h.mem_iff.mp List.mem_cons_self
    obtain ⟨x, hx, hy⟩ := List.mem_filterMap.mp hmem
    obtain ⟨before, after, rfl⟩ := List.append_of_mem hx
    have hrest : ys.Perm ((before ++ after).filterMap f) := by
      rw [List.filterMap_append, List.filterMap_cons_some hy] at h
      rw [List.filterMap_append]
      exact (h.trans List.perm_middle).cons_inv
    obtain ⟨xs', hxs', hfilter⟩ := ih hrest
    refine ⟨x :: xs', (hxs'.cons x).trans List.perm_middle.symm, ?_⟩
    rw [List.filterMap_cons_some hy, hfilter]

theorem map_reorder {β : Type} {f : α → β} {ys : List β} (h : ys.Perm (xs.map f)) :
    ∃ xs' : List α, xs'.Perm xs ∧ xs'.map f = ys := by
  rw [← List.filterMap_eq_map] at h
  obtain ⟨xs', hxs', hfilter⟩ := filterMap_reorder h
  exact ⟨xs', hxs', List.filterMap_eq_map ▸ hfilter⟩

theorem members_eq_filterMap (es : List (κ × α)) (k : κ) :
    members es k = es.filterMap fun e => if e.1 = k then some e.2 else none := by
  induction es with
  | nil => rfl
  | cons e es ih =>
    unfold members at ih ⊢
    by_cases hk : e.1 = k <;> simp [hk, ih]

theorem members_reorder (h : as.Perm (members es k)) :
    ∃ es' : List (κ × α), es'.Perm es ∧ members es' k = as := by
  rw [members_eq_filterMap] at h
  obtain ⟨es', hes', hfilter⟩ := filterMap_reorder h
  exact ⟨es', hes', (members_eq_filterMap es' k).trans hfilter⟩

theorem eraseDups_perm {xs xs' : List κ} (h : xs.Perm xs') : xs.eraseDups.Perm xs'.eraseDups := by
  have hkeys : ∀ ys : List κ, ys.eraseDups = firstKeys (ys.map fun k => (k, ())) := by
    intro ys
    rw [firstKeys, List.map_map]
    exact congrArg List.eraseDups (List.map_id ys).symm
  rw [hkeys, hkeys]
  exact firstKeys_perm (h.map _)

end Cruxible.Groupings
