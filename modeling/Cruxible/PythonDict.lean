import Mathlib.Data.List.Nodup
import Mathlib.Tactic.Common

/-!
# Insertion-ordered dictionaries

A dictionary is a list of bindings with pairwise distinct keys, in the order in
which the keys were first assigned. Assignment to a present key keeps its
position, deletion closes the gap, and `update` folds assignment over the
bindings of its argument. Lookup is the only observation that the laws below
speak about: two dictionaries with the same lookups are the same mapping, even
when their insertion orders differ.
-/
namespace Cruxible.PythonDict

/-! Keys are also pairs and tuples of texts. -/

instance lawfulPair : LawfulBEq (String × String) := inferInstance

instance lawfulTuple : LawfulBEq (String × String × String × String × String) := inferInstance

variable {κ α : Type} [DecidableEq κ]

/-- Bindings before the distinctness certificate is attached. -/
abbrev Bindings (κ α : Type) := List (κ × α)

def Bindings.get? : Bindings κ α → κ → Option α
  | [], _ => none
  | (k, v) :: d, q => if k = q then some v else Bindings.get? d q

def Bindings.set : Bindings κ α → κ → α → Bindings κ α
  | [], q, w => [(q, w)]
  | (k, v) :: d, q, w => if k = q then (k, w) :: d else (k, v) :: Bindings.set d q w

def Bindings.erase : Bindings κ α → κ → Bindings κ α
  | [], _ => []
  | (k, v) :: d, q => if k = q then d else (k, v) :: Bindings.erase d q

variable {d : Bindings κ α} {q : κ}

theorem Bindings.get?_eq_none : Bindings.get? d q = none ↔ q ∉ d.map Prod.fst := by
  induction d with
  | nil => simp [Bindings.get?]
  | cons b d ih =>
    obtain ⟨k, v⟩ := b
    by_cases h : k = q
    · simp [Bindings.get?, h]
    · simp [Bindings.get?, h, ih, Ne.symm h]

theorem Bindings.mem_of_get? {v : α} (h : Bindings.get? d q = some v) : (q, v) ∈ d := by
  induction d with
  | nil => cases h
  | cons b d ih =>
    obtain ⟨k, u⟩ := b
    by_cases hk : k = q
    · subst hk
      obtain rfl : u = v := by simpa [Bindings.get?] using h
      exact List.mem_cons_self
    · exact List.mem_cons_of_mem _ (ih (by simpa [Bindings.get?, hk] using h))

theorem Bindings.get?_of_mem (hd : (d.map Prod.fst).Nodup) {v : α} (h : (q, v) ∈ d) :
    Bindings.get? d q = some v := by
  induction d with
  | nil => cases h
  | cons b d ih =>
    obtain ⟨k, u⟩ := b
    simp only [List.map_cons, List.nodup_cons] at hd
    rcases List.mem_cons.mp h with heq | h
    · obtain ⟨rfl, rfl⟩ := Prod.mk.inj heq
      simp [Bindings.get?]
    · have hne : k ≠ q := by
        rintro rfl
        exact hd.1 (List.mem_map_of_mem h)
      simp [Bindings.get?, hne, ih hd.2 h]

theorem Bindings.get?_set (d : Bindings κ α) (q : κ) (w : α) (r : κ) :
    Bindings.get? (Bindings.set d q w) r = if q = r then some w else Bindings.get? d r := by
  induction d with
  | nil => simp [Bindings.set, Bindings.get?]
  | cons b d ih =>
    obtain ⟨k, v⟩ := b
    by_cases hk : k = q
    · subst hk
      by_cases hr : k = r <;> simp [Bindings.set, Bindings.get?, hr]
    · by_cases hr : k = r
      · subst hr
        simp [Bindings.set, Bindings.get?, hk, Ne.symm hk]
      · simp [Bindings.set, Bindings.get?, hk, hr, ih]

theorem Bindings.set_set (d : Bindings κ α) (q : κ) (v w : α) :
    Bindings.set (Bindings.set d q v) q w = Bindings.set d q w := by
  induction d with
  | nil => simp [Bindings.set]
  | cons b d ih =>
    obtain ⟨k, u⟩ := b
    by_cases hk : k = q <;> simp [Bindings.set, hk, ih]

theorem Bindings.keys_set (d : Bindings κ α) (q : κ) (w : α) :
    (Bindings.set d q w).map Prod.fst =
      if q ∈ d.map Prod.fst then d.map Prod.fst else d.map Prod.fst ++ [q] := by
  induction d with
  | nil => simp [Bindings.set]
  | cons b d ih =>
    obtain ⟨k, v⟩ := b
    by_cases hk : k = q
    · simp [Bindings.set, hk]
    · simp only [Bindings.set, hk, if_false, List.map_cons, ih, List.mem_cons, Ne.symm hk,
        false_or]
      split_ifs <;> simp

theorem Bindings.set_of_not_mem (w : α) (h : q ∉ d.map Prod.fst) :
    Bindings.set d q w = d ++ [(q, w)] := by
  induction d with
  | nil => rfl
  | cons b d ih =>
    rw [List.map_cons, List.mem_cons, not_or] at h
    have ⟨hne, hrest⟩ := h
    simp [Bindings.set, Ne.symm hne, ih hrest]

theorem Bindings.erase_sublist (d : Bindings κ α) (q : κ) : (Bindings.erase d q).Sublist d := by
  induction d with
  | nil => exact List.Sublist.refl _
  | cons b d ih =>
    obtain ⟨k, v⟩ := b
    by_cases hk : k = q
    · simp [Bindings.erase, hk]
    · simpa [Bindings.erase, hk] using ih

theorem Bindings.get?_erase (d : Bindings κ α) (hd : (d.map Prod.fst).Nodup) (q r : κ) :
    Bindings.get? (Bindings.erase d q) r = if q = r then none else Bindings.get? d r := by
  induction d with
  | nil => simp [Bindings.erase, Bindings.get?]
  | cons b d ih =>
    obtain ⟨k, v⟩ := b
    simp only [List.map_cons, List.nodup_cons] at hd
    by_cases hk : k = q
    · subst hk
      by_cases hr : k = r
      · subst hr
        simpa [Bindings.erase] using Bindings.get?_eq_none.mpr hd.1
      · simp [Bindings.erase, Bindings.get?, hr]
    · by_cases hr : k = r
      · subst hr
        simp [Bindings.erase, Bindings.get?, hk, Ne.symm hk]
      · simp [Bindings.erase, Bindings.get?, hk, hr, ih hd.2]

/-- Bindings for those of the keys that have a value. -/
theorem Bindings.get?_filterMap (ks : List κ) (value? : κ → Option α) (r : κ) :
    Bindings.get? (ks.filterMap fun k => (value? k).map fun v => (k, v)) r =
      if r ∈ ks then value? r else none := by
  induction ks with
  | nil => rfl
  | cons k ks ih =>
    cases hk : value? k with
    | none =>
      rw [List.filterMap_cons_none (by rw [hk]; rfl), ih]
      by_cases hr : r = k
      case pos => simp [hr, hk]
      case neg => simp [hr]
    | some v =>
      rw [List.filterMap_cons_some (by rw [hk]; rfl), Bindings.get?, ih]
      by_cases hr : k = r
      case pos => simp [← hr, hk]
      case neg => simp [hr, Ne.symm hr]

/-- A dictionary carries the distinctness of its keys, so no operation can
produce a mapping with two values for one key. -/
structure Dict (κ α : Type) where
  entries : List (κ × α)
  nodup : (entries.map Prod.fst).Nodup

namespace Dict

variable {d e : Dict κ α} {q : κ} {bs : List (κ × α)}

omit [DecidableEq κ] in
@[ext] theorem ext_entries (h : d.entries = e.entries) : d = e := by
  cases d
  cases e
  cases h
  rfl

instance [DecidableEq α] : DecidableEq (Dict κ α) := fun d e =>
  decidable_of_iff (d.entries = e.entries) ⟨ext_entries, congrArg entries⟩

def empty : Dict κ α := ⟨[], List.nodup_nil⟩

instance : EmptyCollection (Dict κ α) := ⟨empty⟩

instance : Inhabited (Dict κ α) := ⟨empty⟩

def keys (d : Dict κ α) : List κ := d.entries.map Prod.fst

def get? (d : Dict κ α) (q : κ) : Option α := Bindings.get? d.entries q

def set (d : Dict κ α) (q : κ) (w : α) : Dict κ α where
  entries := Bindings.set d.entries q w
  nodup := by
    rw [Bindings.keys_set]
    split_ifs with h
    · exact d.nodup
    · exact List.nodup_append.mpr
        ⟨d.nodup, List.nodup_singleton q, by rintro a ha b hb rfl; simp_all⟩

def erase (d : Dict κ α) (q : κ) : Dict κ α where
  entries := Bindings.erase d.entries q
  nodup := d.nodup.sublist ((Bindings.erase_sublist d.entries q).map Prod.fst)

def contains (d : Dict κ α) (q : κ) : Bool := (d.get? q).isSome

/-- `d.update(e)`: every binding of `e` is assigned in turn. -/
def update (d e : Dict κ α) : Dict κ α := e.entries.foldl (fun d b => d.set b.1 b.2) d

/-- `dict(pairs)`: a later pair wins over an earlier one with the same key. -/
def ofList (bs : List (κ × α)) : Dict κ α := bs.foldl (fun d b => d.set b.1 b.2) empty

@[simp] theorem get?_empty (q : κ) : (∅ : Dict κ α).get? q = none := rfl

theorem get?_set (d : Dict κ α) (q : κ) (w : α) (r : κ) :
    (d.set q w).get? r = if q = r then some w else d.get? r :=
  Bindings.get?_set d.entries q w r

@[simp] theorem get?_set_self (d : Dict κ α) (q : κ) (w : α) : (d.set q w).get? q = some w := by
  rw [get?_set, if_pos rfl]

theorem get?_set_of_ne (d : Dict κ α) {r : κ} (w : α) (h : q ≠ r) :
    (d.set q w).get? r = d.get? r := by
  rw [get?_set, if_neg h]

/-- Only the last of two assignments to one key is visible. -/
theorem set_set (d : Dict κ α) (q : κ) (v w : α) : (d.set q v).set q w = d.set q w :=
  ext_entries (Bindings.set_set d.entries q v w)

theorem get?_erase (d : Dict κ α) (q r : κ) :
    (d.erase q).get? r = if q = r then none else d.get? r :=
  Bindings.get?_erase d.entries d.nodup q r

theorem get?_eq_none : d.get? q = none ↔ q ∉ d.keys :=
  Bindings.get?_eq_none

theorem get?_of_mem {v : α} (h : (q, v) ∈ d.entries) : d.get? q = some v :=
  Bindings.get?_of_mem d.nodup h

theorem mem_of_get? {v : α} (h : d.get? q = some v) : (q, v) ∈ d.entries :=
  Bindings.mem_of_get? h

theorem mem_keys : q ∈ d.keys ↔ ∃ v, d.get? q = some v := by
  rw [← Option.isSome_iff_exists, ← not_iff_not, Option.not_isSome_iff_eq_none]
  exact get?_eq_none.symm

theorem get?_foldl_set (bs : List (κ × α)) (hb : (bs.map Prod.fst).Nodup) (d : Dict κ α) (r : κ) :
    (bs.foldl (fun d b => d.set b.1 b.2) d).get? r = (Bindings.get? bs r).or (d.get? r) := by
  induction bs generalizing d with
  | nil => simp [Bindings.get?]
  | cons b bs ih =>
    obtain ⟨k, v⟩ := b
    simp only [List.map_cons, List.nodup_cons] at hb
    rw [List.foldl_cons, ih hb.2, get?_set]
    by_cases hk : k = r
    · subst hk
      simp [Bindings.get?, Bindings.get?_eq_none.mpr hb.1]
    · simp [Bindings.get?, hk]

theorem get?_ofList (hb : (bs.map Prod.fst).Nodup) (r : κ) :
    (ofList bs).get? r = Bindings.get? bs r := by
  rw [ofList, get?_foldl_set bs hb]
  exact Option.or_none

theorem mem_of_get?_ofList {r : κ} {a : α} (h : (ofList bs).get? r = some a) : (r, a) ∈ bs := by
  unfold ofList at h
  suffices hgen : ∀ d : Dict κ α, (bs.foldl (fun d b => d.set b.1 b.2) d).get? r = some a →
      d.get? r = some a ∨ (r, a) ∈ bs from (hgen empty h).resolve_left nofun
  clear h
  induction bs with
  | nil => exact fun d h => .inl h
  | cons b bs ih =>
    intro d h
    rcases ih (d.set b.1 b.2) h with hset | hmem
    · rw [get?_set] at hset
      split_ifs at hset with hb
      · right
        have hpair : b = (r, a) := Prod.ext hb (Option.some.inj hset)
        exact hpair ▸ List.mem_cons_self
      · exact .inl hset
    · exact .inr (List.mem_cons_of_mem b hmem)

/-- A comprehension that keeps the keys and maps the values. -/
theorem get?_ofList_map {γ : Type} (d : Dict κ α) (f : α → γ) (r : κ) :
    (ofList (d.entries.map fun b => (b.1, f b.2))).get? r = (d.get? r).map f := by
  have hkeys : ((d.entries.map fun b => (b.1, f b.2)).map Prod.fst).Nodup := by
    rw [List.map_map]
    exact d.nodup
  rw [get?_ofList hkeys]
  cases h : d.get? r with
  | some v => exact Bindings.get?_of_mem hkeys (List.mem_map.mpr ⟨(r, v), mem_of_get? h, rfl⟩)
  | none =>
    rw [Option.map_none, Bindings.get?_eq_none, List.map_map]
    exact get?_eq_none.mp h

/-- A comprehension over the bindings of the keys that pass a test. -/
theorem get?_ofList_filter (d : Dict κ α) (test : κ → Bool) (r : κ) :
    (ofList (d.entries.filter fun b => test b.1)).get? r =
      if test r then d.get? r else none := by
  have hsub : ((d.entries.filter fun b => test b.1).map Prod.fst).Nodup :=
    d.nodup.sublist (List.filter_sublist.map Prod.fst)
  rw [get?_ofList hsub]
  cases hr : test r with
  | true =>
    cases hd : d.get? r with
    | none =>
      rw [if_pos rfl, Bindings.get?_eq_none]
      intro hmem
      exact get?_eq_none.mp hd ((List.filter_sublist.map Prod.fst).subset hmem)
    | some v =>
      rw [if_pos rfl]
      exact Bindings.get?_of_mem hsub (List.mem_filter.mpr ⟨mem_of_get? hd, by simpa using hr⟩)
  | false =>
    rw [if_neg Bool.false_ne_true, Bindings.get?_eq_none]
    intro hmem
    have ⟨b, hb, hbr⟩ := List.mem_map.mp hmem
    have htest := (List.mem_filter.mp hb).2
    rw [hbr, hr] at htest
    cases htest

/-- A comprehension over keys, of which some have no value. -/
theorem get?_ofList_filterMap {ks : List κ} (hn : ks.Nodup) (value? : κ → Option α) (r : κ) :
    (ofList (ks.filterMap fun k => (value? k).map fun v => (k, v))).get? r =
      if r ∈ ks then value? r else none := by
  have hkeys : ∀ ks : List κ, ((ks.filterMap fun k => (value? k).map fun v => (k, v)).map
      Prod.fst).Sublist ks := by
    intro ks
    induction ks with
    | nil => exact List.Sublist.slnil
    | cons k ks ih =>
      cases hk : value? k with
      | none => simpa [hk] using ih.cons k
      | some v => simpa [hk] using ih
  rw [get?_ofList (hn.sublist (hkeys ks))]
  exact Bindings.get?_filterMap ks value? r

section Values
variable {γ : Type}

omit [DecidableEq κ] in
theorem keys_map_values (bs : Bindings κ α) (f : α → γ) :
    (bs.map fun b => (b.1, f b.2)).map Prod.fst = bs.map Prod.fst := by
  rw [List.map_map]
  rfl

end Values

/-- The right operand of an update wins wherever it has a binding. -/
theorem get?_update (d e : Dict κ α) (r : κ) : (d.update e).get? r = (e.get? r).or (d.get? r) :=
  get?_foldl_set e.entries e.nodup d r

theorem contains_eq_true : d.contains q = true ↔ q ∈ d.keys := by
  rw [contains, mem_keys, Option.isSome_iff_exists]

/-- Assigning an existing key leaves the keys and their order alone. -/
theorem keys_set (d : Dict κ α) (q : κ) (w : α) :
    (d.set q w).keys = if q ∈ d.keys then d.keys else d.keys ++ [q] :=
  Bindings.keys_set d.entries q w

/-- A dictionary is its keys in order and the value of each. -/
theorem ext_keys (hkeys : d.keys = e.keys) (hget : ∀ q, d.get? q = e.get? q) : d = e := by
  have hentries : ∀ c : Dict κ α, c.entries.map some =
      c.keys.map fun q => (c.get? q).map fun v => (q, v) := by
    intro c
    rw [keys, List.map_map]
    apply List.map_congr_left
    intro b hb
    rw [Function.comp_apply, get?_of_mem (show (b.1, b.2) ∈ c.entries from hb)]
    rfl
  apply ext_entries
  apply List.map_injective_iff.mpr (fun a b => Option.some.inj)
  rw [hentries d, hentries e, hkeys]
  apply List.map_congr_left
  intro q _
  rw [hget q]

theorem keys_foldl_set_congr (bs : List (κ × α)) (h : d.keys = e.keys) :
    (bs.foldl (fun d b => d.set b.1 b.2) d).keys = (bs.foldl (fun d b => d.set b.1 b.2) e).keys := by
  induction bs generalizing d e with
  | nil => exact h
  | cons b bs ih =>
    apply ih
    rw [keys_set, keys_set, h]

/-- The keys of an update depend on the keys of its left operand only. -/
theorem keys_update_congr (f : Dict κ α) (h : d.keys = e.keys) :
    (d.update f).keys = (e.update f).keys :=
  keys_foldl_set_congr f.entries h

theorem mem_keys_update : q ∈ (d.update e).keys ↔ q ∈ d.keys ∨ q ∈ e.keys := by
  rw [mem_keys, mem_keys, mem_keys]
  simp only [get?_update, Option.or_eq_some_iff]
  cases hd : d.get? q with
  | none => cases he : e.get? q <;> simp
  | some v => cases he : e.get? q <;> simp

/-- Fresh keys are appended in order. -/
theorem entries_foldl_set (hb : (bs.map Prod.fst).Nodup)
    (hfresh : ∀ k ∈ bs.map Prod.fst, k ∉ d.keys) :
    (bs.foldl (fun d b => d.set b.1 b.2) d).entries = d.entries ++ bs := by
  induction bs generalizing d with
  | nil => simp
  | cons b bs ih =>
    have ⟨hfirst, hrest⟩ := List.nodup_cons.mp hb
    have hset : (d.set b.1 b.2).entries = d.entries ++ [b] :=
      Bindings.set_of_not_mem b.2 (hfresh b.1 List.mem_cons_self)
    have hlater : ∀ k ∈ bs.map Prod.fst, k ∉ (d.set b.1 b.2).keys := by
      intro k hk hmem
      rw [keys, hset, List.map_append, List.mem_append] at hmem
      rcases hmem with hmem | hmem
      · exact hfresh k (List.mem_cons_of_mem _ hk) hmem
      · exact hfirst (List.mem_singleton.mp hmem ▸ hk)
    rw [List.foldl_cons, ih hrest hlater, hset, List.append_assoc]
    rfl

theorem entries_ofList (hb : (bs.map Prod.fst).Nodup) : (ofList bs).entries = bs := by
  rw [ofList, entries_foldl_set hb fun _ _ => List.not_mem_nil]
  exact List.nil_append bs

theorem ofList_entries (d : Dict κ α) : ofList d.entries = d :=
  ext_entries (entries_ofList d.nodup)

theorem entries_update (h : ∀ k ∈ e.keys, k ∉ d.keys) :
    (d.update e).entries = d.entries ++ e.entries :=
  entries_foldl_set e.nodup h

/-- A comprehension whose test every binding passes. -/
theorem ofList_filter_eq_self {test : κ × α → Bool} (h : ∀ b ∈ d.entries, test b) :
    ofList (d.entries.filter test) = d := by
  rw [List.filter_eq_self.mpr h, ofList_entries]

theorem entries_ofList_filter (d : Dict κ α) (test : κ × α → Bool) :
    (ofList (d.entries.filter test)).entries = d.entries.filter test :=
  entries_ofList (d.nodup.sublist (List.filter_sublist.map Prod.fst))

end Dict
end Cruxible.PythonDict
