import Cruxible.CanonicalJson
import Cruxible.PythonEquality
import Mathlib.Data.Option.Basic

/-!
# The spelling of numbers

Python compares `1`, `1.0` and `true` as equal, and their texts differ. Two JSON
values without `nan` are equal in Python exactly when they have one canonical form
once every number is written as the rational that it denotes.
-/
namespace Cruxible.JsonValue.Value

open PythonDict

mutual

/-- A value with every number written in one way. -/
def numeral : Value → Value
  | .bool b => .float (.finite (if b then 1 else 0))
  | .int n => .float (.finite n)
  | .float .negZero => .float (.finite 0)
  | .array items => .array (numeralItems items)
  | .object entries => .object (numeralEntries entries)
  | v => v

def numeralItems : List Value → List Value
  | [] => []
  | v :: vs => numeral v :: numeralItems vs

def numeralEntries : List (String × Value) → List (String × Value)
  | [] => []
  | (k, v) :: es => (k, numeral v) :: numeralEntries es

end

/-- Equal up to the spelling of numbers and the order of keys. -/
def Respelled (a b : Value) : Prop := canonical (numeral a) = canonical (numeral b)

instance (a b : Value) : Decidable (Respelled a b) := inferInstanceAs (Decidable (_ = _))

theorem Respelled.refl (a : Value) : Respelled a a := rfl

theorem numeralEntries_keys (entries : List (String × Value)) :
    (numeralEntries entries).map Prod.fst = entries.map Prod.fst := by
  induction entries with
  | nil => rfl
  | cons e es ih =>
    have ⟨q, v⟩ := e
    simp only [numeralEntries, List.map_cons, ih]

theorem numeralEntries_get? (entries : List (String × Value)) (k : String) :
    Bindings.get? (numeralEntries entries) k = (Bindings.get? entries k).map numeral := by
  induction entries with
  | nil => rfl
  | cons e es ih =>
    have ⟨q, v⟩ := e
    simp only [numeralEntries, Bindings.get?]
    split_ifs
    · rfl
    · exact ih

/-- What is stored under a key on both sides is related, or nothing is. -/
def Matching (R : Value → Value → Prop) (xs ys : List (String × Value)) : Prop :=
  ∀ k, Option.Rel R (Bindings.get? xs k) (Bindings.get? ys k)

variable {R : Value → Value → Prop} {xs ys : List (String × Value)} {a b : Value} {q : Rat}

theorem rel_map (f : Value → Value) (o o' : Option Value) :
    Option.Rel R (o.map f) (o'.map f) ↔ Option.Rel (fun x y => R (f x) (f y)) o o' := by
  cases o with
  | none | some x =>
    cases o' with
    | none => simp
    | some y => simp

theorem rel_eq (f : Value → Value) (o o' : Option Value) :
    Option.Rel (fun x y => f x = f y) o o' ↔ o.map f = o'.map f := by
  cases o with
  | none | some x =>
    cases o' with
    | none => simp
    | some y => simp

theorem canonical_object_iff (hx : (xs.map Prod.fst).Nodup) (hy : (ys.map Prod.fst).Nodup) :
    canonical (.object xs) = canonical (.object ys) ↔
      Matching (fun x y => canonical x = canonical y) xs ys := by
  constructor
  case mp =>
    intro h k
    rw [rel_eq]
    exact canonical_object_get? hx hy h k
  case mpr =>
    intro h
    have hsame : sortEntries (canonicalEntries xs) = sortEntries (canonicalEntries ys) := by
      apply sortEntries_congr
      · rw [canonicalEntries_keys]
        exact hx
      · rw [canonicalEntries_keys]
        exact hy
      · intro k
        rw [canonicalEntries_get?, canonicalEntries_get?, ← rel_eq]
        exact h k
    rw [canonical, canonical, hsame]

theorem respelled_object_iff (hx : (xs.map Prod.fst).Nodup) (hy : (ys.map Prod.fst).Nodup) :
    Respelled (.object xs) (.object ys) ↔ Matching Respelled xs ys := by
  have hx' : ((numeralEntries xs).map Prod.fst).Nodup := by rwa [numeralEntries_keys]
  have hy' : ((numeralEntries ys).map Prod.fst).Nodup := by rwa [numeralEntries_keys]
  unfold Respelled
  rw [numeral, numeral, canonical_object_iff hx' hy']
  unfold Matching
  apply forall_congr'
  intro k
  rw [numeralEntries_get?, numeralEntries_get?, rel_map]

theorem Matching.some {R : Value → Value → Prop} {xs ys : List (String × Value)}
    (h : Matching R xs ys) {k : String} {x : Value} (hx : Bindings.get? xs k = some x) :
    ∃ y, Bindings.get? ys k = some y ∧ R x y := by
  have hk := h k
  rw [hx] at hk
  cases hy : Bindings.get? ys k with
  | none =>
    rw [hy] at hk
    cases hk
  | some y =>
    rw [hy, Option.rel_some_some] at hk
    exact ⟨y, rfl, hk⟩

theorem Matching.keys (h : Matching R xs ys) (k : String) :
    k ∈ xs.map Prod.fst ↔ k ∈ ys.map Prod.fst := by
  rw [← not_iff_not, ← Bindings.get?_eq_none, ← Bindings.get?_eq_none]
  have hk := h k
  generalize Bindings.get? xs k = o at hk
  generalize Bindings.get? ys k = o' at hk
  cases hk with
  | none => simp
  | some _ => simp

theorem pyEq_object_iff (hx : (xs.map Prod.fst).Nodup) (hy : (ys.map Prod.fst).Nodup) :
    pyEq (.object xs) (.object ys) = true ↔ Matching (fun x y => pyEq x y = true) xs ys := by
  constructor
  case mp =>
    intro h k
    obtain ⟨ys', hys, hlen, hentries⟩ := pyEq_object.mp h
    rw [← Value.object.inj hys] at hlen hentries
    rw [pyEqEntries_iff] at hentries
    cases hxk : Bindings.get? xs k with
    | some x =>
      obtain ⟨y, hyk, heq⟩ := hentries k x (Bindings.mem_of_get? hxk)
      rw [Bindings.get?_of_mem hy (mem_of_lookup hyk)]
      exact .some heq
    | none =>
      have hsub : xs.map Prod.fst ⊆ ys.map Prod.fst := by
        intro q hq
        obtain ⟨e, he, heq⟩ := List.mem_map.mp hq
        obtain ⟨y, hyq, _⟩ := hentries e.1 e.2 he
        have hmem : (e.1, y) ∈ ys := mem_of_lookup hyq
        rw [← heq]
        exact List.mem_map.mpr ⟨_, hmem, rfl⟩
      have hall := keys_subset hx hlen hsub
      have hnone : Bindings.get? ys k = none := by
        rw [Bindings.get?_eq_none] at hxk ⊢
        exact fun hk => hxk (hall hk)
      rw [hnone]
      exact .none
  case mpr =>
    intro h
    have hlen : xs.length = ys.length := by
      have hperm := (List.perm_ext_iff_of_nodup hx hy).mpr h.keys
      have hlength := hperm.length_eq
      rwa [List.length_map, List.length_map] at hlength
    refine pyEq_object.mpr ⟨ys, rfl, hlen, pyEqEntries_iff.mpr ?_⟩
    intro k x hxk
    obtain ⟨y, hyk, heq⟩ := h.some (Bindings.get?_of_mem hx hxk)
    exact ⟨y, lookup_of_mem hy (Bindings.mem_of_get? hyk), heq⟩

/-- A number and its one spelling. -/
theorem numeral_of_rational (h : rational? a = some q) : numeral a = .float (.finite q) := by
  cases a with
  | bool b | int n => simpa [rational?, numeral] using h
  | float f =>
    cases f with
    | finite p | negZero => simpa [rational?, numeral] using h
    | posInf => simp [rational?] at h
    | negInf => simp [rational?] at h
    | nan => simp [rational?] at h
  | null => simp [rational?] at h
  | str s => simp [rational?] at h
  | array xs => simp [rational?] at h
  | object es => simp [rational?] at h

theorem rational_of_numeral (h : canonical (numeral b) = .float (.finite q)) :
    rational? b = some q := by
  cases b with
  | bool b | int n => simpa [rational?, numeral, canonical] using h
  | float f =>
    cases f with
    | finite p | negZero => simpa [rational?, numeral, canonical] using h
    | posInf | negInf | nan => simp [numeral, canonical] at h
  | null | str s | array xs | object es => simp [numeral, canonical] at h

theorem pyEq_number_iff (h : rational? a = some q) : pyEq a b = true ↔ Respelled a b := by
  rw [pyEq_number h, Respelled, numeral_of_rational h]
  constructor
  case mp =>
    intro hb
    rw [numeral_of_rational hb]
  case mpr =>
    intro hb
    exact rational_of_numeral hb.symm

mutual

theorem pyEq_iff_respelled : ∀ a b : Value, plain a = true → plain b = true →
    (pyEq a b = true ↔ Respelled a b)
  | .null, b, _, _ => by
      rw [pyEq_null]
      cases b with
      | float f => cases f <;> simp [Respelled, numeral, canonical]
      | _ => simp [Respelled, numeral, canonical]
  | .bool _, _, _, _ => pyEq_number_iff rfl
  | .int _, _, _, _ => pyEq_number_iff rfl
  | .str s, b, _, _ => by
      rw [pyEq_str]
      cases b with
      | float f => cases f <;> simp [Respelled, numeral, canonical]
      | _ => simp [Respelled, numeral, canonical, eq_comm]
  | .float (.finite _), _, _, _ => pyEq_number_iff rfl
  | .float .negZero, _, _, _ => pyEq_number_iff rfl
  | .float .posInf, b, _, _ => by
      rw [pyEq_posInf]
      cases b with
      | float f => cases f <;> simp [Respelled, numeral, canonical]
      | _ => simp [Respelled, numeral, canonical]
  | .float .negInf, b, _, _ => by
      rw [pyEq_negInf]
      cases b with
      | float f => cases f <;> simp [Respelled, numeral, canonical]
      | _ => simp [Respelled, numeral, canonical]
  | .float .nan, _, h, _ => by simp [plain] at h
  | .array xs, b, ha, hb => by
      cases b with
      | array ys =>
        rw [pyEq, pyEqItems_iff_respelled xs ys (by simpa [plain] using ha)
          (by simpa [plain] using hb)]
        simp [Respelled, numeral, canonical]
      | float f => cases f <;> simp [pyEq, rational?, Respelled, numeral, canonical]
      | _ => simp [pyEq, rational?, Respelled, numeral, canonical]
  | .object xs, b, ha, hb => by
      cases b with
      | object ys =>
        simp only [plain, Bool.and_eq_true, decide_eq_true_eq] at ha hb
        rw [pyEq_object_iff ha.1 hb.1, respelled_object_iff ha.1 hb.1]
        have hvalue : ∀ k x y, Bindings.get? xs k = some x → Bindings.get? ys k = some y →
            (pyEq x y = true ↔ Respelled x y) := fun k x y hx hy =>
          entries_iff_respelled xs ha.2 k x (Bindings.mem_of_get? hx) y
            (plainEntries_mem hb.2 (Bindings.mem_of_get? hy))
        unfold Matching
        apply forall_congr'
        intro k
        cases hx : Bindings.get? xs k with
        | none =>
          cases hy : Bindings.get? ys k with
          | none => simp
          | some y => simp
        | some x =>
          cases hy : Bindings.get? ys k with
          | none => simp
          | some y =>
            rw [Option.rel_some_some, Option.rel_some_some]
            exact hvalue k x y hx hy
      | float f => cases f <;> simp [pyEq, rational?, Respelled, numeral, canonical]
      | _ => simp [pyEq, rational?, Respelled, numeral, canonical]

theorem pyEqItems_iff_respelled : ∀ xs ys : List Value, plainItems xs = true →
    plainItems ys = true → (pyEqItems xs ys = true ↔
      canonicalItems (numeralItems xs) = canonicalItems (numeralItems ys))
  | [], [], _, _ => by simp [pyEqItems]
  | [], _ :: _, _, _ => by simp [pyEqItems, numeralItems, canonicalItems]
  | _ :: _, [], _, _ => by simp [pyEqItems, numeralItems, canonicalItems]
  | x :: xs, y :: ys, hx, hy => by
      simp only [plainItems, Bool.and_eq_true] at hx hy
      rw [pyEqItems, Bool.and_eq_true, pyEq_iff_respelled x y hx.1 hy.1,
        pyEqItems_iff_respelled xs ys hx.2 hy.2]
      simp [Respelled, numeralItems, canonicalItems]

theorem entries_iff_respelled : ∀ xs : List (String × Value), plainEntries xs = true →
    ∀ k x, (k, x) ∈ xs → ∀ y, plain y = true → (pyEq x y = true ↔ Respelled x y)
  | [], _, _, _, hx, _, _ => by cases hx
  | (l, v) :: xs, h, k, x, hx, y, hy => by
      simp only [plainEntries, Bool.and_eq_true] at h
      rcases List.mem_cons.mp hx with heq | hx
      · have hv : x = v := congrArg Prod.snd heq
        rw [hv]
        exact pyEq_iff_respelled v y h.1 hy
      · exact entries_iff_respelled xs h.2 k x hx y hy

end

theorem numeralEntries_eq_map (entries : List (String × Value)) :
    numeralEntries entries = entries.map fun e => (e.1, numeral e.2) := by
  induction entries with
  | nil => rfl
  | cons e es ih =>
    have ⟨q, v⟩ := e
    rw [numeralEntries, ih, List.map_cons]

theorem numeralEntries_sort (entries : List (String × Value)) :
    numeralEntries (sortEntries entries) = sortEntries (numeralEntries entries) := by
  rw [numeralEntries_eq_map, numeralEntries_eq_map]
  exact List.map_insertionSort _ _ _ _ fun _ _ _ _ => Iff.rfl

mutual

theorem numeral_canonical : ∀ v : Value, numeral (canonical v) = canonical (numeral v)
  | .null => rfl
  | .bool _ => rfl
  | .int _ => rfl
  | .str _ => rfl
  | .float f => by cases f <;> rfl
  | .array items => by
      rw [canonical, numeral, numeral, canonical, numeralItems_canonical items]
  | .object entries => by
      rw [canonical, numeral, numeral, canonical, numeralEntries_sort,
        numeralEntries_canonical entries]

theorem numeralItems_canonical : ∀ vs : List Value,
    numeralItems (canonicalItems vs) = canonicalItems (numeralItems vs)
  | [] => rfl
  | v :: vs => by
      rw [canonicalItems, numeralItems, numeralItems, canonicalItems, numeral_canonical v,
        numeralItems_canonical vs]

theorem numeralEntries_canonical : ∀ es : List (String × Value),
    numeralEntries (canonicalEntries es) = canonicalEntries (numeralEntries es)
  | [] => rfl
  | (k, v) :: es => by
      rw [canonicalEntries, numeralEntries, numeralEntries, canonicalEntries, numeral_canonical v,
        numeralEntries_canonical es]

end

theorem respelled_of_canonical (h : canonical a = canonical b) : Respelled a b := by
  unfold Respelled
  rw [← numeral_canonical, h, numeral_canonical]

theorem pyEq_of_canonical (ha : plain a = true) (hb : plain b = true)
    (h : canonical a = canonical b) : pyEq a b = true :=
  (pyEq_iff_respelled a b ha hb).mpr (respelled_of_canonical h)

end Cruxible.JsonValue.Value
