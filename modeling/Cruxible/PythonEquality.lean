import Cruxible.JsonValue
import Mathlib.Data.List.Nodup
import Mathlib.Data.List.Perm.Subperm

/-!
# Equality of JSON values as an equivalence

The comparison `==` is symmetric and transitive on the values that a mapping can
hold, whose objects have one entry for a key. It is reflexive where no `nan`
occurs.
-/
namespace Cruxible.JsonValue.Value

mutual

/-- No `nan` anywhere, and the objects have distinct keys. -/
def plain : Value → Bool
  | .float .nan => false
  | .array xs => plainItems xs
  | .object xs => decide (xs.map Prod.fst).Nodup && plainEntries xs
  | _ => true

def plainItems : List Value → Bool
  | [] => true
  | x :: xs => plain x && plainItems xs

def plainEntries : List (String × Value) → Bool
  | [] => true
  | (_, x) :: xs => plain x && plainEntries xs

end

mutual

/-- Objects have distinct keys. -/
def keyed : Value → Bool
  | .array xs => keyedItems xs
  | .object xs => decide (xs.map Prod.fst).Nodup && keyedEntries xs
  | _ => true

def keyedItems : List Value → Bool
  | [] => true
  | x :: xs => keyed x && keyedItems xs

def keyedEntries : List (String × Value) → Bool
  | [] => true
  | (_, x) :: xs => keyed x && keyedEntries xs

end

mutual

theorem keyed_of_plain : ∀ v : Value, plain v = true → keyed v = true
  | .null, _ => rfl
  | .bool _, _ => rfl
  | .int _, _ => rfl
  | .float _, _ => rfl
  | .str _, _ => rfl
  | .array xs, h => by
      rw [keyed]
      exact keyedItems_of_plain xs (by simpa [plain] using h)
  | .object xs, h => by
      rw [plain, Bool.and_eq_true] at h
      rw [keyed, Bool.and_eq_true]
      exact ⟨h.1, keyedEntries_of_plain xs h.2⟩

theorem keyedItems_of_plain : ∀ xs : List Value, plainItems xs = true → keyedItems xs = true
  | [], _ => rfl
  | x :: xs, h => by
      rw [plainItems, Bool.and_eq_true] at h
      rw [keyedItems, Bool.and_eq_true]
      exact ⟨keyed_of_plain x h.1, keyedItems_of_plain xs h.2⟩

theorem keyedEntries_of_plain : ∀ xs : List (String × Value), plainEntries xs = true →
    keyedEntries xs = true
  | [], _ => rfl
  | (_, x) :: xs, h => by
      rw [plainEntries, Bool.and_eq_true] at h
      rw [keyedEntries, Bool.and_eq_true]
      exact ⟨keyed_of_plain x h.1, keyedEntries_of_plain xs h.2⟩

end

variable {k : String} {x b : Value} {xs : List (String × Value)}

theorem keyedEntries_mem (h : keyedEntries xs = true) (hx : (k, x) ∈ xs) : keyed x = true := by
  induction xs with
  | nil => cases hx
  | cons e xs ih =>
    simp only [keyedEntries, Bool.and_eq_true] at h
    rcases List.mem_cons.mp hx with rfl | hx
    · exact h.1
    · exact ih h.2 hx

theorem plainEntries_mem (h : plainEntries xs = true) (hx : (k, x) ∈ xs) : plain x = true := by
  induction xs with
  | nil => cases hx
  | cons e xs ih =>
    simp only [plainEntries, Bool.and_eq_true] at h
    rcases List.mem_cons.mp hx with rfl | hx
    · exact h.1
    · exact ih h.2 hx

theorem mem_of_lookup (h : xs.lookup k = some x) : (k, x) ∈ xs := by
  induction xs with
  | nil => cases h
  | cons e xs ih =>
    rw [List.lookup_cons] at h
    by_cases hk : k = e.1
    · have hx : e.2 = x := by simpa [hk] using h
      rw [hk, ← hx]
      exact List.mem_cons_self
    · have hne : (k == e.1) = false := by simpa using hk
      rw [hne] at h
      exact List.mem_cons_of_mem e (ih h)

theorem lookup_of_mem (hn : (xs.map Prod.fst).Nodup) (h : (k, x) ∈ xs) : xs.lookup k = some x := by
  induction xs with
  | nil => cases h
  | cons e xs ih =>
    rw [List.map_cons, List.nodup_cons] at hn
    rcases List.mem_cons.mp h with rfl | h
    · exact List.lookup_cons_self
    · have hne : k ≠ e.1 := by
        intro hk
        exact hn.1 (hk ▸ List.mem_map_of_mem h)
      have hbeq : (k == e.1) = false := by simpa using hne
      rw [List.lookup_cons, hbeq]
      exact ih hn.2 h

variable {ys : List (String × Value)}

theorem keys_subset (hx : (xs.map Prod.fst).Nodup) (hlen : xs.length = ys.length)
    (hsub : xs.map Prod.fst ⊆ ys.map Prod.fst) : ys.map Prod.fst ⊆ xs.map Prod.fst := by
  have hperm := (List.subperm_of_subset hx hsub).perm_of_length_le (by simp [hlen])
  exact hperm.symm.subset

theorem pyEqEntries_iff : pyEqEntries xs ys = true ↔
    ∀ k x, (k, x) ∈ xs → ∃ y, ys.lookup k = some y ∧ pyEq x y = true := by
  induction xs with
  | nil => simp [pyEqEntries]
  | cons e xs ih =>
    obtain ⟨l, v⟩ := e
    rw [pyEqEntries, Bool.and_eq_true, ih]
    constructor
    · intro h k x hx
      rcases List.mem_cons.mp hx with heq | hx
      · have hk : k = l := congrArg Prod.fst heq
        have hv : x = v := congrArg Prod.snd heq
        rw [hk, hv]
        cases hy : ys.lookup l with
        | none => simp [hy] at h
        | some y => exact ⟨y, rfl, by simpa [hy] using h.1⟩
      · exact h.2 k x hx
    · intro h
      refine ⟨?_, fun k x hx => h k x (List.mem_cons_of_mem _ hx)⟩
      have ⟨y, hy, heq⟩ := h l v List.mem_cons_self
      rw [hy]
      exact heq

theorem pyEq_object :
    pyEq (.object xs) b = true ↔
      ∃ ys, b = .object ys ∧ xs.length = ys.length ∧ pyEqEntries xs ys = true := by
  cases b <;> simp [pyEq, rational?]

theorem pyEq_number {a : Value} {p : Rat} (ha : rational? a = some p) :
    pyEq a b = true ↔ rational? b = some p := by
  have hcompare : pyEq a b = (rational? a).any fun p => (rational? b).any (p == ·) := by
    rw [pyEq]
    all_goals
      first
        | cases rational? a <;> cases rational? b <;> rfl
        | intros
          simp_all [rational?]
  rw [hcompare, ha]
  cases hb : rational? b with
  | none => simp
  | some q =>
    rw [Option.any_some, Option.any_some, beq_iff_eq, Option.some.injEq]
    exact eq_comm

theorem pyEq_null : pyEq .null b = true ↔ b = .null := by
  cases b <;> simp [pyEq, rational?]

theorem pyEq_str {s : String} : pyEq (.str s) b = true ↔ b = .str s := by
  cases b with
  | str t =>
    rw [pyEq, beq_iff_eq, Value.str.injEq]
    exact eq_comm
  | _ => simp [pyEq, rational?]

theorem pyEq_posInf : pyEq (.float .posInf) b = true ↔ b = .float .posInf := by
  cases b with
  | float f => cases f <;> simp [pyEq, rational?]
  | _ => simp [pyEq, rational?]

theorem pyEq_negInf : pyEq (.float .negInf) b = true ↔ b = .float .negInf := by
  cases b with
  | float f => cases f <;> simp [pyEq, rational?]
  | _ => simp [pyEq, rational?]

theorem pyEq_nan : pyEq (.float .nan) b = false := by
  cases b with
  | float f => cases f <;> simp [pyEq, rational?]
  | _ => simp [pyEq, rational?]

mutual

theorem pyEq_refl : ∀ a : Value, plain a = true → pyEq a a = true
  | .null, _ => pyEq_null.mpr rfl
  | .bool _, _ => (pyEq_number rfl).mpr rfl
  | .int _, _ => (pyEq_number rfl).mpr rfl
  | .str _, _ => pyEq_str.mpr rfl
  | .float (.finite _), _ => (pyEq_number rfl).mpr rfl
  | .float .negZero, _ => (pyEq_number rfl).mpr rfl
  | .float .posInf, _ => pyEq_posInf.mpr rfl
  | .float .negInf, _ => pyEq_negInf.mpr rfl
  | .float .nan, h => by simp [plain] at h
  | .array xs, h => pyEq_array.mpr ⟨xs, rfl, pyEqItems_refl xs (by simpa [plain] using h)⟩
  | .object xs, h => by
      simp only [plain, Bool.and_eq_true, decide_eq_true_eq] at h
      refine pyEq_object.mpr ⟨xs, rfl, rfl, pyEqEntries_iff.mpr ?_⟩
      intro k x hx
      exact ⟨x, lookup_of_mem h.1 hx, entries_refl xs h.2 k x hx⟩

theorem pyEqItems_refl : ∀ xs : List Value, plainItems xs = true → pyEqItems xs xs = true
  | [], _ => by simp [pyEqItems]
  | x :: xs, h => by
      simp only [plainItems, Bool.and_eq_true] at h
      rw [pyEqItems, pyEq_refl x h.1, pyEqItems_refl xs h.2]
      rfl

theorem entries_refl : ∀ xs : List (String × Value), plainEntries xs = true →
    ∀ k x, (k, x) ∈ xs → pyEq x x = true
  | [], _, _, _, hx => by cases hx
  | (l, v) :: xs, h, k, x, hx => by
      simp only [plainEntries, Bool.and_eq_true] at h
      rcases List.mem_cons.mp hx with heq | hx
      · have hv : x = v := congrArg Prod.snd heq
        rw [hv]
        exact pyEq_refl v h.1
      · exact entries_refl xs h.2 k x hx

end

mutual

theorem pyEq_symm_of_keyed : ∀ a b : Value, keyed a = true → keyed b = true → pyEq a b = true →
    pyEq b a = true
  | .null, b, _, _, h => by rw [pyEq_null.mp h]; exact pyEq_null.mpr rfl
  | .bool x, b, _, _, h => (pyEq_number ((pyEq_number rfl).mp h)).mpr rfl
  | .int n, b, _, _, h => (pyEq_number ((pyEq_number rfl).mp h)).mpr rfl
  | .str s, b, _, _, h => by rw [pyEq_str.mp h]; exact pyEq_str.mpr rfl
  | .float (.finite q), b, _, _, h => (pyEq_number ((pyEq_number rfl).mp h)).mpr rfl
  | .float .negZero, b, _, _, h => (pyEq_number ((pyEq_number rfl).mp h)).mpr rfl
  | .float .posInf, b, _, _, h => by rw [pyEq_posInf.mp h]; exact pyEq_posInf.mpr rfl
  | .float .negInf, b, _, _, h => by rw [pyEq_negInf.mp h]; exact pyEq_negInf.mpr rfl
  | .float .nan, b, _, _, h => by simp [pyEq_nan] at h
  | .array xs, b, ha, hb, h => by
      have ⟨ys, hys, hitems⟩ := pyEq_array.mp h
      rw [hys] at hb ⊢
      exact pyEq_array.mpr ⟨xs, rfl, pyEqItems_symm xs ys (by simpa [keyed] using ha)
        (by simpa [keyed] using hb) hitems⟩
  | .object xs, b, ha, hb, h => by
      have ⟨ys, hys, hlen, hentries⟩ := pyEq_object.mp h
      rw [hys] at hb ⊢
      simp only [keyed, Bool.and_eq_true, decide_eq_true_eq] at ha hb
      rw [pyEqEntries_iff] at hentries
      refine pyEq_object.mpr ⟨xs, rfl, hlen.symm, pyEqEntries_iff.mpr ?_⟩
      intro l y hy
      have hsub : xs.map Prod.fst ⊆ ys.map Prod.fst := by
        intro k hk
        have ⟨e, he, hek⟩ := List.mem_map.mp hk
        have ⟨z, hz, _⟩ := hentries e.1 e.2 he
        have hkey : (e.1, z) ∈ ys := mem_of_lookup hz
        rw [← hek]
        exact List.mem_map.mpr ⟨_, hkey, rfl⟩
      have hl := keys_subset ha.1 hlen hsub (List.mem_map_of_mem hy)
      have ⟨e, he, hel⟩ := List.mem_map.mp hl
      have hmem : (l, e.2) ∈ xs := by
        have hlk : e.1 = l := hel
        rw [← hlk]
        exact he
      have ⟨z, hz, hxz⟩ := hentries l e.2 hmem
      have hzy : z = y := Option.some.inj (hz.symm.trans (lookup_of_mem hb.1 hy))
      rw [hzy] at hxz
      exact ⟨e.2, lookup_of_mem ha.1 hmem,
        entries_symm xs ha.2 l e.2 hmem y (keyedEntries_mem hb.2 hy) hxz⟩

theorem pyEqItems_symm : ∀ xs ys : List Value, keyedItems xs = true → keyedItems ys = true →
    pyEqItems xs ys = true → pyEqItems ys xs = true
  | [], [], _, _, _ => by simp [pyEqItems]
  | [], _ :: _, _, _, h => by simp [pyEqItems] at h
  | _ :: _, [], _, _, h => by simp [pyEqItems] at h
  | x :: xs, y :: ys, hx, hy, h => by
      simp only [keyedItems, Bool.and_eq_true] at hx hy
      rw [pyEqItems, Bool.and_eq_true] at h ⊢
      exact ⟨pyEq_symm_of_keyed x y hx.1 hy.1 h.1, pyEqItems_symm xs ys hx.2 hy.2 h.2⟩

theorem entries_symm : ∀ xs : List (String × Value), keyedEntries xs = true →
    ∀ k x, (k, x) ∈ xs → ∀ y, keyed y = true → pyEq x y = true → pyEq y x = true
  | [], _, _, _, hx, _, _, _ => by cases hx
  | (l, v) :: xs, h, k, x, hx, y, hy, hxy => by
      simp only [keyedEntries, Bool.and_eq_true] at h
      rcases List.mem_cons.mp hx with heq | hx
      · have hv : x = v := congrArg Prod.snd heq
        rw [hv] at hxy ⊢
        exact pyEq_symm_of_keyed v y h.1 hy hxy
      · exact entries_symm xs h.2 k x hx y hy hxy

end

theorem pyEq_symm (a b : Value) (ha : plain a = true) (hb : plain b = true)
    (h : pyEq a b = true) : pyEq b a = true :=
  pyEq_symm_of_keyed a b (keyed_of_plain a ha) (keyed_of_plain b hb) h

mutual

theorem pyEq_trans : ∀ a b c : Value, pyEq a b = true → pyEq b c = true → pyEq a c = true
  | .null, b, c, h, h' => by rwa [pyEq_null.mp h] at h'
  | .bool x, b, c, h, h' => (pyEq_number rfl).mpr ((pyEq_number ((pyEq_number rfl).mp h)).mp h')
  | .int n, b, c, h, h' => (pyEq_number rfl).mpr ((pyEq_number ((pyEq_number rfl).mp h)).mp h')
  | .str s, b, c, h, h' => by rwa [pyEq_str.mp h] at h'
  | .float (.finite q), b, c, h, h' =>
    (pyEq_number rfl).mpr ((pyEq_number ((pyEq_number rfl).mp h)).mp h')
  | .float .negZero, b, c, h, h' =>
    (pyEq_number rfl).mpr ((pyEq_number ((pyEq_number rfl).mp h)).mp h')
  | .float .posInf, b, c, h, h' => by rwa [pyEq_posInf.mp h] at h'
  | .float .negInf, b, c, h, h' => by rwa [pyEq_negInf.mp h] at h'
  | .float .nan, b, c, h, h' => by simp [pyEq_nan] at h
  | .array xs, b, c, h, h' => by
      have ⟨ys, hys, hitems⟩ := pyEq_array.mp h
      rw [hys] at h'
      have ⟨zs, hzs, hitems'⟩ := pyEq_array.mp h'
      exact pyEq_array.mpr ⟨zs, hzs, pyEqItems_trans xs ys zs hitems hitems'⟩
  | .object xs, b, c, h, h' => by
      have ⟨ys, hys, hlen, hentries⟩ := pyEq_object.mp h
      rw [hys] at h'
      have ⟨zs, hzs, hlen', hentries'⟩ := pyEq_object.mp h'
      refine pyEq_object.mpr ⟨zs, hzs, hlen.trans hlen', pyEqEntries_iff.mpr ?_⟩
      intro k x hx
      have ⟨y, hy, hxy⟩ := pyEqEntries_iff.mp hentries k x hx
      have ⟨z, hz, hyz⟩ := pyEqEntries_iff.mp hentries' k y (mem_of_lookup hy)
      exact ⟨z, hz, entries_trans xs k x hx y z hxy hyz⟩

theorem pyEqItems_trans : ∀ xs ys zs : List Value, pyEqItems xs ys = true →
    pyEqItems ys zs = true → pyEqItems xs zs = true
  | [], [], _, _, h' => h'
  | [], _ :: _, _, h, _ => by simp [pyEqItems] at h
  | _ :: _, [], _, h, _ => by simp [pyEqItems] at h
  | _ :: _, _ :: _, [], _, h' => by simp [pyEqItems] at h'
  | x :: xs, y :: ys, z :: zs, h, h' => by
      rw [pyEqItems, Bool.and_eq_true] at h h' ⊢
      exact ⟨pyEq_trans x y z h.1 h'.1, pyEqItems_trans xs ys zs h.2 h'.2⟩

theorem entries_trans : ∀ xs : List (String × Value), ∀ k x, (k, x) ∈ xs →
    ∀ y z, pyEq x y = true → pyEq y z = true → pyEq x z = true
  | [], _, _, hx, _, _, _, _ => by cases hx
  | (l, v) :: xs, k, x, hx, y, z, hxy, hyz => by
      rcases List.mem_cons.mp hx with heq | hx
      · have hv : x = v := congrArg Prod.snd heq
        rw [hv] at hxy ⊢
        exact pyEq_trans v y z hxy hyz
      · exact entries_trans xs k x hx y z hxy hyz

end

end Cruxible.JsonValue.Value
