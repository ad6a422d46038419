import Cruxible.OnlineExtrema
import Cruxible.OrderValues

/-!
# The order of JSON values

What holds of `<` on all values that a mapping can hold, lists and `nan` among
them: equal values compare alike, and `<` is transitive wherever it answers yes.
Without `nan`, two values that compare are in order one way or the other or equal.
-/
namespace Cruxible.OrderValues
open JsonValue Value OnlineExtrema

variable {a : Value} {p : PyFloat} {b : OrderValue} {k : Kind} {m : Int}

/-- Equal values are one number, or none of them is. -/
theorem number_of_pyEq {b : Value} (h : pyEq a b = true) : number? a = number? b := by
  cases a with
  | null => rw [pyEq_null.mp h]
  | str s => rw [pyEq_str.mp h]
  | array xs =>
    obtain ⟨ys, rfl, -⟩ := pyEq_array.mp h
    rfl
  | object xs =>
    obtain ⟨ys, rfl, -⟩ := pyEq_object.mp h
    rfl
  | bool x | int n => exact number_of_rational ((pyEq_number rfl).mp h) rfl
  | float f =>
    cases f with
    | finite q | negZero => exact number_of_rational ((pyEq_number rfl).mp h) rfl
    | posInf => rw [pyEq_posInf.mp h]
    | negInf => rw [pyEq_negInf.mp h]
    | nan => simp [pyEq_nan] at h
where
  number_of_rational {a b : Value} {q : Rat} (hb : rational? b = some q)
      (ha : number? a = some (.finite q)) : number? a = number? b := by
    rw [ha]
    cases b with
    | bool x =>
      cases hb
      rfl
    | int n =>
      cases hb
      rfl
    | float f =>
      cases f with
      | finite p =>
        cases hb
        rfl
      | negZero =>
        cases hb
        rfl
      | _ => cases hb
    | _ => cases hb

theorem jsonLt_object {xs : List (String × Value)} {c : Value} :
    jsonLt (.object xs) c = none ∧ jsonLt c (.object xs) = none := by
  cases c <;> simp [jsonLt, number?]

theorem pyEq_congr {b : Value} (c : Value) (ha : a.keyed = true) (hb : b.keyed = true)
    (h : pyEq a b = true) : pyEq a c = pyEq b c ∧ pyEq c a = pyEq c b := by
  have hba := pyEq_symm_of_keyed a b ha hb h
  constructor
  · rw [Bool.eq_iff_iff]
    exact ⟨fun hac => pyEq_trans b a c hba hac, fun hbc => pyEq_trans a b c h hbc⟩
  · rw [Bool.eq_iff_iff]
    exact ⟨fun hca => pyEq_trans c a b hca h, fun hcb => pyEq_trans c b a hcb hba⟩

mutual

theorem jsonLt_congr : ∀ a b c : Value, a.keyed = true → b.keyed = true → c.keyed = true →
    pyEq a b = true → jsonLt a c = jsonLt b c ∧ jsonLt c a = jsonLt c b
  | .null, b, c, _, _, _, h => by rw [pyEq_null.mp h]; exact ⟨rfl, rfl⟩
  | .str s, b, c, _, _, _, h => by rw [pyEq_str.mp h]; exact ⟨rfl, rfl⟩
  | .object xs, b, c, _, _, _, h => by
      obtain ⟨ys, rfl, -⟩ := pyEq_object.mp h
      rw [jsonLt_object.1, jsonLt_object.1, jsonLt_object.2, jsonLt_object.2]
      exact ⟨rfl, rfl⟩
  | .array xs, b, c, ha, hb, hc, h => by
      obtain ⟨ys, rfl, hitems⟩ := pyEq_array.mp h
      cases c with
      | array zs => exact itemsLt_congr xs ys zs ha hb hc hitems
      | _ => exact ⟨rfl, rfl⟩
  | .bool x, b, c, _, _, _, h => numbers_congr rfl h
  | .int n, b, c, _, _, _, h => numbers_congr rfl h
  | .float f, b, c, _, _, _, h => by cases f <;> exact numbers_congr rfl h
where
  numbers_congr {a b c : Value} {p : PyFloat} (ha : number? a = some p) (h : pyEq a b = true) :
      jsonLt a c = jsonLt b c ∧ jsonLt c a = jsonLt c b := by
    have hb : number? b = some p := (number_of_pyEq h).symm.trans ha
    rw [(jsonLt_number ha c).1, (jsonLt_number ha c).2, (jsonLt_number hb c).1,
      (jsonLt_number hb c).2]
    exact ⟨rfl, rfl⟩

theorem itemsLt_congr : ∀ xs ys zs : List Value, keyedItems xs = true → keyedItems ys = true →
    keyedItems zs = true → pyEqItems xs ys = true →
    itemsLt xs zs = itemsLt ys zs ∧ itemsLt zs xs = itemsLt zs ys
  | [], [], _, _, _, _, _ => ⟨rfl, rfl⟩
  | [], _ :: _, _, _, _, _, h => by simp [pyEqItems] at h
  | _ :: _, [], _, _, _, _, h => by simp [pyEqItems] at h
  | _ :: _, _ :: _, [], _, _, _, _ => ⟨rfl, rfl⟩
  | x :: xs, y :: ys, z :: zs, hx, hy, hz, h => by
      simp only [keyedItems, Bool.and_eq_true] at hx hy hz
      rw [pyEqItems, Bool.and_eq_true] at h
      have hhead := jsonLt_congr x y z hx.1 hy.1 hz.1 h.1
      have htail := itemsLt_congr xs ys zs hx.2 hy.2 hz.2 h.2
      have heq := pyEq_congr z hx.1 hy.1 h.1
      simp only [itemsLt, hhead.1, hhead.2, htail.1, htail.2, heq.1, heq.2, and_self]

end

theorem floatLt_irrefl (p : PyFloat) : floatLt p p = false := by
  have h := floatLt_asymm p p
  simpa using h

mutual

theorem not_lt_of_pyEq : ∀ a b : Value, pyEq a b = true → jsonLt a b ≠ some true
  | .null, b, h => by rw [pyEq_null.mp h]; simp [jsonLt, number?]
  | .str s, b, h => by rw [pyEq_str.mp h]; simp [jsonLt]
  | .object xs, b, _ => by rw [jsonLt_object.1]; simp
  | .array xs, b, h => by
      obtain ⟨ys, rfl, hitems⟩ := pyEq_array.mp h
      exact items_not_lt xs ys hitems
  | .bool x, b, h => numbers_not_lt rfl h
  | .int n, b, h => numbers_not_lt rfl h
  | .float f, b, h => by cases f <;> exact numbers_not_lt rfl h
where
  numbers_not_lt {a b : Value} {p : PyFloat} (ha : number? a = some p) (h : pyEq a b = true) :
      jsonLt a b ≠ some true := by
    rw [(jsonLt_number ha b).1, ← number_of_pyEq h, ha, Option.map_some, floatLt_irrefl]
    simp

theorem items_not_lt : ∀ xs ys : List Value, pyEqItems xs ys = true → itemsLt xs ys ≠ some true
  | [], [], _ => by simp [itemsLt]
  | [], _ :: _, h => by simp [pyEqItems] at h
  | _ :: _, [], h => by simp [pyEqItems] at h
  | x :: xs, y :: ys, h => by
      rw [pyEqItems, Bool.and_eq_true] at h
      rw [itemsLt, if_pos h.1]
      exact items_not_lt xs ys h.2

end

variable {q : PyFloat}

theorem floatLt_trans {r : PyFloat} (h : floatLt p q = true) (h' : floatLt q r = true) :
    floatLt p r = true := by
  cases p with
  | finite p =>
    cases q with
    | finite q =>
      cases r with
      | finite r =>
        simp only [floatLt, decide_eq_true_eq] at h h' ⊢
        exact h.trans h'
      | posInf => rfl
      | _ => simp [floatLt] at h'
    | _ => cases r <;> simp_all [floatLt]
  | negInf =>
    cases q with
    | finite q => cases r <;> simp_all [floatLt]
    | _ => cases r <;> simp_all [floatLt]
  | _ => cases q <;> simp [floatLt] at h

mutual

theorem jsonLt_trans : ∀ a b c : Value, a.keyed = true → b.keyed = true → c.keyed = true →
    jsonLt a b = some true → jsonLt b c = some true → jsonLt a c = some true
  | .null, b, _, _, _, _, h, _ => by cases b <;> simp [jsonLt, number?] at h
  | .object xs, b, _, _, _, _, h, _ => by rw [jsonLt_object.1] at h; cases h
  | .str s, b, c, _, _, _, h, h' => by
      cases b with
      | str t =>
        cases c with
        | str u =>
          simp only [jsonLt, Option.some.injEq, decide_eq_true_eq] at h h' ⊢
          exact h.trans h'
        | _ => simp [jsonLt, number?] at h'
      | _ => simp [jsonLt, number?] at h
  | .array xs, b, c, ha, hb, hc, h, h' => by
      cases b with
      | array ys =>
        cases c with
        | array zs => exact itemsLt_trans xs ys zs ha hb hc h h'
        | _ => simp [jsonLt, number?] at h'
      | _ => simp [jsonLt, number?] at h
  | .bool x, b, c, _, _, _, h, h' => numbers_trans rfl h h'
  | .int n, b, c, _, _, _, h, h' => numbers_trans rfl h h'
  | .float f, b, c, _, _, _, h, h' => by cases f <;> exact numbers_trans rfl h h'
where
  numbers_trans {a b c : Value} {p : PyFloat} (ha : number? a = some p)
      (h : jsonLt a b = some true) (h' : jsonLt b c = some true) : jsonLt a c = some true := by
    rw [(jsonLt_number ha b).1, Option.map_eq_some_iff] at h
    obtain ⟨q, hq, hpq⟩ := h
    rw [(jsonLt_number hq c).1, Option.map_eq_some_iff] at h'
    obtain ⟨r, hr, hqr⟩ := h'
    rw [(jsonLt_number ha c).1, hr, Option.map_some, floatLt_trans hpq hqr]

theorem itemsLt_trans : ∀ xs ys zs : List Value, keyedItems xs = true → keyedItems ys = true →
    keyedItems zs = true → itemsLt xs ys = some true → itemsLt ys zs = some true →
    itemsLt xs zs = some true
  | [], [], _, _, _, _, h, _ => by simp [itemsLt] at h
  | _, _ :: _, [], _, _, _, _, h' => by simp [itemsLt] at h'
  | [], _ :: _, _ :: _, _, _, _, _, _ => rfl
  | _ :: _, [], _, _, _, _, h, _ => by simp [itemsLt] at h
  | x :: xs, y :: ys, z :: zs, hx, hy, hz, h, h' => by
      simp only [keyedItems, Bool.and_eq_true] at hx hy hz
      rw [itemsLt] at h h' ⊢
      by_cases hxy : pyEq x y = true
      · have heq := pyEq_congr z hx.1 hy.1 hxy
        rw [if_pos hxy] at h
        rw [heq.1, (jsonLt_congr x y z hx.1 hy.1 hz.1 hxy).1]
        split_ifs at h' ⊢
        · exact itemsLt_trans xs ys zs hx.2 hy.2 hz.2 h h'
        · exact h'
      · rw [if_neg hxy] at h
        by_cases hyz : pyEq y z = true
        · rw [← (pyEq_congr x hy.1 hz.1 hyz).2, if_neg hxy,
            ← (jsonLt_congr y z x hy.1 hz.1 hx.1 hyz).2]
          exact h
        · rw [if_neg hyz] at h'
          have hlt := jsonLt_trans x y z hx.1 hy.1 hz.1 h h'
          rw [if_neg fun hxz => not_lt_of_pyEq x z hxz hlt]
          exact hlt

end

theorem floatLt_total (hp : p ≠ .nan) (hp' : p ≠ .negZero) (hq : q ≠ .nan) (hq' : q ≠ .negZero)
    (h : floatLt p q = false) (h' : floatLt q p = false) : p = q := by
  cases p with
  | finite p =>
    cases q with
    | finite q =>
      simp only [floatLt, decide_eq_false_iff_not, not_lt] at h h'
      rw [le_antisymm h' h]
    | _ => simp_all [floatLt]
  | _ => cases q <;> simp_all [floatLt]

theorem number_ne_negZero (h : number? a = some p) : p ≠ .negZero := by
  rintro rfl
  cases a with
  | float f => cases f <;> simp [number?] at h
  | _ => simp [number?] at h

theorem number_ne_nan (ha : plain a = true) (h : number? a = some p) : p ≠ .nan := by
  rintro rfl
  cases a with
  | float f => cases f <;> simp_all [number?, plain]
  | _ => simp [number?] at h

theorem rational_of_number {q : Rat} (h : number? a = some (.finite q)) : rational? a = some q := by
  cases a with
  | float f => cases f <;> simp_all [number?, rational?]
  | bool x | int n => simpa [number?, rational?] using h
  | _ => simp [number?] at h

theorem pyEq_of_number {b : Value} (ha : number? a = some p) (hb : number? b = some p)
    (hp : p ≠ .nan) : pyEq a b = true := by
  have hinfinite : ∀ {c : Value} {f : PyFloat}, f = .posInf ∨ f = .negInf →
      number? c = some f → c = .float f := by
    intro c f hf hc
    cases c with
    | float g => cases g <;> rcases hf with rfl | rfl <;> simp_all [number?]
    | _ => rcases hf with rfl | rfl <;> simp [number?] at hc
  cases p with
  | finite q => exact (pyEq_number (rational_of_number ha)).mpr (rational_of_number hb)
  | negZero => exact absurd rfl (number_ne_negZero ha)
  | posInf =>
    rw [hinfinite (.inl rfl) ha]
    exact pyEq_posInf.mpr (hinfinite (.inl rfl) hb)
  | negInf =>
    rw [hinfinite (.inr rfl) ha]
    exact pyEq_negInf.mpr (hinfinite (.inr rfl) hb)
  | nan => exact absurd rfl hp

mutual

theorem pyEq_of_not_lt : ∀ a b : Value, plain a = true → plain b = true →
    jsonLt a b = some false → jsonLt b a = some false → pyEq a b = true
  | .null, b, _, _, h, _ => by cases b <;> simp [jsonLt, number?] at h
  | .object xs, b, _, _, h, _ => by rw [jsonLt_object.1] at h; cases h
  | .str s, b, _, _, h, h' => by
      cases b with
      | str t =>
        simp only [jsonLt, Option.some.injEq, decide_eq_false_iff_not, not_lt] at h h'
        exact pyEq_str.mpr (by rw [le_antisymm h h'])
      | _ => simp [jsonLt, number?] at h
  | .array xs, b, ha, hb, h, h' => by
      cases b with
      | array ys => exact pyEq_array.mpr ⟨ys, rfl, pyEqItems_of_not_lt xs ys ha hb h h'⟩
      | _ => simp [jsonLt, number?] at h
  | .bool x, b, ha, hb, h, h' => numbers_total rfl ha hb h h'
  | .int n, b, ha, hb, h, h' => numbers_total rfl ha hb h h'
  | .float f, b, ha, hb, h, h' => by cases f <;> exact numbers_total rfl ha hb h h'
where
  numbers_total {a b : Value} {p : PyFloat} (hp : number? a = some p) (ha : plain a = true)
      (hb : plain b = true) (h : jsonLt a b = some false) (h' : jsonLt b a = some false) :
      pyEq a b = true := by
    rw [(jsonLt_number hp b).1, Option.map_eq_some_iff] at h
    obtain ⟨q, hq, hpq⟩ := h
    rw [(jsonLt_number hp b).2, hq, Option.map_some, Option.some.injEq] at h'
    have heq : p = q := floatLt_total (number_ne_nan ha hp) (number_ne_negZero hp)
      (number_ne_nan hb hq) (number_ne_negZero hq) hpq h'
    exact pyEq_of_number hp (heq ▸ hq) (number_ne_nan ha hp)

theorem pyEqItems_of_not_lt : ∀ xs ys : List Value, plainItems xs = true → plainItems ys = true →
    itemsLt xs ys = some false → itemsLt ys xs = some false → pyEqItems xs ys = true
  | [], [], _, _, _, _ => rfl
  | [], _ :: _, _, _, h, _ => by simp [itemsLt] at h
  | _ :: _, [], _, _, _, h' => by simp [itemsLt] at h'
  | x :: xs, y :: ys, hx, hy, h, h' => by
      simp only [plainItems, Bool.and_eq_true] at hx hy
      have hsymm : pyEq y x = pyEq x y := by
        rw [Bool.eq_iff_iff]
        exact ⟨pyEq_symm y x hy.1 hx.1, pyEq_symm x y hx.1 hy.1⟩
      rw [itemsLt] at h h'
      rw [hsymm] at h'
      rw [pyEqItems, Bool.and_eq_true]
      by_cases hxy : pyEq x y = true
      · rw [if_pos hxy] at h h'
        exact ⟨hxy, pyEqItems_of_not_lt xs ys hx.2 hy.2 h h'⟩
      · rw [if_neg hxy] at h h'
        exact absurd (pyEq_of_not_lt x y hx.1 hy.1 h h') hxy

end

/-- `a == b`; times with and without an offset are never equal. -/
def valueEq : OrderValue → OrderValue → Bool
  | .json a _, .json b _ => pyEq a b
  | .date d, .date d' => decide (d = d')
  | .datetime w none, .datetime w' none => decide (w = w')
  | .datetime w (some o), .datetime w' (some o') => decide (w - o = w' - o')
  | _, _ => false

theorem valueEq_moment {a : OrderValue} {l : Kind} {n : Int} (ha : moment? a = some (k, m))
    (hb : moment? b = some (l, n)) : valueEq a b = true ↔ k = l ∧ m = n := by
  rcases moment?_cases ha with ⟨rfl, rfl⟩ | ⟨rfl, rfl⟩ | ⟨w, o, rfl, rfl, rfl⟩ <;>
    rcases moment?_cases hb with ⟨rfl, rfl⟩ | ⟨rfl, rfl⟩ | ⟨w', o', rfl, rfl, rfl⟩ <;>
    simp [valueEq]

/-- What compares or is equal is both JSON or both a moment. -/
theorem related_cases {a : OrderValue} (h : valueLt a b = some true ∨ valueEq a b = true) :
    (∃ v hv w hw, a = .json v hv ∧ b = .json w hw) ∨
      ∃ k m n, moment? a = some (k, m) ∧ moment? b = some (k, n) := by
  cases a with
  | json v hv =>
    cases b with
    | json w hw => exact .inl ⟨v, hv, w, hw, rfl, rfl⟩
    | _ => simp [valueLt, valueEq] at h
  | date d =>
    cases b with
    | date d' => exact .inr ⟨_, _, _, rfl, rfl⟩
    | _ => simp [valueLt, valueEq] at h
  | datetime w o =>
    cases b with
    | datetime w' o' =>
      cases o <;> cases o' <;> first
        | exact .inr ⟨_, _, _, rfl, rfl⟩
        | simp [valueLt, valueEq] at h
    | _ => simp [valueLt, valueEq] at h
  | model d => cases b <;> simp [valueLt, valueEq] at h

theorem valueLt_apart {a : OrderValue} {v : Value} {hv : v.keyed = true} (ha : a = .json v hv)
    (hb : moment? b = some (k, m)) : valueLt a b = none ∧ valueLt b a = none := by
  subst ha
  cases b with
  | json w hw => cases hb
  | _ => simp [valueLt]

theorem valueLt_model (a : OrderValue) (d : Value) :
    valueLt a (.model d) = none ∧ valueLt (.model d) a = none := by
  cases a <;> simp [valueLt]

theorem valueLt_trans (a b c : OrderValue) (h : valueLt a b = some true)
    (h' : valueLt b c = some true) : valueLt a c = some true := by
  rcases related_cases (.inl h) with ⟨v, hv, w, hw, rfl, rfl⟩ | ⟨k, m, n, ha, hb⟩
  · rcases related_cases (.inl h') with ⟨_, _, u, hu, -, rfl⟩ | ⟨_, _, _, hb, -⟩
    · exact jsonLt_trans v w u hv hw hu h h'
    · cases hb
  · rcases related_cases (.inl h') with ⟨_, _, _, _, rfl, -⟩ | ⟨l, n', p, hb', hc⟩
    · cases hb
    · cases hb.symm.trans hb'
      rw [valueLt_moment ha hb, if_pos rfl, Option.some.injEq, decide_eq_true_eq] at h
      rw [valueLt_moment hb hc, if_pos rfl, Option.some.injEq, decide_eq_true_eq] at h'
      rw [valueLt_moment ha hc, if_pos rfl, decide_eq_true (h.trans h')]

theorem valueEq_symm (a b : OrderValue) (h : valueEq a b = true) : valueEq b a = true := by
  rcases related_cases (.inr h) with ⟨v, hv, w, hw, rfl, rfl⟩ | ⟨k, m, n, ha, hb⟩
  · exact pyEq_symm_of_keyed v w hv hw h
  · exact (valueEq_moment hb ha).mpr ⟨rfl, ((valueEq_moment ha hb).mp h).2.symm⟩

theorem valueEq_trans (a b c : OrderValue) (h : valueEq a b = true) (h' : valueEq b c = true) :
    valueEq a c = true := by
  rcases related_cases (.inr h) with ⟨v, hv, w, hw, rfl, rfl⟩ | ⟨k, m, n, ha, hb⟩
  · rcases related_cases (.inr h') with ⟨_, _, u, hu, -, rfl⟩ | ⟨_, _, _, hb, -⟩
    · exact pyEq_trans v w u h h'
    · cases hb
  · rcases related_cases (.inr h') with ⟨_, _, _, _, rfl, -⟩ | ⟨l, n', p, hb', hc⟩
    · cases hb
    · cases hb.symm.trans hb'
      exact (valueEq_moment ha hc).mpr
        ⟨rfl, ((valueEq_moment ha hb).mp h).2.trans ((valueEq_moment hb hc).mp h').2⟩

theorem valueLt_congr (a b c : OrderValue) (h : valueEq a b = true) :
    valueLt a c = valueLt b c ∧ valueLt c a = valueLt c b := by
  rcases related_cases (.inr h) with ⟨v, hv, w, hw, rfl, rfl⟩ | ⟨k, m, n, ha, hb⟩
  · cases c with
    | json u hu => exact jsonLt_congr v w u hv hw hu h
    | _ => simp [valueLt]
  · obtain rfl := ((valueEq_moment ha hb).mp h).2
    cases hc : moment? c with
    | some p =>
      rw [valueLt_moment ha hc, valueLt_moment hb hc, valueLt_moment hc ha,
        valueLt_moment hc hb]
      exact ⟨rfl, rfl⟩
    | none =>
      cases c with
      | json u hu =>
        rw [(valueLt_apart rfl ha).1, (valueLt_apart rfl ha).2, (valueLt_apart rfl hb).1,
          (valueLt_apart rfl hb).2]
        exact ⟨rfl, rfl⟩
      | model d =>
        rw [(valueLt_model a d).1, (valueLt_model a d).2, (valueLt_model b d).1,
          (valueLt_model b d).2]
        exact ⟨rfl, rfl⟩
      | date d => cases hc
      | datetime w o => cases o <;> cases hc

theorem not_lt_of_valueEq (a b : OrderValue) (h : valueEq a b = true) :
    valueLt a b ≠ some true := by
  rcases related_cases (.inr h) with ⟨v, hv, w, hw, rfl, rfl⟩ | ⟨k, m, n, ha, hb⟩
  · exact not_lt_of_pyEq v w h
  · obtain rfl := ((valueEq_moment ha hb).mp h).2
    rw [valueLt_moment ha hb]
    simp

/-- `<` and `==` of Python. -/
def pythonComparison : Comparison OrderValue where
  lt := valueLt
  eq := valueEq
  refuses a b := (valueLt_opposite a b).1.mp
  asymm a b h h' := (valueLt_opposite a b).2 ⟨h, h'⟩
  trans := valueLt_trans
  eq_symm := valueEq_symm
  eq_trans := valueEq_trans
  congr_left a b c h := (valueLt_congr a b c h).1
  congr_right a b c h := (valueLt_congr a b c h).2
  not_lt := not_lt_of_valueEq

/-- A value that Python can hold; others compare with nothing. -/
def ordered (v : Value) : OrderValue := if h : v.keyed = true then .json v h else .model v

/-- No `nan` anywhere in it. -/
def nanFree : OrderValue → Bool
  | .json v _ => v.plain
  | _ => true

theorem valueEq_of_not_lt {a : OrderValue} (ha : nanFree a = true) (hb : nanFree b = true)
    (h : valueLt a b = some false) (h' : valueLt b a = some false) : valueEq a b = true := by
  cases a with
  | json v hv =>
    cases b with
    | json w hw => exact pyEq_of_not_lt v w ha hb h h'
    | _ => simp [valueLt] at h
  | model d => simp [valueLt] at h
  | date d =>
    cases b with
    | date d' =>
      simp only [valueLt, Option.some.injEq, decide_eq_false_iff_not, not_lt] at h h'
      exact decide_eq_true (le_antisymm h' h)
    | _ => simp [valueLt] at h
  | datetime w o =>
    cases b with
    | datetime w' o' =>
      cases o <;> cases o' <;> first
        | simp only [valueLt, Option.some.injEq, decide_eq_false_iff_not, not_lt] at h h'
          exact decide_eq_true (le_antisymm h' h)
        | simp [valueLt] at h
    | _ => simp [valueLt] at h

end Cruxible.OrderValues
