import Cruxible.PythonEquality
import Mathlib.Data.String.Basic
import Mathlib.Algebra.Order.Ring.Rat
import Mathlib.Order.WithBot

/-!
# Comparing order values

`compare_order_values` of `query/projection.py`: two values are compared with `<` and
`>`, and by the names of their types and their texts when Python refuses that.
-/
namespace Cruxible.OrderValues
open JsonValue

/-- What an order reference resolves to. A model is known by its dump, and the members
of lists and mappings are JSON. -/
inductive OrderValue where
  | json (v : Value) (keyed : v.keyed = true)
  | date (day : Int)
  | datetime (wall : Int) (utcOffset : Option Int)
  | model (dump : Value)

/-- A number as a float without a negative zero. -/
def number? : Value → Option PyFloat
  | .bool b => some (.finite (if b then 1 else 0))
  | .int n => some (.finite n)
  | .float .negZero => some (.finite 0)
  | .float f => some f
  | _ => none

/-- `p < q`, which is false beside `nan`. -/
def floatLt : PyFloat → PyFloat → Bool
  | .finite p, .finite q => decide (p < q)
  | .finite _, .posInf => true
  | .negInf, .finite _ => true
  | .negInf, .posInf => true
  | _, _ => false

mutual

/-- `a < b`, or nothing where Python raises a `TypeError`. -/
def jsonLt : Value → Value → Option Bool
  | .str a, .str b => some (decide (a < b))
  | .array xs, .array ys => itemsLt xs ys
  | a, b =>
      match number? a, number? b with
      | some p, some q => some (floatLt p q)
      | _, _ => none

/-- Lists are compared at the first place where they differ. -/
def itemsLt : List Value → List Value → Option Bool
  | [], [] => some false
  | [], _ :: _ => some true
  | _ :: _, [] => some false
  | x :: xs, y :: ys => if Value.pyEq x y then itemsLt xs ys else jsonLt x y

end

/-- `a < b`; times with and without an offset are not compared. -/
def valueLt : OrderValue → OrderValue → Option Bool
  | .json a _, .json b _ => jsonLt a b
  | .date d, .date d' => some (decide (d < d'))
  | .datetime w none, .datetime w' none => some (decide (w < w'))
  | .datetime w (some o), .datetime w' (some o') => some (decide (w - o < w' - o'))
  | _, _ => none

/-- `type(value).__name__`, of the dump of a model. -/
def typeName : OrderValue → String
  | .json .null _ => "NoneType"
  | .json (.bool _) _ => "bool"
  | .json (.int _) _ => "int"
  | .json (.float _) _ => "float"
  | .json (.str _) _ => "str"
  | .json (.array _) _ => "list"
  | .json (.object _) _ => "dict"
  | .date _ => "date"
  | .datetime _ _ => "datetime"
  | .model _ => "dict"

/-- `compare_sort_keys`, with the `<` of the keys. -/
def compareSortKeys {κ : Type} (less : κ → κ → Bool) (left right : κ) : Ordering :=
  if less left right then .lt else if less right left then .gt else .eq

/-- Where `str` prints a value as `text` does. -/
def fallbackSortKey (text : OrderValue → String) (v : OrderValue) : List String :=
  [typeName v, text v]

def textsLt (left right : List String) : Bool := decide (left < right)

/-- `compare_order_values`; `left > right` is `right < left`. -/
def compareOrderValues (text : OrderValue → String) (left right : OrderValue) : Ordering :=
  match valueLt left right, valueLt right left with
  | some true, _ => .lt
  | some false, some true => .gt
  | some false, some false => .eq
  | _, _ => compareSortKeys textsLt (fallbackSortKey text left) (fallbackSortKey text right)

/-- What `a < b` and `b < a` can be at once. -/
def Opposite (here there : Option Bool) : Prop :=
  (here = none ↔ there = none) ∧ ¬(here = some true ∧ there = some true)

theorem floatLt_asymm (p q : PyFloat) : ¬(floatLt p q = true ∧ floatLt q p = true) := by
  cases p with
  | finite p =>
    cases q with
    | finite q =>
      simp only [floatLt, decide_eq_true_eq, not_and, not_lt]
      exact fun h => h.le
    | _ => simp [floatLt]
  | _ => cases q <;> simp [floatLt]

theorem decide_opposite {P Q : Prop} [Decidable P] [Decidable Q] (h : ¬(P ∧ Q)) :
    Opposite (some (decide P)) (some (decide Q)) := by
  constructor
  · simp
  · simpa using h

theorem numbers_opposite (p q : PyFloat) : Opposite (some (floatLt p q)) (some (floatLt q p)) := by
  constructor
  · simp
  · simpa using floatLt_asymm p q

variable {p : PyFloat} {a : OrderValue}

theorem jsonLt_number {a : Value} (ha : number? a = some p) (b : Value) :
    jsonLt a b = (number? b).map (floatLt p) ∧
      jsonLt b a = (number? b).map fun q => floatLt q p := by
  have hmatch : ∀ o : Option PyFloat, (match some p, o with
      | some p, some q => some (floatLt p q)
      | _, _ => none) = o.map (floatLt p) := by
    intro o
    cases o with
    | none => rfl
    | some q => rfl
  have hmatch' : ∀ o : Option PyFloat, (match o, some p with
      | some q, some p => some (floatLt q p)
      | _, _ => none) = o.map fun q => floatLt q p := by
    intro o
    cases o with
    | none => rfl
    | some q => rfl
  have hstr : ∀ s, a ≠ .str s := by
    intro s hs
    rw [hs] at ha
    cases ha
  have harray : ∀ xs, a ≠ .array xs := by
    intro xs hs
    rw [hs] at ha
    cases ha
  constructor
  · rw [jsonLt, ha, hmatch]
    · exact fun s _ hs _ => hstr s hs
    · exact fun xs _ hs _ => harray xs hs
  · rw [jsonLt, ha, hmatch']
    · exact fun _ s _ hs => hstr s hs
    · exact fun _ xs _ hs => harray xs hs

theorem number_opposite {a : Value} (ha : number? a = some p) (b : Value) :
    Opposite (jsonLt a b) (jsonLt b a) := by
  rw [(jsonLt_number ha b).1, (jsonLt_number ha b).2]
  cases number? b with
  | none => simp [Opposite]
  | some q => exact numbers_opposite p q

mutual

theorem jsonLt_opposite : ∀ a b : Value, a.keyed = true → b.keyed = true →
    Opposite (jsonLt a b) (jsonLt b a)
  | .str a, b, _, _ => by
      cases b with
      | str b => exact decide_opposite fun h => lt_asymm h.1 h.2
      | _ => simp [jsonLt, number?, Opposite]
  | .array xs, b, ha, hb => by
      cases b with
      | array ys =>
        rw [Value.keyed] at ha hb
        exact itemsLt_opposite xs ys ha hb
      | _ => simp [jsonLt, number?, Opposite]
  | .null, b, _, _ => by cases b <;> simp [jsonLt, number?, Opposite]
  | .object _, b, _, _ => by cases b <;> simp [jsonLt, number?, Opposite]
  | .bool _, b, _, _ => number_opposite rfl b
  | .int _, b, _, _ => number_opposite rfl b
  | .float f, b, _, _ => by
      cases f with
      | finite q | negZero | posInf | negInf | nan => exact number_opposite rfl b

theorem itemsLt_opposite : ∀ xs ys : List Value, Value.keyedItems xs = true →
    Value.keyedItems ys = true → Opposite (itemsLt xs ys) (itemsLt ys xs)
  | [], [], _, _ => by simp [itemsLt, Opposite]
  | [], _ :: _, _, _ => by simp [itemsLt, Opposite]
  | _ :: _, [], _, _ => by simp [itemsLt, Opposite]
  | x :: xs, y :: ys, hx, hy => by
      rw [Value.keyedItems, Bool.and_eq_true] at hx hy
      have hsymm : Value.pyEq x y = Value.pyEq y x := by
        rw [Bool.eq_iff_iff]
        exact ⟨Value.pyEq_symm_of_keyed x y hx.1 hy.1, Value.pyEq_symm_of_keyed y x hy.1 hx.1⟩
      rw [itemsLt, itemsLt, ← hsymm]
      split_ifs
      · exact itemsLt_opposite xs ys hx.2 hy.2
      · exact jsonLt_opposite x y hx.1 hy.1

end

theorem valueLt_opposite (a b : OrderValue) : Opposite (valueLt a b) (valueLt b a) := by
  cases a with
  | json v hv =>
    cases b with
    | json w hw => exact jsonLt_opposite v w hv hw
    | _ => simp [valueLt, Opposite]
  | date d =>
    cases b with
    | date d' => exact decide_opposite fun h => lt_asymm h.1 h.2
    | _ => simp [valueLt, Opposite]
  | datetime w o =>
    cases b with
    | datetime w' o' =>
      cases o with
      | none =>
        cases o' with
        | none => exact decide_opposite fun h => lt_asymm h.1 h.2
        | some o' => simp [valueLt, Opposite]
      | some o =>
        cases o' with
        | none => simp [valueLt, Opposite]
        | some o' => exact decide_opposite fun h => lt_asymm h.1 h.2
    | _ => simp [valueLt, Opposite]
  | model d => cases b <;> simp [valueLt, Opposite]

theorem compareSortKeys_swap {κ : Type} {less : κ → κ → Bool}
    (hasymm : ∀ a b, ¬(less a b = true ∧ less b a = true)) (a b : κ) :
    compareSortKeys less b a = (compareSortKeys less a b).swap := by
  unfold compareSortKeys
  have h := hasymm a b
  cases hab : less a b with
  | false =>
    cases hba : less b a with
    | false => rfl
    | true => rfl
  | true =>
    cases hba : less b a with
    | false => rfl
    | true => exact absurd ⟨hab, hba⟩ h

theorem textsLt_asymm (a b : List String) : ¬(textsLt a b = true ∧ textsLt b a = true) := by
  simp only [textsLt, decide_eq_true_eq]
  exact fun h => lt_asymm h.1 h.2

theorem compareOrderValues_swap (text : OrderValue → String) (a b : OrderValue) :
    compareOrderValues text b a = (compareOrderValues text a b).swap := by
  have ⟨hnone, hboth⟩ := valueLt_opposite a b
  unfold compareOrderValues
  cases hab : valueLt a b with
  | none =>
    rw [hnone.mp hab]
    exact compareSortKeys_swap textsLt_asymm _ _
  | some x =>
    cases hba : valueLt b a with
    | none =>
      rw [hnone.mpr hba] at hab
      cases hab
    | some y =>
      cases x with
      | false =>
        cases y with
        | false => rfl
        | true => rfl
      | true =>
        cases y with
        | false => rfl
        | true => exact absurd ⟨hab, hba⟩ hboth

/-- Kinds of values that are in order among themselves. -/
inductive Kind where
  | number
  | text
  | day
  | localTime
  | instant
  | mapping
  deriving DecidableEq

/-- Lists and `nan` are of no such kind. -/
def jsonKind? : Value → Option Kind
  | .bool _ => some .number
  | .int _ => some .number
  | .float .nan => none
  | .float _ => some .number
  | .str _ => some .text
  | .object _ => some .mapping
  | .null => none
  | .array _ => none

def kind? : OrderValue → Option Kind
  | .json v _ => jsonKind? v
  | .date _ => some .day
  | .datetime _ none => some .localTime
  | .datetime _ (some _) => some .instant
  | .model _ => some .mapping

/-- The comparison is that of the ranks in a linear order. -/
def Ranked (text : OrderValue → String) (P : OrderValue → Prop) : Prop :=
  ∃ (L : Type) (_ : LinearOrder L) (rank : OrderValue → L), ∀ a b, P a → P b →
    compareOrderValues text a b = compareSortKeys (fun x y => decide (x < y)) (rank a) (rank b)

variable {text : OrderValue → String} {b : OrderValue}

theorem compareOrderValues_of_lt {L : Type} [LinearOrder L] {x y : L}
    (hab : valueLt a b = some (decide (x < y))) (hba : valueLt b a = some (decide (y < x))) :
    compareOrderValues text a b = compareSortKeys (fun x y => decide (x < y)) x y := by
  unfold compareOrderValues compareSortKeys
  rw [hab, hba]
  rcases lt_trichotomy x y with h | h | h
  · simp [h]
  · simp [h]
  · simp [h, h.not_gt]

def extended : PyFloat → WithBot (WithTop ℚ)
  | .finite q => ((q : WithTop ℚ) : WithBot (WithTop ℚ))
  | .posInf => ((⊤ : WithTop ℚ) : WithBot (WithTop ℚ))
  | _ => ⊥

theorem floatLt_eq {q : PyFloat} (hp : p ≠ .nan ∧ p ≠ .negZero) (hq : q ≠ .nan ∧ q ≠ .negZero) :
    floatLt p q = decide (extended p < extended q) := by
  cases p with
  | nan => exact absurd rfl hp.1
  | negZero => exact absurd rfl hp.2
  | finite p =>
    cases q with
    | posInf =>
      have h : extended (.finite p) < extended .posInf :=
        WithBot.coe_lt_coe.mpr (WithTop.coe_lt_top p)
      rw [decide_eq_true h]
      rfl
    | _ => simp_all [floatLt, extended]
  | posInf | negInf => cases q <;> simp_all [floatLt, extended]

theorem jsonKind_ne {v : Value} {k : Kind} (hnumber : k ≠ .number) (htext : k ≠ .text)
    (hmapping : k ≠ .mapping) : jsonKind? v ≠ some k := by
  intro h
  cases v with
  | float f =>
    cases f with
    | nan => cases h
    | _ => exact hnumber (Option.some.inj h).symm
  | bool b | int n => exact hnumber (Option.some.inj h).symm
  | str s => exact htext (Option.some.inj h).symm
  | object es => exact hmapping (Option.some.inj h).symm
  | null => cases h
  | array xs => cases h

theorem mapping_of_kind (h : kind? a = some .mapping) :
    (∃ es hes, a = .json (.object es) hes) ∨ ∃ d, a = .model d := by
  cases a with
  | json v hv =>
    cases v with
    | object es => exact .inl ⟨es, hv, rfl⟩
    | float f => cases f <;> cases h
    | _ => cases h
  | date d => cases h
  | datetime w o => cases o <;> cases h
  | model d => exact .inr ⟨d, rfl⟩

theorem number_of_kind (h : kind? a = some .number) :
    ∃ v hv p, a = .json v hv ∧ number? v = some p ∧ p ≠ .nan ∧ p ≠ .negZero := by
  cases a with
  | json v hv =>
    cases v with
    | bool b | int n => exact ⟨_, hv, _, rfl, rfl, nofun, nofun⟩
    | float f =>
      cases f with
      | nan => cases h
      | finite q | negZero | posInf | negInf => exact ⟨_, hv, _, rfl, rfl, nofun, nofun⟩
    | null => cases h
    | str s => cases h
    | array xs => cases h
    | object es => cases h
  | date d => cases h
  | datetime w o => cases o <;> cases h
  | model d => cases h

def numberRank : OrderValue → WithBot (WithTop ℚ)
  | .json v _ => extended ((number? v).getD .negInf)
  | _ => ⊥

theorem numbers_ranked (text : OrderValue → String) :
    Ranked text fun v => kind? v = some .number := by
  refine ⟨WithBot (WithTop ℚ), inferInstance, numberRank, ?_⟩
  intro a b ha hb
  have ⟨v, hv, p, hav, hp, hpn⟩ := number_of_kind ha
  have ⟨w, hw, q, hbw, hq, hqn⟩ := number_of_kind hb
  rw [hav, hbw]
  dsimp only [numberRank]
  rw [hp, hq, Option.getD_some, Option.getD_some]
  apply compareOrderValues_of_lt
  · change jsonLt v w = _
    rw [(jsonLt_number hp w).1, hq, Option.map_some, floatLt_eq hpn hqn]
  · change jsonLt w v = _
    rw [(jsonLt_number hp w).2, hq, Option.map_some, floatLt_eq hqn hpn]

def textRank : OrderValue → String
  | .json (.str s) _ => s
  | _ => ""

theorem texts_ranked (text : OrderValue → String) : Ranked text fun v => kind? v = some .text := by
  have hstr : ∀ a, kind? a = some .text → ∃ s h, a = .json (.str s) h := by
    intro a h
    cases a with
    | json v hv =>
      cases v with
      | str s => exact ⟨s, hv, rfl⟩
      | float f => cases f <;> cases h
      | _ => cases h
    | date d => cases h
    | datetime w o => cases o <;> cases h
    | model d => cases h
  refine ⟨String, inferInstance, textRank, ?_⟩
  intro a b ha hb
  obtain ⟨s, hs, has⟩ := hstr a ha
  obtain ⟨t, ht, hbt⟩ := hstr b hb
  rw [has, hbt]
  exact compareOrderValues_of_lt rfl rfl

/-- The instant or day that a value denotes beside others of its kind. -/
def moment? : OrderValue → Option (Kind × Int)
  | .date d => some (.day, d)
  | .datetime w none => some (.localTime, w)
  | .datetime w (some o) => some (.instant, w - o)
  | _ => none

theorem moment?_cases {k : Kind} {m : Int} (h : moment? a = some (k, m)) :
    a = .date m ∧ k = .day ∨ a = .datetime m none ∧ k = .localTime ∨
      ∃ w o, a = .datetime w (some o) ∧ k = .instant ∧ m = w - o := by
  cases a with
  | json v hv => cases h
  | model d => cases h
  | date d =>
    cases h
    exact .inl ⟨rfl, rfl⟩
  | datetime w o =>
    cases o with
    | none =>
      cases h
      exact .inr (.inl ⟨rfl, rfl⟩)
    | some o =>
      cases h
      exact .inr (.inr ⟨w, o, rfl, rfl, rfl⟩)

theorem valueLt_moment {k l : Kind} {m n : Int} (ha : moment? a = some (k, m))
    (hb : moment? b = some (l, n)) :
    valueLt a b = if k = l then some (decide (m < n)) else none := by
  rcases moment?_cases ha with ⟨rfl, rfl⟩ | ⟨rfl, rfl⟩ | ⟨w, o, rfl, rfl, rfl⟩ <;>
    rcases moment?_cases hb with ⟨rfl, rfl⟩ | ⟨rfl, rfl⟩ | ⟨w', o', rfl, rfl, rfl⟩ <;> rfl

theorem moment_of_kind {k : Kind} (hnumber : k ≠ .number) (htext : k ≠ .text)
    (hmapping : k ≠ .mapping) (h : kind? a = some k) : ∃ m, moment? a = some (k, m) := by
  cases a with
  | json v hv => exact absurd h (jsonKind_ne hnumber htext hmapping)
  | date d =>
    cases h
    exact ⟨d, rfl⟩
  | datetime w o =>
    cases o with
    | none =>
      cases h
      exact ⟨w, rfl⟩
    | some o =>
      cases h
      exact ⟨w - o, rfl⟩
  | model d => exact absurd (Option.some.inj h).symm hmapping

theorem moments_ranked (text : OrderValue → String) {k : Kind} (hnumber : k ≠ .number)
    (htext : k ≠ .text) (hmapping : k ≠ .mapping) : Ranked text fun v => kind? v = some k := by
  refine ⟨Int, inferInstance, fun v => ((moment? v).map Prod.snd).getD 0, ?_⟩
  intro a b ha hb
  obtain ⟨m, hm⟩ := moment_of_kind hnumber htext hmapping ha
  obtain ⟨n, hn⟩ := moment_of_kind hnumber htext hmapping hb
  have hab := valueLt_moment hm hn
  have hba := valueLt_moment hn hm
  rw [if_pos rfl] at hab hba
  dsimp only
  rw [hm, hn]
  exact compareOrderValues_of_lt hab hba

theorem mappings_ranked (text : OrderValue → String) :
    Ranked text fun v => kind? v = some .mapping := by
  have hrefused : ∀ a b, kind? a = some .mapping → kind? b = some .mapping →
      valueLt a b = none := by
    intro a b ha hb
    rcases mapping_of_kind ha with ⟨es, h, rfl⟩ | ⟨d, rfl⟩
    · rcases mapping_of_kind hb with ⟨es', h', rfl⟩ | ⟨d', rfl⟩
      · rfl
      · rfl
    · rcases mapping_of_kind hb with ⟨es', h', rfl⟩ | ⟨d', rfl⟩
      · rfl
      · rfl
  refine ⟨List String, inferInstance, fallbackSortKey text, ?_⟩
  intro a b ha hb
  unfold compareOrderValues
  rw [hrefused a b ha hb, hrefused b a hb ha]
  apply congrArg fun less => compareSortKeys less (fallbackSortKey text a) (fallbackSortKey text b)
  funext x y
  exact decide_eq_decide.mpr Iff.rfl

theorem kind_ranked (text : OrderValue → String) (k : Kind) :
    Ranked text fun v => kind? v = some k := by
  cases k with
  | number => exact numbers_ranked text
  | text => exact texts_ranked text
  | day | localTime | instant => exact moments_ranked text nofun nofun nofun
  | mapping => exact mappings_ranked text

theorem notAfter_trans {k : Kind} {c : OrderValue} (ha : kind? a = some k) (hb : kind? b = some k)
    (hc : kind? c = some k) (hab : compareOrderValues text a b ≠ .gt)
    (hbc : compareOrderValues text b c ≠ .gt) : compareOrderValues text a c ≠ .gt := by
  have ⟨L, order, rank, hrank⟩ := kind_ranked text k
  have hle : ∀ x y : L, compareSortKeys (fun x y => decide (x < y)) x y ≠ .gt ↔ x ≤ y := by
    intro x y
    unfold compareSortKeys
    rcases lt_trichotomy x y with h | h | h
    · simp [h, h.le]
    · simp [h]
    · simp [h, h.not_gt]
  rw [hrank a b ha hb, hle] at hab
  rw [hrank b c hb hc, hle] at hbc
  rw [hrank a c ha hc, hle]
  exact hab.trans hbc

end Cruxible.OrderValues
