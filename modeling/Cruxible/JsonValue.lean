import Mathlib.Data.Rat.Init
import Mathlib.Tactic.Common

/-!
# JSON values as the service holds them

Property values, metadata and receipt details are JSON trees. Two notions of
sameness matter and they differ: the stored text distinguishes `1`, `1.0` and
`true`, while the comparison `==` used by the property differ does not. Both
are defined here. The canonical serializer sorts object keys and refuses the
three non-finite floats; `finite` is the set of values it accepts.
-/
namespace Cruxible.JsonValue

/-- A double: an exact rational, the negative zero, or a non-finite value. -/
inductive PyFloat where
  | finite (q : Rat)
  | negZero
  | posInf
  | negInf
  | nan
  deriving DecidableEq, Repr

inductive Value where
  | null
  | bool (b : Bool)
  | int (n : Int)
  | float (f : PyFloat)
  | str (s : String)
  | array (items : List Value)
  | object (entries : List (String × Value))
  deriving Repr, Inhabited

namespace Value

mutual
/-- Structural comparison, the one that the stored text makes. -/
def same : Value → Value → Bool
  | .null, .null => true
  | .bool a, .bool b => a == b
  | .int a, .int b => a == b
  | .float a, .float b => a == b
  | .str a, .str b => a == b
  | .array xs, .array ys => sameItems xs ys
  | .object xs, .object ys => sameEntries xs ys
  | _, _ => false
def sameItems : List Value → List Value → Bool
  | [], [] => true
  | x :: xs, y :: ys => same x y && sameItems xs ys
  | _, _ => false
def sameEntries : List (String × Value) → List (String × Value) → Bool
  | [], [] => true
  | (k, x) :: xs, (l, y) :: ys => k == l && same x y && sameEntries xs ys
  | _, _ => false

end

mutual
theorem same_iff : ∀ a b : Value, same a b = true ↔ a = b
  | .null, b => by cases b <;> simp [same]
  | .bool _, b => by cases b <;> simp [same]
  | .int _, b => by cases b <;> simp [same]
  | .float _, b => by cases b <;> simp [same]
  | .str _, b => by cases b <;> simp [same]
  | .array xs, b => by cases b <;> simp [same, sameItems_iff xs]
  | .object xs, b => by cases b <;> simp [same, sameEntries_iff xs]
theorem sameItems_iff : ∀ xs ys : List Value, sameItems xs ys = true ↔ xs = ys
  | [], ys => by cases ys <;> simp [sameItems]
  | x :: xs, ys => by cases ys <;> simp [sameItems, same_iff x, sameItems_iff xs]
theorem sameEntries_iff : ∀ xs ys : List (String × Value), sameEntries xs ys = true ↔ xs = ys
  | [], ys => by cases ys <;> simp [sameEntries]
  | (k, x) :: xs, ys => by
      cases ys <;> simp [sameEntries, same_iff x, sameEntries_iff xs, Prod.ext_iff]

end

instance : DecidableEq Value := fun a b => decidable_of_iff (same a b = true) (same_iff a b)

/-- The rational that a numeric value denotes; booleans count as integers. -/
def rational? : Value → Option Rat
  | .bool b => some (if b then 1 else 0)
  | .int n => some n
  | .float (.finite q) => some q
  | .float .negZero => some 0
  | _ => none

mutual
/-- Python `==`: numbers compare across `bool`, `int` and `float`, objects
ignore the order of their keys, and `nan` equals nothing. -/
def pyEq : Value → Value → Bool
  | .null, .null => true
  | .str a, .str b => a == b
  | .array xs, .array ys => pyEqItems xs ys
  | .object xs, .object ys => xs.length == ys.length && pyEqEntries xs ys
  | .float .posInf, .float .posInf => true
  | .float .negInf, .float .negInf => true
  | a, b =>
      match rational? a, rational? b with
      | some p, some q => p == q
      | _, _ => false
def pyEqItems : List Value → List Value → Bool
  | [], [] => true
  | x :: xs, y :: ys => pyEq x y && pyEqItems xs ys
  | _, _ => false
def pyEqEntries : List (String × Value) → List (String × Value) → Bool
  | [], _ => true
  | (k, x) :: xs, ys =>
      (match ys.lookup k with
        | some y => pyEq x y
        | none => false) && pyEqEntries xs ys

end

theorem pyEq_array {xs : List Value} {b : Value} :
    pyEq (.array xs) b = true ↔ ∃ ys, b = .array ys ∧ pyEqItems xs ys = true := by
  cases b <;> simp [pyEq, rational?]

mutual
/-- Acceptance by `canonical_json`, which runs with `allow_nan=False`. -/
def finite : Value → Bool
  | .float (.finite _) | .float .negZero => true
  | .float _ => false
  | .array xs => finiteItems xs
  | .object xs => finiteEntries xs
  | _ => true
def finiteItems : List Value → Bool
  | [] => true
  | x :: xs => finite x && finiteItems xs
def finiteEntries : List (String × Value) → Bool
  | [] => true
  | (_, x) :: xs => finite x && finiteEntries xs

end

theorem finiteEntries_iff {es : List (String × Value)} :
    finiteEntries es = true ↔ ∀ k v, (k, v) ∈ es → finite v = true := by
  induction es with
  | nil => simp [finiteEntries]
  | cons e es ih =>
    obtain ⟨q, w⟩ := e
    rw [finiteEntries, Bool.and_eq_true, ih]
    constructor
    · intro h k v hmem
      rcases List.mem_cons.mp hmem with heq | hmem
      · rw [(Prod.mk.inj heq).2]
        exact h.1
      · exact h.2 k v hmem
    · intro h
      exact ⟨h q w List.mem_cons_self, fun k v hmem => h k v (List.mem_cons_of_mem _ hmem)⟩

end Value
end Cruxible.JsonValue
