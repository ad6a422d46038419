import Cruxible.JsonValue
import Cruxible.PythonDict
import Mathlib.Data.List.Sort
import Mathlib.Data.String.Basic

/-!
# Canonical JSON

The canonical serializer writes the entries of every object in the order of
their keys, so two values have one canonical text exactly when they have one
canonical form: the value with the entries of every object sorted.
-/
namespace Cruxible.JsonValue.Value

open PythonDict

def sortEntries (entries : List (String × Value)) : List (String × Value) :=
  entries.insertionSort fun a b => a.1 ≤ b.1

mutual

/-- What `canonical_json` keeps of a value. -/
def canonical : Value → Value
  | .array items => .array (canonicalItems items)
  | .object entries => .object (sortEntries (canonicalEntries entries))
  | v => v

def canonicalItems : List Value → List Value
  | [] => []
  | v :: vs => canonical v :: canonicalItems vs

def canonicalEntries : List (String × Value) → List (String × Value)
  | [] => []
  | (k, v) :: es => (k, canonical v) :: canonicalEntries es

end

theorem canonicalEntries_get? (entries : List (String × Value)) (k : String) :
    Bindings.get? (canonicalEntries entries) k = (Bindings.get? entries k).map canonical := by
  induction entries with
  | nil => rfl
  | cons e es ih =>
    obtain ⟨q, v⟩ := e
    simp only [canonicalEntries, Bindings.get?]
    split_ifs
    · rfl
    · exact ih

theorem canonicalEntries_keys (entries : List (String × Value)) :
    (canonicalEntries entries).map Prod.fst = entries.map Prod.fst := by
  induction entries with
  | nil => rfl
  | cons e es ih =>
    obtain ⟨q, v⟩ := e
    simp only [canonicalEntries, List.map_cons, ih]

variable {entries : List (String × Value)}

theorem sortEntries_get? (hn : (entries.map Prod.fst).Nodup) (k : String) :
    Bindings.get? (sortEntries entries) k = Bindings.get? entries k := by
  have hperm : (sortEntries entries).Perm entries := List.perm_insertionSort _ _
  have hsorted : ((sortEntries entries).map Prod.fst).Nodup := (hperm.map Prod.fst).nodup_iff.mpr hn
  cases h : Bindings.get? entries k with
  | some v =>
    exact Bindings.get?_of_mem hsorted (hperm.mem_iff.mpr (Bindings.mem_of_get? h))
  | none =>
    rw [Bindings.get?_eq_none] at h ⊢
    intro hmem
    exact h ((hperm.map Prod.fst).mem_iff.mp hmem)

variable {entries' : List (String × Value)}

theorem sortEntries_congr (hn : (entries.map Prod.fst).Nodup) (hn' : (entries'.map Prod.fst).Nodup)
    (h : ∀ k, Bindings.get? entries k = Bindings.get? entries' k) :
    sortEntries entries = sortEntries entries' := by
  have hmem : ∀ e : String × Value, e ∈ entries ↔ e ∈ entries' := by
    intro e
    constructor
    case mp => exact fun he => Bindings.mem_of_get? ((h e.1) ▸ Bindings.get?_of_mem hn he)
    case mpr => exact fun he => Bindings.mem_of_get? ((h e.1) ▸ Bindings.get?_of_mem hn' he)
  have hperm : entries.Perm entries' :=
    (List.perm_ext_iff_of_nodup (List.Nodup.of_map _ hn) (List.Nodup.of_map _ hn')).mpr hmem
  have hsorted := (List.perm_insertionSort (fun a b : String × Value => a.1 ≤ b.1) entries)
  have hsorted' := (List.perm_insertionSort (fun a b : String × Value => a.1 ≤ b.1) entries')
  refine List.Perm.eq_of_pairwise ?_ (List.pairwise_insertionSort _ entries)
    (List.pairwise_insertionSort _ entries') (hsorted.trans (hperm.trans hsorted'.symm))
  intro a b ha hb hab hba
  have hkey : a.1 = b.1 := le_antisymm hab hba
  have hget := Bindings.get?_of_mem hn (hsorted.mem_iff.mp ha)
  have hget' := Bindings.get?_of_mem hn' (hsorted'.mem_iff.mp hb)
  rw [hkey, h, hget'] at hget
  exact Prod.ext hkey (Option.some.inj hget).symm

theorem canonical_object_get? (hn : (entries.map Prod.fst).Nodup)
    (hn' : (entries'.map Prod.fst).Nodup)
    (h : canonical (.object entries) = canonical (.object entries')) (k : String) :
    (Bindings.get? entries k).map canonical = (Bindings.get? entries' k).map canonical := by
  simp only [canonical, Value.object.injEq] at h
  have hk := congrArg (Bindings.get? · k) h
  rw [sortEntries_get? (by rw [canonicalEntries_keys]; exact hn),
    sortEntries_get? (by rw [canonicalEntries_keys]; exact hn'), canonicalEntries_get?,
    canonicalEntries_get?] at hk
  exact hk

/-- `value.get(key)` of a mapping, as JSON: a missing key reads as null. -/
def field : Value → String → Value
  | .object [], _ => .null
  | .object ((k, v) :: es), q => if k = q then v else field (.object es) q
  | _, _ => .null

end Cruxible.JsonValue.Value
