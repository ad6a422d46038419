import Cruxible.PythonDict

/-!
# Tables with a primary key

A table maps each key to a row that carries this key, so that a row found by any
search is the row that its key names. Rows keep the order of their insertion.
-/
namespace Cruxible.KeyedTable
open PythonDict

variable {κ α : Type} [DecidableEq κ]

structure Table (key : α → κ) where
  dict : Dict κ α
  keyed : ∀ k r, dict.get? k = some r → key r = k

namespace Table
variable {key : α → κ}

def empty : Table key := ⟨∅, by intro k r h; cases h⟩

instance : EmptyCollection (Table key) := ⟨empty⟩

instance : Inhabited (Table key) := ⟨empty⟩

def get? (t : Table key) (k : κ) : Option α := t.dict.get? k

/-- Insert a row, or replace the row with its key. -/
def put (t : Table key) (r : α) : Table key where
  dict := t.dict.set (key r) r
  keyed := by
    intro k q h
    rw [Dict.get?_set] at h
    split_ifs at h with hk
    · exact Option.some.inj h ▸ hk
    · exact t.keyed k q h

def rows (t : Table key) : List α := t.dict.entries.map Prod.snd

@[simp] theorem get?_empty (k : κ) : (∅ : Table key).get? k = none := rfl

theorem get?_put (t : Table key) (r : α) (k : κ) :
    (t.put r).get? k = if key r = k then some r else t.get? k :=
  Dict.get?_set t.dict (key r) r k

@[simp] theorem get?_put_self (t : Table key) (r : α) : (t.put r).get? (key r) = some r := by
  rw [get?_put, if_pos rfl]

variable {k : κ} {r : α} {t : Table key}

theorem get?_put_of_ne (t : Table key) (h : key r ≠ k) : (t.put r).get? k = t.get? k := by
  rw [get?_put, if_neg h]

theorem key_of_get? (h : t.get? k = some r) : key r = k :=
  t.keyed k r h

theorem get?_of_mem_rows (h : r ∈ t.rows) : t.get? (key r) = some r := by
  obtain ⟨⟨k, q⟩, hmem, rfl⟩ := List.mem_map.mp h
  have hget : t.get? k = some q := Dict.get?_of_mem hmem
  rw [key_of_get? hget]
  exact hget

theorem mem_rows_of_get? (h : t.get? k = some r) : r ∈ t.rows :=
  List.mem_map.mpr ⟨(k, r), Dict.mem_of_get? h, rfl⟩

theorem mem_rows : r ∈ t.rows ↔ t.get? (key r) = some r :=
  ⟨get?_of_mem_rows, mem_rows_of_get?⟩

theorem eq_of_key {p q : α} (hp : p ∈ t.rows) (hq : q ∈ t.rows) (h : key p = key q) : p = q := by
  have hget := get?_of_mem_rows hp
  rw [h, get?_of_mem_rows hq] at hget
  exact (Option.some.inj hget).symm

theorem nodup_keys (t : Table key) : (t.rows.map key).Nodup := by
  have hkeys : t.rows.map key = t.dict.keys := by
    unfold rows Dict.keys
    rw [List.map_map]
    apply List.map_congr_left
    intro b hb
    exact t.keyed b.1 b.2 (Dict.get?_of_mem hb)
  rw [hkeys]
  exact t.dict.nodup

/-- A row with a new key comes last. -/
theorem rows_put_of_none (h : t.get? (key r) = none) : (t.put r).rows = t.rows ++ [r] := by
  have hkey : key r ∉ t.dict.entries.map Prod.fst := by
    intro hmem
    have ⟨b, hb, heq⟩ := List.mem_map.mp hmem
    have hget : t.get? b.1 = some b.2 := Dict.get?_of_mem hb
    rw [heq, h] at hget
    cases hget
  have hset : (t.put r).dict.entries = t.dict.entries ++ [(key r, r)] :=
    Bindings.set_of_not_mem r hkey
  unfold rows
  rw [hset, List.map_append]
  rfl

/-- A row of the table after an upsert is the new row or an old one. -/
theorem mem_rows_put {q : α} (h : q ∈ (t.put r).rows) : q = r ∨ q ∈ t.rows := by
  have hget := get?_of_mem_rows h
  rw [get?_put] at hget
  split_ifs at hget with hk
  · exact .inl (Option.some.inj hget).symm
  · exact .inr (mem_rows_of_get? hget)

/-- What holds of the new row and of every old one holds of every row. -/
theorem forall_mem_put {P : α → Prop} (hr : P r) (ht : ∀ q ∈ t.rows, P q) :
    ∀ q ∈ (t.put r).rows, P q := by
  intro q hq
  rcases mem_rows_put hq with hq | hq
  · exact hq ▸ hr
  · exact ht q hq

/-- The same for pairs of rows. -/
theorem forall_pairs_put {R : α → α → Prop} (hself : R r r) (hnew : ∀ q ∈ t.rows, R r q ∧ R q r)
    (ht : ∀ p ∈ t.rows, ∀ q ∈ t.rows, R p q) :
    ∀ p ∈ (t.put r).rows, ∀ q ∈ (t.put r).rows, R p q := by
  apply forall_mem_put
  · exact forall_mem_put hself fun q hq => (hnew q hq).1
  · intro p hp
    exact forall_mem_put (hnew p hp).2 (ht p hp)

end Table

/-- `ORDER BY time DESC LIMIT 1`: the first of the rows with the greatest time. -/
def latestBy (time : α → Nat) (rows : List α) : Option α :=
  rows.foldl (fun best r => match best with
    | none => some r
    | some b => if time b < time r then some r else some b) none

omit [DecidableEq κ] in
theorem mem_of_latestBy {time : α → Nat} {rows : List α} {r : α}
    (h : latestBy time rows = some r) : r ∈ rows := by
  unfold latestBy at h
  suffices hgen : ∀ (rest : List α) (best : Option α), (∀ b, best = some b → b ∈ rows) →
      (∀ q ∈ rest, q ∈ rows) → ∀ r, rest.foldl (fun best r => match best with
        | none => some r
        | some b => if time b < time r then some r else some b) best = some r → r ∈ rows from
    hgen rows none (by intro b hb; cases hb) (fun q hq => hq) r h
  intro rest
  induction rest with
  | nil =>
    intro best hbest _ r hr
    exact hbest r hr
  | cons q rest ih =>
    intro best hbest hrest r hr
    refine ih _ ?_ (fun p hp => hrest p (List.mem_cons_of_mem _ hp)) r hr
    intro b hb
    cases best with
    | none => exact Option.some.inj hb ▸ hrest q List.mem_cons_self
    | some b' =>
      simp only at hb
      split_ifs at hb
      · exact Option.some.inj hb ▸ hrest q List.mem_cons_self
      · exact Option.some.inj hb ▸ hbest b' rfl

end Cruxible.KeyedTable
