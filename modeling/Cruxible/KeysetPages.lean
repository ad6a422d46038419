import Mathlib.Data.List.Sort
import Mathlib.Data.Prod.Lex

/-!
# Pages after a key

A listing in descending order of a key is read in pages. A read is given the key
that the page before ended with, and takes the first rows below it. Rows may be added
between two reads, with any keys. What a scan returns is then in order without
repetition, and contains every row that was there when it began.
-/
namespace Cruxible.KeysetPages

variable {α κ : Type} [LinearOrder κ] {key : α → κ} {size : Nat}

section Definitions
variable (key : α → κ) (size : Nat)

/-- Every row has a smaller key than the rows before it. -/
def Descending (rows : List α) : Prop := rows.Pairwise fun a b => key b < key a

def descending (rows : List α) : List α := rows.mergeSort fun a b => decide (key b ≤ key a)

/-- The rows below a bound. -/
def below (bound : Option κ) (rows : List α) : List α :=
  rows.filter fun r => bound.all fun b => decide (key r < b)

def page (bound : Option κ) (rows : List α) : List α :=
  (descending key (below key bound rows)).take size

/-- Page after page, each of the rows of its time, until a page leaves nothing below
it. A scan that has not come to this when the reads end has no result. -/
def scan : Option κ → List (List α) → Option (List α)
  | _, [] => none
  | bound, rows :: later =>
      match (page key size bound rows).getLast? with
      | none => some []
      | some last =>
          if below key (some (key last)) rows = [] then some (page key size bound rows)
          else (scan (some (key last)) later).map (page key size bound rows ++ ·)

end Definitions

variable {bound : Option κ} {rows : List α}

theorem mem_below {r : α} :
    r ∈ below key bound rows ↔ r ∈ rows ∧ ∀ b, bound = some b → key r < b := by
  simp [below, Option.all_eq_true]

theorem below_below {b : κ} (h : ∀ c, bound = some c → b ≤ c) :
    below key (some b) (below key bound rows) = below key (some b) rows := by
  unfold below
  rw [List.filter_filter]
  apply List.filter_congr
  intro r _
  cases bound with
  | none => simp
  | some c =>
    have hbc := h c rfl
    by_cases hr : key r < b
    · simp [hr, hr.trans_le hbc]
    · simp [hr]

/-- Rows with distinct keys in order are in strict order. -/
theorem descending_descending (hn : (rows.map key).Nodup) :
    Descending key (descending key rows) := by
  have hperm : (descending key rows).Perm rows := List.mergeSort_perm _ _
  have hsorted : (descending key rows).Pairwise fun a b => key b ≤ key a := by
    have htrans : ∀ a b c : α, decide (key b ≤ key a) = true → decide (key c ≤ key b) = true →
        decide (key c ≤ key a) = true := by
      intro a b c hab hbc
      rw [decide_eq_true_eq] at *
      exact hbc.trans hab
    have htotal : ∀ a b : α, (decide (key b ≤ key a) || decide (key a ≤ key b)) = true := by
      intro a b
      simpa using le_total (key b) (key a)
    simpa [descending] using List.pairwise_mergeSort htrans htotal rows
  have hdistinct : (descending key rows).Pairwise fun a b => key a ≠ key b :=
    List.pairwise_map.mp ((hperm.map key).nodup_iff.mpr hn)
  exact hsorted.imp₂ (fun a b hle hne => lt_of_le_of_ne hle (Ne.symm hne)) hdistinct

section Page
variable {bound : Option κ} {rows : List α}

theorem mem_of_mem_page {r : α} (h : r ∈ page key size bound rows) :
    r ∈ rows ∧ ∀ b, bound = some b → key r < b :=
  mem_below.mp ((List.mergeSort_perm _ _).mem_iff.mp (List.mem_of_mem_take h))

theorem nodup_below (hn : (rows.map key).Nodup) : ((below key bound rows).map key).Nodup :=
  hn.sublist (List.filter_sublist.map key)

theorem descending_page (hn : (rows.map key).Nodup) : Descending key (page key size bound rows) :=
  (descending_descending (nodup_below hn)).sublist (List.take_sublist _ _)

/-- A row that a page leaves out is below all of it. -/
theorem below_page (hn : (rows.map key).Nodup) {r : α} (hr : r ∈ below key bound rows)
    (hout : r ∉ page key size bound rows) {x : α} (hx : x ∈ page key size bound rows) :
    key r < key x := by
  have hmem : r ∈ descending key (below key bound rows) :=
    (List.mergeSort_perm _ _).mem_iff.mpr hr
  rw [← List.take_append_drop size (descending key (below key bound rows))] at hmem
  have hrest := (List.mem_append.mp hmem).resolve_left hout
  have hord : Descending key (descending key (below key bound rows)) :=
    descending_descending (nodup_below hn)
  rw [Descending, ← List.take_append_drop size (descending key (below key bound rows)),
    List.pairwise_append] at hord
  exact hord.2.2 x hx r hrest

theorem page_eq_nil (hsize : 0 < size) :
    page key size bound rows = [] ↔ below key bound rows = [] := by
  unfold page descending
  rw [List.take_eq_nil_iff]
  constructor
  · rintro (h | h)
    · omega
    · exact List.length_eq_zero_iff.mp (by simpa using congrArg List.length h)
  · intro h
    rw [h]
    exact .inr List.mergeSort_nil

theorem last_mem {last : α} (h : (page key size bound rows).getLast? = some last) :
    last ∈ page key size bound rows := List.mem_of_getLast? h

/-- The last row of a page is the least of it. -/
theorem last_le (hn : (rows.map key).Nodup) {last : α}
    (h : (page key size bound rows).getLast? = some last) {x : α}
    (hx : x ∈ page key size bound rows) : key last ≤ key x := by
  obtain ⟨init, hinit⟩ := List.getLast?_eq_some_iff.mp h
  have hord : Descending key (page key size bound rows) := descending_page hn
  rw [Descending, hinit, List.pairwise_append] at hord
  rw [hinit] at hx
  rcases List.mem_append.mp hx with hx | hx
  · exact (hord.2.2 x hx last (List.mem_singleton.mpr rfl)).le
  · rw [List.mem_singleton.mp hx]

end Page

/-- Tables that only grow. -/
def Growing (tables : List (List α)) : Prop := tables.Pairwise fun a b => a ⊆ b

/-- What a scan returned: rows of the tables it read, in order, with all the rows that
the first of them held below the bound. -/
structure Complete (key : α → κ) (bound : Option κ) (tables : List (List α)) (found : List α) :
    Prop where
  descending : Descending key found
  sound : ∀ r ∈ found, (∃ rows ∈ tables, r ∈ rows) ∧ ∀ b, bound = some b → key r < b
  exhaustive : ∀ r ∈ tables.headD [], (∀ b, bound = some b → key r < b) → r ∈ found

variable {tables : List (List α)}

theorem scan_complete {found : List α} (hn : ∀ rows ∈ tables, (rows.map key).Nodup)
    (hgrow : Growing tables) (hsize : 0 < size) (h : scan key size bound tables = some found) :
    Complete key bound tables found := by
  induction tables generalizing bound found with
  | nil => cases h
  | cons rows later ih =>
    have hrows := hn rows List.mem_cons_self
    rw [scan] at h
    cases hlast : (page key size bound rows).getLast? with
    | none =>
      rw [hlast] at h
      obtain rfl : [] = found := Option.some.inj h
      have hnil := (page_eq_nil hsize).mp (List.getLast?_eq_none_iff.mp hlast)
      constructor
      case descending => exact List.Pairwise.nil
      case sound => simp
      case exhaustive =>
        intro r hr hb
        have hmem : r ∈ below key bound rows := mem_below.mpr ⟨hr, hb⟩
        rw [hnil] at hmem
        exact hmem
    | some last =>
      simp only [hlast] at h
      have hpage : ∀ r ∈ page key size bound rows,
          (∃ t ∈ rows :: later, r ∈ t) ∧ ∀ b, bound = some b → key r < b := fun r hr =>
        ⟨⟨rows, List.mem_cons_self, (mem_of_mem_page hr).1⟩, (mem_of_mem_page hr).2⟩
      have hout : ∀ r ∈ rows, (∀ b, bound = some b → key r < b) →
          r ∈ page key size bound rows ∨ key r < key last := by
        intro r hr hb
        by_cases hin : r ∈ page key size bound rows
        · exact .inl hin
        · exact .inr (below_page hrows (mem_below.mpr ⟨hr, hb⟩) hin (last_mem hlast))
      split_ifs at h with hend
      · obtain rfl : page key size bound rows = found := Option.some.inj h
        constructor
        case descending => exact descending_page hrows
        case sound => exact hpage
        case exhaustive =>
          intro r hr hb
          refine (hout r hr hb).resolve_right ?_
          intro hlt
          have hmem : r ∈ below key (some (key last)) rows :=
            mem_below.mpr ⟨hr, fun b hb' => Option.some.inj hb' ▸ hlt⟩
          rw [hend] at hmem
          cases hmem
      · obtain ⟨rest, hrest, rfl⟩ := Option.map_eq_some_iff.mp h
        have hlater := ih (fun t ht => hn t (List.mem_cons_of_mem rows ht))
          (List.pairwise_cons.mp hgrow).2 hrest
        have hrestlt : ∀ r ∈ rest, key r < key last := fun r hr =>
          (hlater.sound r hr).2 _ rfl
        constructor
        case descending =>
          refine List.pairwise_append.mpr ⟨descending_page hrows, hlater.descending, ?_⟩
          intro x hx r hr
          exact (hrestlt r hr).trans_le (last_le hrows hlast hx)
        case sound =>
          intro r hr
          rcases List.mem_append.mp hr with hr | hr
          · exact hpage r hr
          · obtain ⟨t, ht, hrt⟩ := (hlater.sound r hr).1
            refine ⟨⟨t, List.mem_cons_of_mem rows ht, hrt⟩, ?_⟩
            intro b hb
            exact (hrestlt r hr).trans ((mem_of_mem_page (last_mem hlast)).2 b hb)
        case exhaustive =>
          intro r hr hb
          rcases hout r hr hb with hin | hlt
          · exact List.mem_append_left _ hin
          · refine List.mem_append_right _ (hlater.exhaustive r ?_ ?_)
            · cases later with
              | nil => cases hrest
              | cons t ts =>
                exact (List.pairwise_cons.mp hgrow).1 t List.mem_cons_self hr
            · intro b hb'
              exact Option.some.inj hb' ▸ hlt

/-- A scan ends before it has read more often than there are rows to find. -/
theorem scan_ends {final : List α} (hsub : ∀ rows ∈ tables, rows ⊆ final)
    (h : (below key bound final).length < tables.length) : (scan key size bound tables).isSome := by
  induction tables generalizing bound with
  | nil => simp at h
  | cons rows later ih =>
    rw [scan]
    cases hlast : (page key size bound rows).getLast? with
    | none => rfl
    | some last =>
      simp only
      split_ifs
      · rfl
      · rw [Option.isSome_map]
        apply ih fun t ht => hsub t (List.mem_cons_of_mem rows ht)
        obtain ⟨hmem, hb⟩ := mem_of_mem_page (last_mem hlast)
        have hfound : last ∈ below key bound final :=
          mem_below.mpr ⟨hsub rows List.mem_cons_self hmem, hb⟩
        have hgone : below key (some (key last)) final =
            below key (some (key last)) (below key bound final) :=
          (below_below fun c hc => (hb c hc).le).symm
        have hshrink : (below key (some (key last)) (below key bound final)).length <
            (below key bound final).length := by
          apply List.length_filter_lt_length_iff_exists.mpr
          exact ⟨last, hfound, by simp⟩
        rw [List.length_cons] at h
        rw [hgone]
        omega

end Cruxible.KeysetPages
