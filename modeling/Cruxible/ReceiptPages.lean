import Cruxible.KeysetPages
import Cruxible.KeyedTable
import Cruxible.PropertyValidation

/-!
# Listing receipts

Receipts are inserted and never changed. The listing reads them newest first, in pages
that continue after the creation time and the id of the last receipt of the page before.
A receipt is stamped before it is stored, so an insert between two pages may belong
anywhere in the order.
-/
namespace Cruxible.ReceiptPages
open JsonValue PythonDict KeyedTable PropertyValidation Timestamps KeysetPages Fallible

/-- `Receipt`, with the columns that the listing reads; `createdAt` is in UTC. -/
structure Receipt where
  receiptId : String
  queryName : String := ""
  parameters : List (String × Value) := []
  createdAt : Moment
  durationMs : PyFloat := .finite 0
  operationType : String := "query"
  deriving DecidableEq

/-- The column `created_at`, written by `format_datetime`. -/
def Receipt.createdText (r : Receipt) : String := String.ofList (isoformat r.createdAt)

/-- The table `receipts`. -/
abbrev ReceiptStore := Table Receipt.receiptId

/-- `save_receipt`: a plain insert, which an id that is taken refuses. -/
def ReceiptStore.saveReceipt (store : ReceiptStore) (r : Receipt) : Except CoreError ReceiptStore :=
  match store.get? r.receiptId with
  | some _ => .error (.storageIntegrity "UNIQUE constraint failed: receipts.receipt_id")
  | none => .ok (store.put r)

/-- The table after an insert, which is the same where the insert is refused. -/
def ReceiptStore.after (store : ReceiptStore) (r : Receipt) : ReceiptStore :=
  match store.saveReceipt r with
  | .ok s => s
  | .error _ => store

/-- The cursor `(created_at, receipt_id)`, compared as a row value. -/
abbrev Cursor := String ×ₗ String

def Receipt.cursor (r : Receipt) : Cursor := toLex (r.createdText, r.receiptId)

structure Filters where
  queryName : Option String := none
  operationType : Option String := none

/-- `_receipt_filters`, without its bound and without a time window. -/
def Filters.Matches (f : Filters) (r : Receipt) : Bool :=
  f.queryName.all (fun q => r.queryName = q) && f.operationType.all fun o => r.operationType = o

/-- The rows that a statement with these conditions reads. -/
def ReceiptStore.matching (store : ReceiptStore) (f : Filters) : List Receipt :=
  store.rows.filter f.Matches

/-- One item of the listing. -/
structure ReceiptSummary where
  receiptId : String
  queryName : String
  parameters : List (String × Value)
  createdAt : String
  durationMs : PyFloat
  operationType : String
  deriving DecidableEq

def Receipt.summary (r : Receipt) : ReceiptSummary where
  receiptId := r.receiptId
  queryName := r.queryName
  parameters := r.parameters
  createdAt := r.createdText
  durationMs := r.durationMs
  operationType := r.operationType

def ReceiptSummary.cursor (s : ReceiptSummary) : Cursor := toLex (s.createdAt, s.receiptId)

@[simp] theorem cursor_summary (r : Receipt) : r.summary.cursor = r.cursor := rfl

/-- `list_receipts`. -/
def ReceiptStore.listReceipts (store : ReceiptStore) (f : Filters) (limit offset : Nat)
    (before : Option Cursor) : List ReceiptSummary :=
  (((descending Receipt.cursor (below Receipt.cursor before (store.matching f))).drop
    offset).take limit).map Receipt.summary

/-- `count_receipts`. -/
def ReceiptStore.countReceipts (store : ReceiptStore) (f : Filters) (before : Option Cursor) :
    Nat :=
  (below Receipt.cursor before (store.matching f)).length

/-- `list_truncated`. -/
def listTruncated (total offset returned : Nat) : Bool :=
  decide (offset + returned < total) || (decide (0 < total) && returned == 0)

structure ListResult where
  items : List ReceiptSummary
  total : Nat
  limit : Nat
  offset : Nat
  truncated : Bool

/-- `service_list` of the receipts. -/
def serviceList (store : ReceiptStore) (f : Filters) (limit offset : Nat)
    (receiptBefore : Option Cursor) : ListResult :=
  let items := store.listReceipts f limit (if receiptBefore.isSome then 0 else offset) receiptBefore
  let total := store.countReceipts f none
  let receiptsRemaining := items.getLast?.map fun last => store.countReceipts f (some last.cursor)
  { items, total, limit, offset
    truncated :=
      match receiptsRemaining with
      | some n => decide (0 < n)
      | none =>
          if receiptBefore.isSome then false else listTruncated total offset items.length }

/-- Follow the cursor, one read of each table, until a page is not truncated. -/
def followCursor (f : Filters) (limit : Nat) :
    Option Cursor → List ReceiptStore → Option (List ReceiptSummary)
  | _, [] => none
  | receiptBefore, store :: later =>
      let result := serviceList store f limit 0 receiptBefore
      if result.truncated then
        (followCursor f limit (result.items.getLast?.map ReceiptSummary.cursor) later).map
          (result.items ++ ·)
      else some result.items

/-- The tables at the reads of a scan: some inserts between every two of them. -/
def tablesRead (store : ReceiptStore) : List (List Receipt) → List ReceiptStore
  | [] => [store]
  | inserts :: rest => store :: tablesRead (inserts.foldl ReceiptStore.after store) rest

theorem rows_after (store : ReceiptStore) (r : Receipt) : store.rows ⊆ (store.after r).rows := by
  intro q hq
  unfold ReceiptStore.after ReceiptStore.saveReceipt
  cases hget : store.get? r.receiptId with
  | some _ => exact hq
  | none =>
    have hne : r.receiptId ≠ q.receiptId := by
      intro heq
      rw [heq, Table.get?_of_mem_rows hq] at hget
      cases hget
    exact Table.mem_rows.mpr ((store.get?_put_of_ne hne).trans (Table.get?_of_mem_rows hq))

theorem rows_inserts (inserts : List Receipt) (store : ReceiptStore) :
    store.rows ⊆ (inserts.foldl ReceiptStore.after store).rows := by
  induction inserts generalizing store with
  | nil => exact fun _ h => h
  | cons r rest ih => exact List.Subset.trans (rows_after store r) (ih (store.after r))

theorem tablesRead_head (store : ReceiptStore) (batches : List (List Receipt)) :
    ∃ later, tablesRead store batches = store :: later := by
  cases batches with
  | nil => exact ⟨[], rfl⟩
  | cons b rest => exact ⟨_, rfl⟩

theorem length_tablesRead (store : ReceiptStore) (batches : List (List Receipt)) :
    (tablesRead store batches).length = batches.length + 1 := by
  induction batches generalizing store with
  | nil => rfl
  | cons b rest ih => simp [tablesRead, ih]

variable {batches : List (List Receipt)} {store : ReceiptStore} {s : ReceiptStore} {f : Filters}
  {r : Receipt}

/-- The first table of a scan is part of every later one. -/
theorem rows_subset_of_read (h : s ∈ tablesRead store batches) : store.rows ⊆ s.rows := by
  induction batches generalizing store with
  | nil =>
    rw [List.mem_singleton.mp h]
    exact fun _ h => h
  | cons b rest ih =>
    rcases List.mem_cons.mp h with rfl | h
    · exact fun _ h => h
    · exact List.Subset.trans (rows_inserts b store) (ih h)

theorem growing_tablesRead (store : ReceiptStore) (batches : List (List Receipt)) :
    (tablesRead store batches).Pairwise fun a b => a.rows ⊆ b.rows := by
  induction batches generalizing store with
  | nil => exact List.pairwise_singleton _ _
  | cons b rest ih =>
    refine List.pairwise_cons.mpr ⟨?_, ih _⟩
    intro s hs
    exact List.Subset.trans (rows_inserts b store) (rows_subset_of_read hs)

/-- Every table of a scan is part of the last one. -/
theorem rows_of_read_subset (h : s ∈ tablesRead store batches) :
    s.rows ⊆ (batches.flatten.foldl ReceiptStore.after store).rows := by
  induction batches generalizing store with
  | nil =>
    rw [List.mem_singleton.mp h]
    exact fun _ h => h
  | cons b rest ih =>
    rcases List.mem_cons.mp h with rfl | h
    · exact rows_inserts (b :: rest).flatten s
    · rw [List.flatten_cons, List.foldl_append]
      exact ih h

theorem nodup_matching (store : ReceiptStore) (f : Filters) :
    ((store.matching f).map Receipt.cursor).Nodup := by
  have hids : ((store.matching f).map Receipt.receiptId).Nodup :=
    store.nodup_keys.sublist (List.filter_sublist.map _)
  have hmap : (store.matching f).map Receipt.receiptId =
      ((store.matching f).map Receipt.cursor).map fun c => (ofLex c).2 := by
    rw [List.map_map]
    rfl
  rw [hmap] at hids
  exact hids.of_map _

theorem mem_matching :
    r ∈ store.matching f ↔ r ∈ store.rows ∧ f.Matches r = true := List.mem_filter

/-- Later than, or as late with a greater id. -/
def Newer (a b : Receipt) : Prop :=
  b.createdAt < a.createdAt ∨ a.createdAt = b.createdAt ∧ b.receiptId < a.receiptId

theorem cursor_lt_iff {a b : Receipt} : b.cursor < a.cursor ↔ Newer a b := by
  have hlt : b.createdText < a.createdText ↔ b.createdAt < a.createdAt := by
    rw [String.lt_iff_toList_lt, Receipt.createdText, Receipt.createdText, String.toList_ofList,
      String.toList_ofList, isoformat_lt_iff]
  have heq : b.createdText = a.createdText ↔ a.createdAt = b.createdAt := by
    rw [Receipt.createdText, Receipt.createdText, String.ofList_inj]
    exact ⟨fun h => (isoformat_injective h).symm, fun h => congrArg isoformat h.symm⟩
  rw [Receipt.cursor, Receipt.cursor, Prod.Lex.toLex_lt_toLex, hlt, heq, Newer]

section Read
variable {store : ReceiptStore} {f : Filters} {limit : Nat} {before : Option Cursor}

theorem listReceipts_eq : store.listReceipts f limit 0 before =
    (page Receipt.cursor limit before (store.matching f)).map Receipt.summary := by
  simp [ReceiptStore.listReceipts, page]

theorem serviceList_items : (serviceList store f limit 0 before).items =
    (page Receipt.cursor limit before (store.matching f)).map Receipt.summary := by
  simp [serviceList, listReceipts_eq]

/-- How far a read has come: to its last item, or where it began. -/
def reached (before : Option Cursor) (result : ListResult) : Option Cursor :=
  (result.items.getLast?.map ReceiptSummary.cursor).or before

theorem reached_eq : reached before (serviceList store f limit 0 before) =
    ((page Receipt.cursor limit before (store.matching f)).getLast?.map Receipt.cursor).or
      before := by
  rw [reached, serviceList_items, List.getLast?_map, Option.map_map]
  rfl

theorem truncated_of_last {last : Receipt}
    (h : (page Receipt.cursor limit before (store.matching f)).getLast? = some last) :
    (serviceList store f limit 0 before).truncated =
      decide (0 < (below Receipt.cursor (some last.cursor) (store.matching f)).length) := by
  have hitems : (store.listReceipts f limit 0 before).getLast? = some last.summary := by
    rw [listReceipts_eq, List.getLast?_map, h]
    rfl
  simp [serviceList, hitems, ReceiptStore.countReceipts]

theorem truncated_iff (hlimit : 0 < limit) :
    (serviceList store f limit 0 before).truncated = true ↔
      ∃ r ∈ store.matching f, ∀ c, reached before (serviceList store f limit 0 before) = some c →
        r.cursor < c := by
  rw [reached_eq]
  cases hlast : (page Receipt.cursor limit before (store.matching f)).getLast? with
  | some last =>
    rw [truncated_of_last hlast, decide_eq_true_eq, List.length_pos_iff_exists_mem]
    simp [mem_below]
  | none =>
    have hnil := List.getLast?_eq_none_iff.mp hlast
    have hbelow := (page_eq_nil hlimit).mp hnil
    have hitems : store.listReceipts f limit 0 before = [] := by
      rw [listReceipts_eq, hnil, List.map_nil]
    have hnone : ¬∃ r ∈ store.matching f, ∀ c, before = some c → r.cursor < c := by
      rintro ⟨r, hr, hc⟩
      have hmem : r ∈ below Receipt.cursor before (store.matching f) := mem_below.mpr ⟨hr, hc⟩
      rw [hbelow] at hmem
      cases hmem
    rw [Option.map_none, Option.none_or]
    refine iff_of_false ?_ hnone
    cases before with
    | some c => simp [serviceList, hitems]
    | none => simp [serviceList, hitems, listTruncated, ReceiptStore.countReceipts, hbelow]

end Read

theorem followCursor_eq {limit : Nat} (hlimit : 0 < limit) (stores : List ReceiptStore)
    (before : Option Cursor) :
    followCursor f limit before stores =
      (scan Receipt.cursor limit before (stores.map (·.matching f))).map
        (List.map Receipt.summary) := by
  induction stores generalizing before with
  | nil => rfl
  | cons store later ih =>
    rw [followCursor, List.map_cons, scan, serviceList_items]
    cases hlast : (page Receipt.cursor limit before (store.matching f)).getLast? with
    | none =>
      have hnil := List.getLast?_eq_none_iff.mp hlast
      have hend : ¬(serviceList store f limit 0 before).truncated = true := by
        rw [truncated_iff hlimit]
        rintro ⟨r, hr, hc⟩
        rw [reached_eq, hlast] at hc
        have hmem : r ∈ below Receipt.cursor before (store.matching f) :=
          mem_below.mpr ⟨hr, hc⟩
        rw [(page_eq_nil hlimit).mp hnil] at hmem
        cases hmem
      simp [hend, hnil]
    | some last =>
      have hnext : (List.map Receipt.summary
          (page Receipt.cursor limit before (store.matching f))).getLast?.map
            ReceiptSummary.cursor = some last.cursor := by
        rw [List.getLast?_map, hlast]
        rfl
      simp only [truncated_of_last hlast, decide_eq_true_eq, List.length_pos_iff, hnext, ih]
      by_cases hend : below Receipt.cursor (some last.cursor) (store.matching f) = []
      · simp [hend]
      · simp only [hend, ne_eq, not_false_eq_true, if_true, if_false, Option.map_map]
        congr 1
        funext rest
        simp

theorem filter_receiptId {found : List Receipt} {final : ReceiptStore} (hn : found.Pairwise Newer)
    (hfinal : ∀ r ∈ found, r ∈ final.rows) (hr : r ∈ found) :
    (found.map Receipt.summary).filter (fun s => s.receiptId = r.receiptId) = [r.summary] := by
  have hnodup : found.Nodup := by
    refine hn.imp ?_
    rintro a b hab rfl
    exact lt_irrefl _ (cursor_lt_iff.mpr hab)
  have hperm : (found.filter fun q => q.receiptId = r.receiptId).Perm [r] := by
    refine (List.perm_ext_iff_of_nodup (hnodup.filter _) (List.nodup_singleton r)).mpr ?_
    intro q
    rw [List.mem_filter, List.mem_singleton, decide_eq_true_eq]
    constructor
    · rintro ⟨hq, hid⟩
      exact Table.eq_of_key (hfinal q hq) (hfinal r hr) hid
    · rintro rfl
      exact ⟨hr, rfl⟩
  rw [List.filter_map]
  exact congrArg (List.map Receipt.summary) (List.perm_singleton.mp hperm)

/-- Whatever is inserted between the reads, a scan that ends returned, newest first, every
matching receipt of its beginning exactly once, and nothing that does not match. It ends
where it is read often enough, and says at each read whether older receipts remain. -/
theorem receipt_listing_is_stable (store : ReceiptStore) (inserts : List (List Receipt))
    (f : Filters) (limit : Nat) (hlimit : 0 < limit) :
    (∀ items, followCursor f limit none (tablesRead store inserts) = some items →
      ∃ found : List Receipt, items = found.map Receipt.summary ∧ found.Pairwise Newer ∧
        (∀ r ∈ found, f.Matches r = true ∧ ∃ s ∈ tablesRead store inserts, r ∈ s.rows) ∧
        ∀ r ∈ store.rows, f.Matches r = true →
          items.filter (fun s => s.receiptId = r.receiptId) = [r.summary]) ∧
    ((inserts.flatten.foldl ReceiptStore.after store).rows.length ≤ inserts.length →
      (followCursor f limit none (tablesRead store inserts)).isSome) ∧
    ∀ (s : ReceiptStore) (before : Option Cursor),
      (serviceList s f limit 0 before).truncated = true ↔
        ∃ r ∈ s.rows, f.Matches r = true ∧
          ∀ c, reached before (serviceList s f limit 0 before) = some c → r.cursor < c := by
  refine ⟨?_, ?_, ?_⟩
  · intro items h
    rw [followCursor_eq hlimit] at h
    obtain ⟨found, hscan, rfl⟩ := Option.map_eq_some_iff.mp h
    have hkeys : ∀ rows ∈ (tablesRead store inserts).map (·.matching f),
        (rows.map Receipt.cursor).Nodup := by
      intro rows hrows
      obtain ⟨s, _, rfl⟩ := List.mem_map.mp hrows
      exact nodup_matching s f
    have hgrow : Growing ((tablesRead store inserts).map (·.matching f)) := by
      refine List.pairwise_map.mpr ((growing_tablesRead store inserts).imp ?_)
      intro a b hab r hr
      exact mem_matching.mpr ⟨hab (mem_matching.mp hr).1, (mem_matching.mp hr).2⟩
    have hcomplete := scan_complete hkeys hgrow hlimit hscan
    have hnewer : found.Pairwise Newer := hcomplete.descending.imp fun h => cursor_lt_iff.mp h
    have hsource : ∀ r ∈ found, f.Matches r = true ∧ ∃ s ∈ tablesRead store inserts,
        r ∈ s.rows := by
      intro r hr
      obtain ⟨⟨rows, hrows, hmem⟩, _⟩ := hcomplete.sound r hr
      obtain ⟨s, hs, rfl⟩ := List.mem_map.mp hrows
      exact ⟨(mem_matching.mp hmem).2, s, hs, (mem_matching.mp hmem).1⟩
    refine ⟨found, rfl, hnewer, hsource, ?_⟩
    intro r hr hmatch
    have hfound : r ∈ found := by
      obtain ⟨later, hlater⟩ := tablesRead_head store inserts
      refine hcomplete.exhaustive r ?_ (fun b hb => by cases hb)
      rw [hlater]
      exact mem_matching.mpr ⟨hr, hmatch⟩
    have hfinal : ∀ q ∈ found, q ∈ (inserts.flatten.foldl ReceiptStore.after store).rows := by
      intro q hq
      obtain ⟨_, s, hs, hqs⟩ := hsource q hq
      exact rows_of_read_subset hs hqs
    exact filter_receiptId hnewer hfinal hfound
  · intro henough
    rw [followCursor_eq hlimit, Option.isSome_map]
    have hsub : ∀ rows ∈ (tablesRead store inserts).map (·.matching f),
        rows ⊆ (inserts.flatten.foldl ReceiptStore.after store).rows := by
      intro rows hrows r hr
      obtain ⟨s, hs, rfl⟩ := List.mem_map.mp hrows
      exact rows_of_read_subset hs (mem_matching.mp hr).1
    refine scan_ends hsub ?_
    · rw [List.length_map, length_tablesRead]
      have hlength := List.length_filter_le
        (fun r : Receipt => (none : Option Cursor).all fun b => decide (r.cursor < b))
        (inserts.flatten.foldl ReceiptStore.after store).rows
      unfold below
      omega
  · intro s before
    rw [truncated_iff hlimit]
    simp only [mem_matching, and_assoc]

/-- Two queries and a mutation that is stamped before them and stored after the first page. -/
def morning : Moment := { newYear.toDate with hour := 8 }

def noon : Moment := { newYear.toDate with hour := 12 }

def queried : ReceiptStore :=
  [Receipt.mk "RCP-1" "owners" [] morning (.finite 0) "query",
    Receipt.mk "RCP-2" "owners" [] noon (.finite 0) "query"].foldl ReceiptStore.after ∅

def lateInsert : Receipt :=
  { receiptId := "RCP-0", createdAt := morning, operationType := "add_entities" }

theorem scan_with_late_insert :
    (followCursor {} 1 none (tablesRead queried [[lateInsert], [], []])).isSome :=
  (receipt_listing_is_stable queried [[lateInsert], [], []] {} 1 (by decide)).2.1 (by decide)

end Cruxible.ReceiptPages
